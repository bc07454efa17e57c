/-
**The transport and its connections** (`transport.hpp`, `transport.cpp`): the peers of a node, dialled or
accepted, from the dial to `Hello` and until they are dropped. A socket is the number of the connection it
is one end of; framing is below this level, and what a connection carries is messages.

* `Paired` — what holds of a transport that has one configured peer and hears honest `Hello`s only.
* `Paired.receive` — a message keeps it, whichever connection the tiebreak drops.
* `EndAt.receive_of_ne`, `EndAt.receive_hello` — a connection in the direction that the tiebreak keeps
  outlives every message.
-/

import Sententia.Library.Positions
import Sententia.Net.MessageCodec

namespace Sententia.Net

open Library

inductive PeerState
  | disconnected
  | connecting
  | handshaking
  | ready
deriving Repr, DecidableEq

structure Peer where
  /-- Zero until `Hello` identifies an inbound peer. -/
  id : NodeId
  /-- We dialled it, so we redial it if it drops. -/
  outbound : Bool
  state : PeerState
  sock : Option Nat
deriving Repr, DecidableEq

/-- The range of `int`. -/
def FitsInt (number : Int) : Prop := -2 ^ 31 ≤ number ∧ number < 2 ^ 31

instance (number : Int) : Decidable (FitsInt number) := inferInstanceAs (Decidable (_ ∧ _))

/-- The sum of two `int`s. One that is out of range, which the language leaves undefined, wraps around. -/
def addInt (first second : Int) : Int := (first + second).bmod (2 ^ 32)

theorem addInt_eq {first second : Int} (fits : FitsInt (first + second)) :
    addInt first second = first + second :=
  Int.bmod_eq_of_le (by have := fits.1; omega) (by have := fits.2; omega)

structure Transport where
  selfId : NodeId
  listenPort : UInt16
  peers : List Peer := []
  /-- This and the cycles are of type `int`. -/
  reconnectDelay : Int := 10
  cycle : Int := 0
  nextConnectCycle : List Int := []

namespace Transport

/-! ### The peers of a node -/

def addPeer (transport : Transport) (id : NodeId) : Transport :=
  { transport with
    peers := transport.peers ++ [{ id, outbound := true, state := .disconnected, sock := none }]
    nextConnectCycle := transport.nextConnectCycle ++ [0] }

/-- The position of the first ready peer with this id. A position stands for the pointer to a peer. -/
def findPeer (transport : Transport) (id : NodeId) : Option Nat :=
  transport.peers.findIdx? fun peer => peer.id = id ∧ peer.state = .ready

def isReady (transport : Transport) (id : NodeId) : Bool := (transport.findPeer id).isSome

def readyPeerCount (transport : Transport) : Nat :=
  transport.peers.countP fun peer => peer.state = .ready

/-- What `sendHello` writes. -/
def hello (transport : Transport) : Message :=
  .hello
    { nodeId := transport.selfId
      protocolVersion := kVersion
      advertisedAddress := ("0.0.0.0:" ++ toString transport.listenPort).toUTF8.toList }

def updatePeer (transport : Transport) (position : Nat) (change : Peer → Peer) : Transport :=
  { transport with peers := transport.peers.modify position change }

/-- `sock` is the socket that `connect` gives, if it gives one. -/
def startConnect (transport : Transport) (position : Nat) (sock : Option Nat) : Transport :=
  transport.updatePeer position fun peer =>
    match sock with
    | none => { peer with state := .disconnected, sock := none }
    | some sock => { peer with state := .connecting, sock := some sock }

/-- An inbound peer has no address to dial and loses its id. -/
def dropPeer (transport : Transport) (position : Nat) : Transport :=
  transport.updatePeer position fun peer =>
    { peer with state := .disconnected, sock := none, id := if peer.outbound then peer.id else 0 }

/-- One round of the loop of `acceptPending`; the `Hello` is for the caller to put on the connection. -/
def acceptPending (transport : Transport) (sock : Nat) : Transport :=
  { transport with
    peers := transport.peers ++ [{ id := 0, outbound := false, state := .handshaking, sock := some sock }]
    nextConnectCycle := transport.nextConnectCycle ++ [0] }

/-! ### Messages -/

/-- The peer is identified and up. -/
def peerUp (transport : Transport) (position : Nat) (id : NodeId) : Transport :=
  transport.updatePeer position fun peer => { peer with id, state := .ready }

/-- The `Hello` branch of `drainFrames`. Of two connections the one dialled by the node with the lower id
is kept. -/
def receiveHello (transport : Transport) (position : Nat) (peer : Peer) (hello : Hello) : Transport :=
  if hello.protocolVersion ≠ kVersion then transport.dropPeer position
  else if peer.outbound ∧ peer.id ≠ hello.nodeId then transport.dropPeer position
  else
    match transport.findPeer hello.nodeId with
    | none => transport.peerUp position hello.nodeId
    | some existing =>
      if existing = position then transport.peerUp position hello.nodeId
      else if peer.outbound = decide (transport.selfId < hello.nodeId) then
        (transport.dropPeer existing).peerUp position hello.nodeId
      else transport.dropPeer position

/-- `drainFrames` on one decoded message. Anything before `Hello` is out of order. -/
def receive (transport : Transport) (position : Nat) (msg : Message) : Transport :=
  match transport.peers[position]? with
  | none => transport
  | some peer =>
    match msg with
    | .hello hello => transport.receiveHello position peer hello
    | _ => if peer.state ≠ .ready then transport.dropPeer position else transport

/-! ### The poll cycle -/

def beginPoll (transport : Transport) : Transport := { transport with cycle := addInt transport.cycle 1 }

/-- An outbound peer that is down and past its retry cycle, unless its node is connected already. -/
def due (transport : Transport) (position : Nat) : Bool :=
  match transport.peers[position]? with
  | none => false
  | some peer => peer.outbound ∧ peer.state = .disconnected ∧
      transport.cycle ≥ transport.nextConnectCycle.getD position 0 ∧ transport.isReady peer.id = false

/-- The dialling of one peer. -/
def dial (transport : Transport) (position : Nat) (sock : Option Nat) : Transport :=
  startConnect { transport with
    nextConnectCycle :=
      transport.nextConnectCycle.set position (addInt transport.cycle transport.reconnectDelay) }
    position sock

/-- A pending connect has completed; the `Hello` is for the caller to put on the connection. -/
def connected (transport : Transport) (position : Nat) : Transport :=
  transport.updatePeer position fun peer => { peer with state := .handshaking }

/-- Inbound peers that have dropped are erased, and the retry cycles resized. -/
def retire (transport : Transport) : Transport :=
  let peers := transport.peers.filter fun peer => ¬ (peer.outbound = false ∧ peer.state = .disconnected)
  { transport with
    peers
    nextConnectCycle := (transport.nextConnectCycle ++ List.replicate peers.length 0).take peers.length }

end Transport

/-! ### A transport with one configured peer -/

/-- What holds of every peer of a node whose only partner has the id `other`. -/
structure Peer.Proper (peer : Peer) (other : NodeId) : Prop where
  configured : peer.outbound = true → peer.id = other
  identified : peer.state = .ready → peer.id = other
  closed : peer.sock = none ↔ peer.state = .disconnected
  inbound : peer.outbound = false → peer.state ≠ .connecting

/-- A message that may come from the node with the id `other`. -/
def Honest (other : NodeId) (msg : Message) : Prop :=
  ∀ hello, msg = .hello hello → hello.nodeId = other ∧ hello.protocolVersion = kVersion

namespace Transport

/-- **The invariant of a node**: one configured peer, no two peers on one socket, no two ready peers. -/
structure Paired (transport : Transport) (own other : NodeId) : Prop where
  selfId : transport.selfId = own
  proper : ∀ peer ∈ transport.peers, peer.Proper other
  oneOutbound : transport.peers.countP (·.outbound) = 1
  oneReady : transport.readyPeerCount ≤ 1
  oneSocket : ∀ sock, transport.peers.countP (fun peer => peer.sock = some sock) ≤ 1

variable {transport : Transport} {own other : NodeId} {position : Nat} {peer : Peer}

theorem paired_addPeer (own other : NodeId) (listenPort : UInt16) (reconnectDelay : Int) :
    (addPeer { selfId := own, listenPort, reconnectDelay } other).Paired own other where
  selfId := rfl
  proper := by
    intro peer member
    obtain rfl := List.mem_singleton.mp member
    exact ⟨fun _ => rfl, nofun, iff_of_true rfl rfl, nofun⟩
  oneOutbound := rfl
  oneReady := Nat.zero_le 1
  oneSocket := fun _ => Nat.zero_le 1

theorem getElem?_of_findPeer {id : NodeId} (ready : transport.findPeer id = some position) :
    ∃ peer, transport.peers[position]? = some peer ∧ peer.state = .ready := by
  obtain ⟨inside, passes, _⟩ := List.findIdx?_eq_some_iff_getElem.mp ready
  exact ⟨_, List.getElem?_eq_getElem inside, (of_decide_eq_true passes).2⟩

/-- **What a message can do** to the peer at a position and to the others. -/
inductive Outcome (transport : Transport) (own other : NodeId) (position : Nat) (peer : Peer)
    (msg : Message) : Transport → Prop
  | ignored (plain : ∀ hello, msg ≠ .hello hello) (ready : peer.state = .ready) :
    Outcome transport own other position peer msg transport
  | early (plain : ∀ hello, msg ≠ .hello hello) (down : peer.state ≠ .ready) :
    Outcome transport own other position peer msg (transport.dropPeer position)
  | up {hello : Hello} (greets : msg = .hello hello)
    (alone : transport.findPeer other = none ∨ transport.findPeer other = some position) :
    Outcome transport own other position peer msg (transport.peerUp position other)
  | won {hello : Hello} (greets : msg = .hello hello) {first : Nat} {peer' : Peer}
    (existing : transport.findPeer other = some first) (elsewhere : first ≠ position)
    (found : transport.peers[first]? = some peer') (ready : peer'.state = .ready)
    (wins : peer.outbound = decide (own < other)) :
    Outcome transport own other position peer msg ((transport.dropPeer first).peerUp position other)
  | lost {hello : Hello} (greets : msg = .hello hello) (loses : peer.outbound ≠ decide (own < other)) :
    Outcome transport own other position peer msg (transport.dropPeer position)

theorem outcome_receive (paired : transport.Paired own other)
    (found : transport.peers[position]? = some peer) {msg : Message} (honest : Honest other msg) :
    transport.Outcome own other position peer msg (transport.receive position msg) := by
  have configured : ¬ (peer.outbound = true ∧ peer.id ≠ other) := fun wrong =>
    wrong.2 ((paired.proper peer (List.mem_of_getElem? found)).configured wrong.1)
  unfold receive
  rw [found]
  dsimp only
  split
  · next hello =>
    obtain ⟨id, version⟩ := honest hello rfl
    unfold receiveHello
    rw [id, if_neg (not_not.mpr version), if_neg configured, paired.selfId]
    cases existing : transport.findPeer other with
    | none => exact .up rfl (Or.inl existing)
    | some first =>
      obtain ⟨peer', found', ready⟩ := getElem?_of_findPeer existing
      dsimp only
      split_ifs with itself wins
      · exact .up rfl (Or.inr (itself ▸ existing))
      · exact .won rfl existing itself found' ready wins
      · exact .lost rfl wins
  · next plain =>
    split_ifs with down
    · exact .early plain down
    · exact .ignored plain (not_not.mp down)

namespace Paired

/-- **A change to one peer.** It may come up only when no other is up, and take only a socket that no other
has. -/
theorem update (paired : transport.Paired own other) (found : transport.peers[position]? = some peer)
    {change : Peer → Peer} (proper : (change peer).Proper other)
    (direction : (change peer).outbound = peer.outbound)
    (up : (change peer).state = .ready → peer.state = .ready ∨ transport.readyPeerCount = 0)
    (socket : ∀ sock, (change peer).sock = some sock →
      peer.sock = some sock ∨ ∀ peer' ∈ transport.peers, peer'.sock ≠ some sock) :
    (transport.updatePeer position change).Paired own other where
  selfId := paired.selfId
  proper := by
    intro peer' member
    rcases mem_modify change found member with old | rfl
    · exact paired.proper peer' old
    · exact proper
  oneOutbound := by
    have counted := countP_modify (·.outbound) change found
    simp only [direction] at counted
    exact (Nat.add_right_cancel counted).trans paired.oneOutbound
  oneReady := by
    refine countP_modify_le_one paired.oneReady found fun ready => ?_
    exact (up (of_decide_eq_true ready)).imp_left decide_eq_true
  oneSocket := by
    intro sock
    refine countP_modify_le_one (paired.oneSocket sock) found fun held => ?_
    refine (socket sock (of_decide_eq_true held)).imp decide_eq_true fun none => ?_
    exact List.countP_eq_zero.mpr fun peer' member => decide_eq_true_iff.not.mpr (none peer' member)

theorem dropPeer (paired : transport.Paired own other) (found : transport.peers[position]? = some peer) :
    (transport.dropPeer position).Paired own other := by
  have proper := paired.proper peer (List.mem_of_getElem? found)
  refine paired.update found ⟨?_, nofun, iff_of_true rfl rfl, nofun⟩ rfl nofun nofun
  intro outbound
  show (if peer.outbound then peer.id else 0) = other
  rw [if_pos outbound]
  exact proper.configured outbound

theorem peerUp (paired : transport.Paired own other) (found : transport.peers[position]? = some peer)
    (live : peer.sock ≠ none) (up : peer.state = .ready ∨ transport.readyPeerCount = 0) :
    (transport.peerUp position other).Paired own other := by
  refine paired.update found ⟨fun _ => rfl, fun _ => rfl, iff_of_false live nofun, nofun⟩ rfl ?_ ?_
  · exact fun _ => up
  · exact fun _ => Or.inl

theorem connected (paired : transport.Paired own other) (found : transport.peers[position]? = some peer)
    (live : peer.sock ≠ none) : (transport.connected position).Paired own other := by
  have proper := paired.proper peer (List.mem_of_getElem? found)
  refine paired.update found ⟨proper.configured, nofun, iff_of_false live nofun, nofun⟩ rfl nofun ?_
  exact fun _ => Or.inl

theorem dial (paired : transport.Paired own other) (due : transport.due position = true) {sock : Nat}
    (fresh : ∀ peer ∈ transport.peers, peer.sock ≠ some sock) :
    (transport.dial position (some sock)).Paired own other := by
  unfold Transport.due at due
  split at due
  · cases due
  · next peer found =>
    have outbound := (of_decide_eq_true due).1
    have configured := (paired.proper peer (List.mem_of_getElem? found)).configured
    have same : ∀ nextConnectCycle, Paired { transport with nextConnectCycle } own other := fun _ =>
      ⟨paired.selfId, paired.proper, paired.oneOutbound, paired.oneReady, paired.oneSocket⟩
    unfold Transport.dial startConnect
    generalize transport.nextConnectCycle.set position _ = cycles
    refine update (same cycles) found ?_ ?_ ?_ ?_
    · refine ⟨configured, nofun, iff_of_false nofun nofun, fun inbound => ?_⟩
      exact absurd (outbound.symm.trans inbound) nofun
    · rfl
    · nofun
    · rintro sock' taken
      cases taken
      exact Or.inr fresh

theorem acceptPending (paired : transport.Paired own other) {sock : Nat}
    (fresh : ∀ peer ∈ transport.peers, peer.sock ≠ some sock) :
    (transport.acceptPending sock).Paired own other where
  selfId := paired.selfId
  proper := by
    intro peer member
    rcases List.mem_append.mp member with old | new
    · exact paired.proper peer old
    · obtain rfl := List.mem_singleton.mp new
      exact ⟨nofun, nofun, iff_of_false nofun nofun, nofun⟩
  oneOutbound := by
    show (transport.peers ++ [_]).countP _ = 1
    rw [List.countP_append]
    exact paired.oneOutbound
  oneReady := by
    show (transport.peers ++ [_]).countP _ ≤ 1
    rw [List.countP_append]
    exact paired.oneReady
  oneSocket := by
    intro sock'
    show (transport.peers ++ [_]).countP _ ≤ 1
    rw [List.countP_append]
    by_cases same : sock = sock'
    · subst same
      have none : transport.peers.countP (fun peer => peer.sock = some sock) = 0 :=
        List.countP_eq_zero.mpr fun peer member => decide_eq_true_iff.not.mpr (fresh peer member)
      rw [none, Nat.zero_add]
      exact List.countP_le_length
    · refine (Nat.le_of_eq ?_).trans (paired.oneSocket sock')
      simp [same]

theorem retire (paired : transport.Paired own other) : transport.retire.Paired own other where
  selfId := paired.selfId
  proper := fun peer member => paired.proper peer (List.mem_filter.mp member).1
  oneOutbound := by
    refine Eq.trans ?_ paired.oneOutbound
    show (transport.peers.filter _).countP _ = _
    rw [List.countP_filter]
    refine List.countP_congr fun peer _ => ?_
    cases peer.outbound <;> simp
  oneReady := (List.filter_sublist.countP_le).trans paired.oneReady
  oneSocket := fun sock => (List.filter_sublist.countP_le).trans (paired.oneSocket sock)

/-- No peer is ready when `findPeer` finds none. -/
theorem readyPeerCount_eq_zero (paired : transport.Paired own other) (none : transport.findPeer other = none) :
    transport.readyPeerCount = 0 := by
  refine List.countP_eq_zero.mpr fun peer member ready => ?_
  have ready' := of_decide_eq_true ready
  have absent := List.findIdx?_eq_none_iff.mp none peer member
  exact of_decide_eq_false absent ⟨(paired.proper peer member).identified ready', ready'⟩

/-- **A message keeps the invariant**: the tiebreak leaves at most one of two connections. -/
theorem receive (paired : transport.Paired own other) (found : transport.peers[position]? = some peer)
    (live : peer.sock ≠ none) {msg : Message} (honest : Honest other msg) :
    (transport.receive position msg).Paired own other := by
  have outcome := outcome_receive paired found honest
  generalize transport.receive position msg = after at outcome ⊢
  cases outcome with
  | ignored => exact paired
  | early => exact paired.dropPeer found
  | lost => exact paired.dropPeer found
  | up _ alone =>
    refine paired.peerUp found live ?_
    rcases alone with none | itself
    · exact Or.inr (paired.readyPeerCount_eq_zero none)
    · obtain ⟨peer', found', ready⟩ := getElem?_of_findPeer itself
      rw [found] at found'
      cases found'
      exact Or.inl ready
  | @won _ _ first _ _ elsewhere found' ready _ =>
    -- the connection that was up is dropped, so that none is up any more
    have dropped : (transport.dropPeer first).readyPeerCount = 0 := by
      have counted : (transport.dropPeer first).readyPeerCount + _ = _ + (false : Bool).toNat :=
        countP_modify (fun peer : Peer => peer.state = .ready) _ found'
      rw [decide_eq_true ready] at counted
      have one := paired.oneReady
      unfold readyPeerCount at counted one ⊢
      simp only [Bool.toNat_true, Bool.toNat_false] at counted
      omega
    have found'' : (transport.dropPeer first).peers[position]? = some peer :=
      (List.getElem?_modify_ne _ _ elsewhere).trans found
    exact (paired.dropPeer found').peerUp found'' live (Or.inr dropped)

end Paired

/-! ### The end of a connection -/

/-- The peer on a socket. -/
def EndAt (transport : Transport) (sock : Nat) (peer : Peer) : Prop :=
  peer ∈ transport.peers ∧ peer.sock = some sock

namespace EndAt

variable {sock : Nat} {talking : Peer}

theorem unique (paired : transport.Paired own other) {peer' : Peer} (first : transport.EndAt sock peer)
    (second : transport.EndAt sock peer') : peer = peer' :=
  entry_unique (paired.oneSocket sock) first.1 (decide_eq_true first.2) second.1 (decide_eq_true second.2)

/-- A change to a peer on another socket. -/
theorem update_of_ne (endAt : transport.EndAt sock peer)
    (found : transport.peers[position]? = some talking) (different : talking.sock ≠ some sock)
    (change : Peer → Peer) : (transport.updatePeer position change).EndAt sock peer := by
  refine ⟨mem_modify_of_ne change found endAt.1 ?_, endAt.2⟩
  rintro rfl
  exact different endAt.2

theorem update_self (endAt : transport.EndAt sock peer) (found : transport.peers[position]? = some peer)
    {change : Peer → Peer} (same : (change peer).sock = peer.sock) :
    (transport.updatePeer position change).EndAt sock (change peer) :=
  ⟨change_mem_modify change found, same.trans endAt.2⟩

/-- Ends that are there after a change were there before it, if the change takes no other socket. -/
theorem of_update {change : Peer → Peer} (endAt : (transport.updatePeer position change).EndAt sock peer)
    (found : transport.peers[position]? = some talking)
    (direction : (change talking).outbound = talking.outbound)
    (socket : (change talking).sock = some sock → talking.sock = some sock) :
    ∃ peer', transport.EndAt sock peer' ∧ peer'.outbound = peer.outbound := by
  rcases mem_modify change found endAt.1 with old | rfl
  · exact ⟨peer, ⟨old, endAt.2⟩, rfl⟩
  · exact ⟨talking, ⟨List.mem_of_getElem? found, socket endAt.2⟩, direction.symm⟩

theorem acceptPending (endAt : transport.EndAt sock peer) (sock' : Nat) :
    (transport.acceptPending sock').EndAt sock peer :=
  ⟨List.mem_append_left _ endAt.1, endAt.2⟩

theorem acceptPending_self (sock : Nat) :
    (transport.acceptPending sock).EndAt sock
      { id := 0, outbound := false, state := .handshaking, sock := some sock } :=
  ⟨List.mem_append_right _ (List.mem_singleton.mpr rfl), rfl⟩

/-- Only what has no socket is retired. -/
theorem retire (paired : transport.Paired own other) (endAt : transport.EndAt sock peer) :
    transport.retire.EndAt sock peer := by
  refine ⟨List.mem_filter.mpr ⟨endAt.1, decide_eq_true ?_⟩, endAt.2⟩
  rintro ⟨_, down⟩
  have closed := (paired.proper peer endAt.1).closed.mpr down
  exact absurd (closed.symm.trans endAt.2) nofun

/-- **The kept direction**: a connection that the tiebreak keeps stays as it is while messages arrive on
connections in the other direction. -/
theorem receive_of_ne (paired : transport.Paired own other) (endAt : transport.EndAt sock peer)
    (kept : peer.outbound = decide (own < other)) (found : transport.peers[position]? = some talking)
    (different : talking.sock ≠ some sock) (direction : talking.outbound ≠ peer.outbound) {msg : Message}
    (honest : Honest other msg) : (transport.receive position msg).EndAt sock peer := by
  have outcome := outcome_receive paired found honest
  generalize transport.receive position msg = after at outcome ⊢
  cases outcome with
  | ignored => exact endAt
  | early => exact endAt.update_of_ne found different _
  | up => exact endAt.update_of_ne found different _
  | won _ _ _ _ _ wins => exact absurd (wins.trans kept.symm) direction
  | lost => exact endAt.update_of_ne found different _

/-- **`Hello` on a connection that the tiebreak keeps** brings it up, whatever is dropped for it. -/
theorem receive_hello (paired : transport.Paired own other) (endAt : transport.EndAt sock peer)
    (kept : peer.outbound = decide (own < other)) (found : transport.peers[position]? = some peer)
    {hello : Hello} (honest : Honest other (.hello hello)) :
    (transport.receive position (.hello hello)).EndAt sock { peer with id := other, state := .ready } := by
  have outcome := outcome_receive paired found honest
  generalize transport.receive position (.hello hello) = after at outcome ⊢
  cases outcome with
  | ignored plain => exact absurd rfl (plain hello)
  | early plain => exact absurd rfl (plain hello)
  | lost _ loses => exact absurd kept loses
  | up => exact endAt.update_self found rfl
  | won _ existing elsewhere found' =>
    have different : _ ≠ some sock := fun same =>
      elsewhere (position_unique (paired.oneSocket sock) found' (decide_eq_true same) found
        (decide_eq_true endAt.2))
    have found'' : (transport.dropPeer _).peers[position]? = some peer :=
      (List.getElem?_modify_ne _ _ elsewhere).trans found
    exact (endAt.update_of_ne found' different _).update_self found'' rfl

/-- Ends that are there after a message were there before it. -/
theorem of_receive (paired : transport.Paired own other)
    (found : transport.peers[position]? = some talking) {msg : Message} (honest : Honest other msg)
    (endAt : (transport.receive position msg).EndAt sock peer) :
    ∃ peer', transport.EndAt sock peer' ∧ peer'.outbound = peer.outbound := by
  have outcome := outcome_receive paired found honest
  generalize transport.receive position msg = after at outcome endAt
  cases outcome with
  | ignored => exact ⟨peer, endAt, rfl⟩
  | early => exact of_update endAt found rfl nofun
  | lost => exact of_update endAt found rfl nofun
  | up => exact of_update endAt found rfl id
  | won _ existing elsewhere found' =>
    have found'' : (transport.dropPeer _).peers[position]? = some talking :=
      (List.getElem?_modify_ne _ _ elsewhere).trans found
    obtain ⟨peer', before, same⟩ := of_update endAt found'' rfl id
    obtain ⟨peer'', earlier, same'⟩ := of_update before found' rfl nofun
    exact ⟨peer'', earlier, same'.trans same⟩

end EndAt

end Transport

end Sententia.Net
