/-
**Two nodes that dial each other.** Each connection carries a `Hello` in both directions, and a node with two
of them drops the one that was not dialled by the node with the lower id. Dials, accepts, messages and closes
come in any order, and a dropped connection is dialled again.

* `Leads` — how far the connection dialled by the lower node has got, at both ends.
* `Settled` — the invariant; it says that such a connection is never dropped, so that there is one only.
* `tiebreak_keeps_low` — the lower node's connection survives and, once greeted in both directions, is the
  only one that is up at either node.
-/

import Mathlib.Logic.Function.Basic
import Sententia.Library.Transition
import Sententia.Net.Transport

namespace Sententia.Net

open Library

/-- The node with the lower id, and the other. -/
inductive Party
  | low
  | high
deriving Repr, DecidableEq

def Party.other : Party → Party
  | .low => .high
  | .high => .low

@[simp] theorem Party.other_other (party : Party) : party.other.other = party := by
  cases party <;> rfl

theorem Party.other_ne (party : Party) : party.other ≠ party := by
  cases party <;> nofun

theorem Party.high_ne_low : Party.high ≠ .low := nofun

theorem Party.eq_of_same_side (party : Party) {first second : Party} (same : first = party ↔ second = party) :
    first = second := by
  cases party <;> cases first <;> cases second <;> simp_all

/-- Connections are numbered in the order of their dials. -/
structure Connection where
  dialler : Party
  accepted : Bool := false
  /-- What has been sent to a party and not been read. -/
  inbox : Party → List Message := fun _ => []
  /-- Whether a party has read a `Hello`. -/
  greeted : Party → Bool := fun _ => false

structure Pair where
  node : Party → Transport
  connections : List Connection

/-- The steps are rounds of the loops of `poll`, and `send`. -/
inductive PairLabel
  | beginPoll (party : Party)
  | dial (party : Party) (position : Nat)
  | connected (party : Party) (sock : Nat)
  | accept (party : Party) (sock : Nat)
  | read (party : Party) (sock : Nat)
  | closed (party : Party) (sock : Nat)
  | retire (party : Party)
  | send (party : Party) (msg : Message)

def Connection.push (connection : Connection) (party : Party) (msg : Message) : Connection :=
  { connection with inbox := Function.update connection.inbox party (connection.inbox party ++ [msg]) }

def isHello : Message → Bool
  | .hello _ => true
  | _ => false

/-- The first message of the inbox has been read. -/
def Connection.pop (connection : Connection) (party : Party) (msg : Message) (rest : List Message) :
    Connection :=
  { connection with
    inbox := Function.update connection.inbox party rest
    greeted := Function.update connection.greeted party (connection.greeted party || isHello msg) }

namespace Pair

/-- Each node has the other as its configured peer. -/
def fresh (ids : Party → NodeId) (ports : Party → UInt16) (delays : Party → Int) : Pair where
  node := fun party => Transport.addPeer
    { selfId := ids party, listenPort := ports party, reconnectDelay := delays party } (ids party.other)
  connections := []

def setNode (pair : Pair) (party : Party) (transport : Transport) : Pair :=
  { pair with node := Function.update pair.node party transport }

def setConnection (pair : Pair) (sock : Nat) (connection : Connection) : Pair :=
  { pair with connections := pair.connections.set sock connection }

/-- The peer of a node on a socket, with its position. -/
def peerOn (pair : Pair) (party : Party) (sock : Nat) : Option (Nat × Peer) :=
  ((pair.node party).peers.findIdx? fun peer => peer.sock = some sock).bind fun position =>
    (pair.node party).peers[position]?.map fun peer => (position, peer)

/-- A party holds its end of a connection, or has not accepted it yet. -/
def openAt (pair : Pair) (party : Party) (sock : Nat) (connection : Connection) : Bool :=
  (pair.peerOn party sock).isSome || (connection.dialler ≠ party && !connection.accepted)

/-- A close may overtake messages that have not been read: closing a socket with unread data resets the
connection. -/
def step (pair : Pair) : PairLabel → Option Pair
  | .beginPoll party => some (pair.setNode party (pair.node party).beginPoll)
  | .dial party position =>
    if (pair.node party).due position then
      some
        { node := Function.update pair.node party
            ((pair.node party).dial position (some pair.connections.length))
          connections := pair.connections ++ [{ dialler := party }] }
    else none
  | .connected party sock =>
    match pair.peerOn party sock, pair.connections[sock]? with
    | some (position, peer), some connection =>
      if peer.state = .connecting then
        some ((pair.setNode party ((pair.node party).connected position)).setConnection sock
          (connection.push party.other (pair.node party).hello))
      else none
    | _, _ => none
  | .accept party sock =>
    match pair.connections[sock]? with
    | none => none
    | some connection =>
      if connection.dialler = party.other ∧ connection.accepted = false then
        some ((pair.setNode party ((pair.node party).acceptPending sock)).setConnection sock
          { connection.push party.other (pair.node party).hello with accepted := true })
      else none
  | .read party sock =>
    match pair.peerOn party sock, pair.connections[sock]? with
    | some (position, peer), some connection =>
      match connection.inbox party with
      | [] => none
      | msg :: rest =>
        if peer.state ≠ .connecting then
          some ((pair.setNode party ((pair.node party).receive position msg)).setConnection sock
            (connection.pop party msg rest))
        else none
    | _, _ => none
  | .closed party sock =>
    match pair.peerOn party sock, pair.connections[sock]? with
    | some (position, _), some connection =>
      if pair.openAt party.other sock connection then none
      else some (pair.setNode party ((pair.node party).dropPeer position))
    | _, _ => none
  | .retire party => some (pair.setNode party (pair.node party).retire)
  | .send party msg =>
    if isHello msg then none
    else
      match (pair.node party).findPeer (pair.node party.other).selfId with
      | none => none
      | some position =>
        match (pair.node party).peers[position]? with
        | none => none
        | some peer =>
          match peer.sock with
          | none => none
          | some sock =>
            match pair.connections[sock]? with
            | none => none
            | some connection => some (pair.setConnection sock (connection.push party.other msg))

/-! ### What holds of a pair -/

/-- The connections of a node to the other that are up. -/
def readySocks (pair : Pair) (party : Party) : List (Option Nat) :=
  ((pair.node party).peers.filter fun peer =>
    peer.state = .ready ∧ peer.id = (pair.node party.other).selfId).map (·.sock)

/-- Both ends of a connection have read a `Hello`. -/
def Completed (connection : Connection) : Prop := ∀ party, connection.greeted party = true

/-- No connect, accept, message or close is pending. -/
def Quiet (pair : Pair) : Prop :=
  ∀ party sock, pair.step (.connected party sock) = none ∧ pair.step (.accept party sock) = none ∧
    pair.step (.read party sock) = none ∧ pair.step (.closed party sock) = none

/-- Neither node has dropped its end of a connection. -/
def Held (pair : Pair) (sock : Nat) (connection : Connection) : Prop :=
  ∀ party, pair.openAt party sock connection = true

/-- **What the tiebreak is for.** -/
structure Agreed (pair : Pair) : Prop where
  oneReady : ∀ party, (pair.readySocks party).length ≤ 1
  held : ∀ sock connection, pair.connections[sock]? = some connection → connection.dialler = .low →
    pair.Held sock connection
  only : ∀ sock connection, pair.connections[sock]? = some connection → connection.dialler = .low →
    Completed connection → ∀ party, pair.readySocks party = [some sock]
  completed : pair.Quiet → ∀ (sock : Nat) (connection : Connection),
    pair.connections[sock]? = some connection → connection.dialler = .low → Completed connection

/-! ### The invariant -/

/-- Nothing has been sent to a party yet. -/
def Awaits (connection : Connection) (party : Party) : Prop :=
  connection.inbox party = [] ∧ connection.greeted party = false

/-- A party has read a `Hello`, or it is the next message it will read. -/
def Greets (connection : Connection) (party : Party) : Prop :=
  connection.greeted party = true ∨ ∃ hello rest, connection.inbox party = .hello hello :: rest

/-- **How far a connection dialled by the lower node has got.** Its dialler holds one end; the other end is
waiting to be accepted, or held by a peer of the higher node. A peer that has read its `Hello` is up. -/
structure Leads (pair : Pair) (sock : Nat) (connection : Connection) : Prop where
  low : ∃ peer, (pair.node .low).EndAt sock peer ∧ (connection.greeted .low = true → peer.state = .ready) ∧
    (peer.state = .connecting ∧ Awaits connection .high ∨ peer.state ≠ .connecting ∧ Greets connection .high)
  high : connection.accepted = false ∧ Awaits connection .low ∧ connection.greeted .high = false ∨
    connection.accepted = true ∧ Greets connection .low ∧ ∃ peer, (pair.node .high).EndAt sock peer ∧
      (connection.greeted .high = true → peer.state = .ready)

/-- The invariant of one connection. -/
structure Intact (pair : Pair) (ids : Party → NodeId) (sock : Nat) : Prop where
  wired : ∀ party peer, (pair.node party).EndAt sock peer →
    ∃ connection, pair.connections[sock]? = some connection ∧
      (peer.outbound = true ↔ connection.dialler = party) ∧
        (peer.outbound = false → connection.accepted = true)
  honest : ∀ connection, pair.connections[sock]? = some connection →
    ∀ party, ∀ msg ∈ connection.inbox party, Honest (ids party.other) msg
  leads : ∀ connection, pair.connections[sock]? = some connection → connection.dialler = .low →
    pair.Leads sock connection

structure Settled (pair : Pair) (ids : Party → NodeId) : Prop where
  node : ∀ party, (pair.node party).Paired (ids party) (ids party.other)
  intact : ∀ sock, pair.Intact ids sock

variable {pair : Pair} {ids : Party → NodeId} {party : Party} {sock sock' position : Nat} {peer : Peer}
  {connection : Connection}

theorem settled_fresh (ids : Party → NodeId) (ports : Party → UInt16) (delays : Party → Int) :
    (fresh ids ports delays).Settled ids where
  node := fun party => Transport.paired_addPeer (ids party) (ids party.other) (ports party) (delays party)
  intact := by
    intro sock
    refine ⟨?_, nofun, nofun⟩
    rintro party peer ⟨member, held⟩
    obtain rfl := List.mem_singleton.mp member
    cases held

theorem peerOn_eq_some (found : pair.peerOn party sock = some (position, peer)) :
    (pair.node party).peers[position]? = some peer ∧ peer.sock = some sock := by
  obtain ⟨first, searched, found⟩ := Option.bind_eq_some_iff.mp found
  obtain ⟨peer', there, same⟩ := Option.map_eq_some_iff.mp found
  cases same
  obtain ⟨inside, passes, _⟩ := List.findIdx?_eq_some_iff_getElem.mp searched
  rw [List.getElem?_eq_getElem inside] at there
  cases there
  exact ⟨List.getElem?_eq_getElem inside, of_decide_eq_true passes⟩

theorem peerOn_isSome (endAt : (pair.node party).EndAt sock peer) :
    ∃ position peer', pair.peerOn party sock = some (position, peer') := by
  unfold peerOn
  cases searched : (pair.node party).peers.findIdx? fun peer => peer.sock = some sock with
  | none =>
    have absent := List.findIdx?_eq_none_iff.mp searched peer endAt.1
    exact absurd endAt.2 (of_decide_eq_false absent)
  | some position =>
    obtain ⟨inside, _⟩ := List.findIdx?_eq_some_iff_getElem.mp searched
    refine ⟨position, (pair.node party).peers[position], ?_⟩
    rw [Option.bind_some, List.getElem?_eq_getElem inside, Option.map_some]

/-- **What a step does not touch.** -/
theorem Intact.frame (intact : pair.Intact ids sock) {pair' : Pair}
    (same : pair'.connections[sock]? = pair.connections[sock]?)
    (ends : ∀ party peer', (pair'.node party).EndAt sock peer' →
      ∃ peer, (pair.node party).EndAt sock peer ∧ peer.outbound = peer'.outbound)
    (kept : ∀ connection, pair.connections[sock]? = some connection → connection.dialler = .low →
      ∀ party peer, (pair.node party).EndAt sock peer → (pair'.node party).EndAt sock peer) :
    pair'.Intact ids sock where
  wired := by
    intro party peer' endAt
    obtain ⟨peer, before, direction⟩ := ends party peer' endAt
    rw [same, ← direction]
    exact intact.wired party peer before
  honest := by
    rw [same]
    exact intact.honest
  leads := by
    rw [same]
    intro connection found dialled
    have stays := kept connection found dialled
    obtain ⟨⟨peer, endAt, rest⟩, high⟩ := intact.leads connection found dialled
    refine ⟨⟨peer, stays _ _ endAt, rest⟩, high.imp_right ?_⟩
    rintro ⟨accepted, greets, peer', endAt', up⟩
    exact ⟨accepted, greets, peer', stays _ _ endAt', up⟩

/-- A step of one node, on connections that it does not change. -/
theorem Intact.setNode (intact : pair.Intact ids sock) {transport : Transport} {pair' : Pair}
    (node : pair'.node = Function.update pair.node party transport)
    (same : pair'.connections[sock]? = pair.connections[sock]?)
    (ends : ∀ peer', transport.EndAt sock peer' →
      ∃ peer, (pair.node party).EndAt sock peer ∧ peer.outbound = peer'.outbound)
    (kept : ∀ connection, pair.connections[sock]? = some connection → connection.dialler = .low →
      ∀ peer, (pair.node party).EndAt sock peer → transport.EndAt sock peer) :
    pair'.Intact ids sock := by
  refine intact.frame same ?_ ?_
  · intro party' peer' endAt
    rw [node] at endAt
    by_cases here : party' = party
    · subst here
      rw [Function.update_self] at endAt
      exact ends peer' endAt
    · rw [Function.update_of_ne here] at endAt
      exact ⟨peer', endAt, rfl⟩
  · intro connection found dialled party' peer endAt
    rw [node]
    by_cases here : party' = party
    · subst here
      rw [Function.update_self]
      exact kept connection found dialled peer endAt
    · rw [Function.update_of_ne here]
      exact endAt

theorem Settled.of_step (settled : pair.Settled ids) {transport : Transport} {pair' : Pair}
    (node : pair'.node = Function.update pair.node party transport)
    (paired : transport.Paired (ids party) (ids party.other)) (intact : ∀ sock, pair'.Intact ids sock) :
    pair'.Settled ids where
  node := by
    intro party'
    rw [node]
    by_cases here : party' = party
    · subst here
      rw [Function.update_self]
      exact paired
    · rw [Function.update_of_ne here]
      exact settled.node party'
  intact := intact

/-! ### Steps that leave the connections alone -/

theorem Settled.beginPoll (settled : pair.Settled ids) (party : Party) :
    (pair.setNode party (pair.node party).beginPoll).Settled ids := by
  have old := settled.node party
  refine settled.of_step rfl ⟨old.selfId, old.proper, old.oneOutbound, old.oneReady, old.oneSocket⟩ fun sock => ?_
  refine (settled.intact sock).setNode rfl rfl ?_ ?_
  · exact fun peer' endAt => ⟨peer', endAt, rfl⟩
  · exact fun _ _ _ peer endAt => endAt

theorem Settled.retire (settled : pair.Settled ids) (party : Party) :
    (pair.setNode party (pair.node party).retire).Settled ids := by
  refine settled.of_step rfl (settled.node party).retire fun sock => ?_
  refine (settled.intact sock).setNode rfl rfl ?_ ?_
  · exact fun peer' endAt => ⟨peer', ⟨(List.mem_filter.mp endAt.1).1, endAt.2⟩, rfl⟩
  · exact fun _ _ _ peer endAt => endAt.retire (settled.node party)

/-! ### The connection dialled by the lower node -/

/-- It goes in the direction that the tiebreak keeps. -/
theorem Settled.kept_direction (settled : pair.Settled ids) (less : ids .low < ids .high)
    (found : pair.connections[sock]? = some connection) (dialled : connection.dialler = .low)
    (endAt : (pair.node party).EndAt sock peer) :
    peer.outbound = decide (ids party < ids party.other) := by
  obtain ⟨connection', found', direction, _⟩ := (settled.intact sock).wired party peer endAt
  rw [found] at found'
  cases found'
  rw [dialled] at direction
  cases party with
  | low =>
    rw [direction.mpr rfl]
    exact (decide_eq_true less).symm
  | high =>
    have inbound : peer.outbound = false := Bool.eq_false_iff.mpr (direction.not.mpr nofun)
    rw [inbound]
    exact (decide_eq_false (UInt32.lt_asymm less)).symm

/-- There is only one. -/
theorem Settled.leads_unique (settled : pair.Settled ids) {connection' : Connection}
    (found : pair.connections[sock]? = some connection) (dialled : connection.dialler = .low)
    (found' : pair.connections[sock']? = some connection') (dialled' : connection'.dialler = .low) :
    sock = sock' := by
  obtain ⟨peer, endAt, _⟩ := ((settled.intact sock).leads connection found dialled).low
  obtain ⟨peer', endAt', _⟩ := ((settled.intact sock').leads connection' found' dialled').low
  have outbound : ∀ {sock : Nat} {peer : Peer} {connection : Connection},
      pair.connections[sock]? = some connection → connection.dialler = .low →
        (pair.node .low).EndAt sock peer → peer.outbound = true := by
    intro sock peer connection found dialled endAt
    obtain ⟨connection', found', direction, _⟩ := (settled.intact sock).wired .low peer endAt
    rw [found] at found'
    cases found'
    exact direction.mpr dialled
  have same := entry_unique (settled.node .low).oneOutbound.le endAt.1 (outbound found dialled endAt) endAt'.1
    (outbound found' dialled' endAt')
  subst same
  exact Option.some.inj (endAt.2.symm.trans endAt'.2)

/-- **Neither end is dropped.** -/
theorem Leads.held (leads : pair.Leads sock connection) (dialled : connection.dialler = .low) :
    pair.Held sock connection := by
  have holds : ∀ {party : Party} {peer : Peer}, (pair.node party).EndAt sock peer →
      pair.openAt party sock connection = true := by
    intro party peer endAt
    obtain ⟨position, peer', found⟩ := peerOn_isSome endAt
    unfold openAt
    rw [found]
    rfl
  intro party
  cases party with
  | low =>
    obtain ⟨peer, endAt, _⟩ := leads.low
    exact holds endAt
  | high =>
    rcases leads.high with ⟨waiting, _⟩ | ⟨_, _, peer, endAt, _⟩
    · unfold openAt
      rw [dialled, waiting]
      exact Bool.or_true _
    · exact holds endAt

theorem Settled.closed (settled : pair.Settled ids) (found : pair.peerOn party sock = some (position, peer))
    (there : pair.connections[sock]? = some connection)
    (gone : pair.openAt party.other sock connection = false) :
    (pair.setNode party ((pair.node party).dropPeer position)).Settled ids := by
  obtain ⟨found, held⟩ := peerOn_eq_some found
  refine settled.of_step rfl ((settled.node party).dropPeer found) fun sock' => ?_
  refine (settled.intact sock').setNode rfl rfl ?_ ?_
  · exact fun peer' endAt => endAt.of_update found rfl nofun
  · intro connection' found' dialled peer' endAt
    refine endAt.update_of_ne found ?_ _
    intro same
    obtain rfl := Option.some.inj (held.symm.trans same)
    rw [there] at found'
    cases found'
    have stillOpen := ((settled.intact sock).leads connection there dialled).held dialled party.other
    rw [gone] at stillOpen
    cases stillOpen

/-! ### Dialling -/

theorem due_eq_true {transport : Transport} (due : transport.due position = true) :
    ∃ peer, transport.peers[position]? = some peer ∧ peer.outbound = true ∧ peer.state = .disconnected := by
  unfold Transport.due at due
  split at due
  · cases due
  · next peer found =>
    obtain ⟨outbound, down, _⟩ := of_decide_eq_true due
    exact ⟨peer, found, outbound, down⟩

/-- No node holds an end of a connection that has not been dialled. -/
theorem Settled.not_endAt_length (settled : pair.Settled ids) :
    ¬ (pair.node party).EndAt pair.connections.length peer := by
  intro endAt
  obtain ⟨connection, found, _⟩ := (settled.intact _).wired party peer endAt
  rw [List.getElem?_eq_none (Nat.le_refl _)] at found
  cases found

theorem Settled.dial (settled : pair.Settled ids) (due : (pair.node party).due position = true) :
    Settled { node := Function.update pair.node party
                ((pair.node party).dial position (some pair.connections.length))
              connections := pair.connections ++ [{ dialler := party }] } ids := by
  obtain ⟨peer, found, outbound, down⟩ := due_eq_true due
  have unused : peer.sock = none :=
    ((settled.node party).proper peer (List.mem_of_getElem? found)).closed.mpr down
  have fresh : ∀ peer ∈ (pair.node party).peers, peer.sock ≠ some pair.connections.length :=
    fun peer member held => settled.not_endAt_length ⟨member, held⟩
  refine settled.of_step rfl ((settled.node party).dial due fresh) fun sock => ?_
  by_cases here : sock = pair.connections.length
  · subst here
    have new : (pair.connections ++ [{ dialler := party }])[pair.connections.length]? =
        some { dialler := party } := List.getElem?_concat_length
    refine ⟨?_, ?_, ?_⟩
    · intro party' peer' endAt
      by_cases mine : party' = party
      · subst mine
        simp only [Function.update_self] at endAt
        rcases mem_modify _ found endAt.1 with old | rfl
        · exact absurd ⟨old, endAt.2⟩ settled.not_endAt_length
        · exact ⟨_, new, iff_of_true outbound rfl, fun inbound => absurd (outbound.symm.trans inbound) nofun⟩
      · simp only [Function.update_of_ne mine] at endAt
        exact absurd endAt settled.not_endAt_length
    · intro connection found' party' msg member
      rw [new] at found'
      cases found'
      cases member
    · intro connection found' dialled
      rw [new] at found'
      cases found'
      obtain rfl : party = .low := dialled
      refine ⟨⟨{ peer with state := .connecting, sock := some pair.connections.length }, ?_, nofun, ?_⟩, ?_⟩
      · simp only [Function.update_self]
        exact ⟨change_mem_modify _ found, rfl⟩
      · exact Or.inl ⟨rfl, rfl, rfl⟩
      · exact Or.inl ⟨rfl, ⟨rfl, rfl⟩, rfl⟩
  · have same : (pair.connections ++ [{ dialler := party }])[sock]? = pair.connections[sock]? := by
      rcases Nat.lt_or_gt_of_ne here with inside | outside
      · exact List.getElem?_append_left inside
      · rw [List.getElem?_eq_none outside.le, List.getElem?_eq_none]
        rw [List.length_append]
        exact outside
    refine (settled.intact sock).setNode rfl same ?_ ?_
    · intro peer' endAt
      refine Transport.EndAt.of_update endAt found rfl fun taken => ?_
      exact absurd (Option.some.inj taken).symm here
    · intro _ _ _ peer' endAt
      refine Transport.EndAt.update_of_ne endAt found ?_ _
      rw [unused]
      nofun

/-! ### Messages on a connection -/

theorem honest_hello {transport : Transport} {own other : NodeId} (paired : transport.Paired own other) :
    Honest own transport.hello := by
  rintro hello same
  cases same
  exact ⟨paired.selfId, rfl⟩

theorem mem_push {msg msg' : Message} {party' : Party}
    (member : msg' ∈ (connection.push party msg).inbox party') :
    msg' ∈ connection.inbox party' ∨ (party' = party ∧ msg' = msg) := by
  by_cases here : party' = party
  · subst here
    simp only [Connection.push, Function.update_self] at member
    rcases List.mem_append.mp member with old | new
    · exact Or.inl old
    · exact Or.inr ⟨rfl, List.mem_singleton.mp new⟩
  · simp only [Connection.push, Function.update_of_ne here] at member
    exact Or.inl member

theorem Greets.push {msg : Message} {party' : Party} (greets : Greets connection party') :
    Greets (connection.push party msg) party' := by
  refine greets.imp_right ?_
  rintro ⟨hello, rest, first⟩
  by_cases here : party' = party
  · subst here
    refine ⟨hello, rest ++ [msg], ?_⟩
    simp only [Connection.push, Function.update_self, first, List.cons_append]
  · refine ⟨hello, rest, ?_⟩
    simp only [Connection.push, Function.update_of_ne here, first]

theorem Awaits.push_other {msg : Message} {party' : Party} (awaits : Awaits connection party')
    (different : party' ≠ party) : Awaits (connection.push party msg) party' := by
  refine ⟨?_, awaits.2⟩
  simp only [Connection.push, Function.update_of_ne different]
  exact awaits.1

/-- The first message is a `Hello`. -/
theorem Awaits.greets {transport : Transport} (awaits : Awaits connection party) :
    Greets (connection.push party transport.hello) party := by
  have only : (connection.push party transport.hello).inbox party = [transport.hello] := by
    simp only [Connection.push, Function.update_self, awaits.1, List.nil_append]
  exact Or.inr ⟨_, [], only⟩

/-- **A step of one node that changes one connection.** -/
theorem Settled.of_talk (settled : pair.Settled ids) (there : pair.connections[sock]? = some connection)
    {transport : Transport} {connection' : Connection}
    (paired : transport.Paired (ids party) (ids party.other))
    (dialler : connection'.dialler = connection.dialler)
    (accepted : connection.accepted = true → connection'.accepted = true)
    (mine : ∀ peer', transport.EndAt sock peer' → (peer'.outbound = true ↔ connection.dialler = party) ∧
      (peer'.outbound = false → connection'.accepted = true))
    (ends : ∀ sock', sock' ≠ sock → ∀ peer', transport.EndAt sock' peer' →
      ∃ peer, (pair.node party).EndAt sock' peer ∧ peer.outbound = peer'.outbound)
    (kept : ∀ sock', sock' ≠ sock → ∀ connection, pair.connections[sock']? = some connection →
      connection.dialler = .low → ∀ peer, (pair.node party).EndAt sock' peer → transport.EndAt sock' peer)
    (honest : ∀ party', ∀ msg ∈ connection'.inbox party', Honest (ids party'.other) msg)
    (leads : connection.dialler = .low →
      Leads ((pair.setNode party transport).setConnection sock connection') sock connection') :
    ((pair.setNode party transport).setConnection sock connection').Settled ids := by
  refine settled.of_step rfl paired fun sock' => ?_
  by_cases here : sock' = sock
  · subst here
    have now : (pair.connections.set sock' connection')[sock']? = some connection' :=
      List.getElem?_set_self (List.getElem?_eq_some_iff.mp there).1
    refine ⟨?_, ?_, ?_⟩
    · intro party' peer' endAt
      refine ⟨connection', now, ?_⟩
      rw [dialler]
      by_cases own : party' = party
      · subst own
        simp only [setConnection, setNode, Function.update_self] at endAt
        exact mine peer' endAt
      · simp only [setConnection, setNode, Function.update_of_ne own] at endAt
        obtain ⟨old, found, direction, inbound⟩ := (settled.intact sock').wired party' peer' endAt
        rw [there] at found
        cases found
        exact ⟨direction, fun inwards => accepted (inbound inwards)⟩
    · intro connection'' found
      cases now.symm.trans found
      exact honest
    · intro connection'' found dialled
      cases now.symm.trans found
      exact leads (dialler ▸ dialled)
  · exact (settled.intact sock').setNode rfl (List.getElem?_set_ne (Ne.symm here)) (ends sock' here)
      (kept sock' here)

/-- The end of a connection that was there before. -/
theorem Intact.wired_of_end (intact : pair.Intact ids sock)
    (there : pair.connections[sock]? = some connection) {peer' : Peer}
    (before : ∃ peer, (pair.node party).EndAt sock peer ∧ peer.outbound = peer'.outbound) :
    (peer'.outbound = true ↔ connection.dialler = party) ∧
      (peer'.outbound = false → connection.accepted = true) := by
  obtain ⟨peer, endAt, direction⟩ := before
  obtain ⟨connection', found, wired⟩ := intact.wired party peer endAt
  rw [there] at found
  cases found
  rw [← direction]
  exact wired

/-- The peer that a low-dialled connection has at a node. -/
theorem node_setNode_self (transport : Transport) (connection' : Connection) :
    ((pair.setNode party transport).setConnection sock connection').node party = transport :=
  Function.update_self ..

theorem node_setNode_of_ne {party' : Party} (different : party' ≠ party) (transport : Transport)
    (connection' : Connection) :
    ((pair.setNode party transport).setConnection sock connection').node party' = pair.node party' :=
  Function.update_of_ne different ..

theorem Settled.connected (settled : pair.Settled ids)
    (found : pair.peerOn party sock = some (position, peer))
    (there : pair.connections[sock]? = some connection) (dialling : peer.state = .connecting) :
    ((pair.setNode party ((pair.node party).connected position)).setConnection sock
      (connection.push party.other (pair.node party).hello)).Settled ids := by
  obtain ⟨found, held⟩ := peerOn_eq_some found
  have endAt : (pair.node party).EndAt sock peer := ⟨List.mem_of_getElem? found, held⟩
  have paired := settled.node party
  have outbound : peer.outbound = true := by
    by_contra inbound
    exact (paired.proper peer endAt.1).inbound (Bool.eq_false_iff.mpr inbound) dialling
  have live : peer.sock ≠ none := held ▸ nofun
  have ends : ∀ sock' peer', ((pair.node party).connected position).EndAt sock' peer' →
      ∃ peer, (pair.node party).EndAt sock' peer ∧ peer.outbound = peer'.outbound :=
    fun sock' peer' endAt => endAt.of_update found rfl id
  refine settled.of_talk there (paired.connected found live) rfl id ?_ ?_ ?_ ?_ ?_
  · exact fun peer' endAt' => (settled.intact sock).wired_of_end there (ends sock peer' endAt')
  · exact fun sock' _ => ends sock'
  · intro sock' different _ _ _ peer' endAt'
    refine endAt'.update_of_ne found ?_ _
    rw [held]
    exact fun same => different (Option.some.inj same).symm
  · intro party' msg member
    rcases mem_push member with old | ⟨rfl, rfl⟩
    · exact (settled.intact sock).honest connection there party' msg old
    · rw [Party.other_other]
      exact honest_hello paired
  · intro dialled
    have direction := (settled.intact sock).wired_of_end there ⟨peer, endAt, rfl⟩
    obtain rfl : Party.low = party := dialled.symm.trans (direction.1.mp outbound)
    obtain ⟨⟨peer', endAt', up, phase⟩, high⟩ := (settled.intact sock).leads connection there dialled
    obtain rfl := endAt.unique paired endAt'
    have ungreeted : ¬ connection.greeted .low = true := fun greeted =>
      absurd (dialling.symm.trans (up greeted)) nofun
    have awaits : Awaits connection .high := by
      rcases phase with ⟨_, awaits⟩ | ⟨connected, _⟩
      · exact awaits
      · exact absurd dialling connected
    refine ⟨⟨{ peer with state := .handshaking }, ?_, ?_, Or.inr ⟨nofun, awaits.greets⟩⟩, ?_⟩
    · rw [node_setNode_self]
      exact ⟨change_mem_modify _ found, held⟩
    · exact fun greeted => absurd greeted ungreeted
    · rw [node_setNode_of_ne Party.high_ne_low]
      refine high.imp ?_ ?_
      · rintro ⟨waiting, nothing, unread⟩
        exact ⟨waiting, nothing.push_other nofun, unread⟩
      · rintro ⟨accepted, greets, rest⟩
        exact ⟨accepted, greets.push, rest⟩

theorem Settled.accept (settled : pair.Settled ids) (there : pair.connections[sock]? = some connection)
    (dialler : connection.dialler = party.other) (waiting : connection.accepted = false) :
    ((pair.setNode party ((pair.node party).acceptPending sock)).setConnection sock
      { connection.push party.other (pair.node party).hello with accepted := true }).Settled ids := by
  have paired := settled.node party
  have fresh : ∀ peer ∈ (pair.node party).peers, peer.sock ≠ some sock := by
    intro peer member held
    obtain ⟨direction, inbound⟩ := (settled.intact sock).wired_of_end there ⟨peer, ⟨member, held⟩, rfl⟩
    have outbound : ¬ peer.outbound = true := by
      rw [direction, dialler]
      exact party.other_ne
    rw [inbound (Bool.eq_false_iff.mpr outbound)] at waiting
    cases waiting
  refine settled.of_talk there (paired.acceptPending fresh) rfl (fun _ => rfl) ?_ ?_ ?_ ?_ ?_
  · rintro peer' ⟨member, held⟩
    rcases List.mem_append.mp member with old | new
    · exact absurd held (fresh peer' old)
    · obtain rfl := List.mem_singleton.mp new
      refine ⟨iff_of_false nofun ?_, fun _ => rfl⟩
      rw [dialler]
      exact party.other_ne
  · rintro sock' different peer' ⟨member, held⟩
    rcases List.mem_append.mp member with old | new
    · exact ⟨peer', ⟨old, held⟩, rfl⟩
    · obtain rfl := List.mem_singleton.mp new
      exact absurd (Option.some.inj held).symm different
  · exact fun sock' _ _ _ _ peer' endAt => endAt.acceptPending sock
  · intro party' msg member
    rcases mem_push member with old | ⟨rfl, rfl⟩
    · exact (settled.intact sock).honest connection there party' msg old
    · rw [Party.other_other]
      exact honest_hello paired
  · intro dialled
    obtain rfl : party = .high := by
      rw [← Party.other_other party, ← dialler, dialled]
      rfl
    obtain ⟨⟨peer, endAt, up, phase⟩, high⟩ := (settled.intact sock).leads connection there dialled
    rcases high with ⟨_, awaits, unread⟩ | ⟨accepted, _⟩
    · refine ⟨⟨peer, ?_, up, ?_⟩, Or.inr ⟨rfl, awaits.greets, ?_⟩⟩
      · rw [node_setNode_of_ne Party.high_ne_low.symm]
        exact endAt
      · refine phase.imp ?_ ?_
        · rintro ⟨dialling, nothing⟩
          have still : Awaits (connection.push .low (pair.node .high).hello) .high :=
            nothing.push_other Party.high_ne_low
          exact ⟨dialling, still⟩
        · rintro ⟨connected, greets⟩
          have still : Greets (connection.push .low (pair.node .high).hello) .high := greets.push
          exact ⟨connected, still⟩
      · rw [node_setNode_self]
        exact ⟨_, Transport.EndAt.acceptPending_self sock, fun greeted => absurd (greeted.symm.trans unread) nofun⟩
    · rw [waiting] at accepted
      cases accepted

theorem mem_pop {msg msg' : Message} {rest : List Message} {party' : Party}
    (first : connection.inbox party = msg :: rest)
    (member : msg' ∈ (connection.pop party msg rest).inbox party') : msg' ∈ connection.inbox party' := by
  by_cases here : party' = party
  · subst here
    simp only [Connection.pop, Function.update_self] at member
    rw [first]
    exact List.mem_cons_of_mem _ member
  · simp only [Connection.pop, Function.update_of_ne here] at member
    exact member

theorem Greets.pop_other {msg : Message} {rest : List Message} {party' : Party}
    (greets : Greets connection party') (different : party' ≠ party) :
    Greets (connection.pop party msg rest) party' := by
  unfold Greets Connection.pop
  simp only [Function.update_of_ne different]
  exact greets

theorem greeted_pop_other {msg : Message} {rest : List Message} {party' : Party}
    (different : party' ≠ party) :
    (connection.pop party msg rest).greeted party' = connection.greeted party' :=
  Function.update_of_ne different ..

/-- **A peer of the lower node's connection that reads a message is up afterwards**: the first message it
reads is a `Hello`. -/
theorem Settled.up_after_read (settled : pair.Settled ids) (less : ids .low < ids .high)
    (found : (pair.node party).peers[position]? = some peer) (endAt : (pair.node party).EndAt sock peer)
    (there : pair.connections[sock]? = some connection) (dialled : connection.dialler = .low)
    (up : connection.greeted party = true → peer.state = .ready) (greets : Greets connection party)
    {msg : Message} {rest : List Message} (first : connection.inbox party = msg :: rest) :
    (connection.pop party msg rest).greeted party = true ∧
      ∃ peer', ((pair.node party).receive position msg).EndAt sock peer' ∧ peer'.state = .ready := by
  have honest : Honest (ids party.other) msg :=
    (settled.intact sock).honest connection there party msg (first ▸ List.mem_cons_self)
  have kept := settled.kept_direction less there dialled endAt
  have marked : (connection.pop party msg rest).greeted party = (connection.greeted party || isHello msg) :=
    Function.update_self ..
  by_cases greeting : ∃ hello, msg = .hello hello
  · obtain ⟨hello, rfl⟩ := greeting
    refine ⟨marked.trans (Bool.or_true _), _, endAt.receive_hello (settled.node party) kept found honest, rfl⟩
  · have plain : ∀ hello, msg ≠ .hello hello := fun hello same => greeting ⟨hello, same⟩
    have before : connection.greeted party = true := by
      rcases greets with greeted | ⟨hello, later, next⟩
      · exact greeted
      · rw [first] at next
        exact absurd (List.cons.inj next).1 (plain hello)
    have unchanged : (pair.node party).receive position msg = pair.node party := by
      have outcome := Transport.outcome_receive (settled.node party) found honest
      generalize (pair.node party).receive position msg = after at outcome ⊢
      cases outcome with
      | ignored => rfl
      | early _ down => exact absurd (up before) down
      | up greets => exact absurd greets (plain _)
      | won greets => exact absurd greets (plain _)
      | lost greets => exact absurd greets (plain _)
    rw [marked, before, unchanged]
    exact ⟨Bool.true_or _, peer, endAt, up before⟩

theorem Settled.read (settled : pair.Settled ids) (less : ids .low < ids .high)
    (found : pair.peerOn party sock = some (position, peer))
    (there : pair.connections[sock]? = some connection) {msg : Message} {rest : List Message}
    (first : connection.inbox party = msg :: rest) (connected : peer.state ≠ .connecting) :
    ((pair.setNode party ((pair.node party).receive position msg)).setConnection sock
      (connection.pop party msg rest)).Settled ids := by
  obtain ⟨found, held⟩ := peerOn_eq_some found
  have endAt : (pair.node party).EndAt sock peer := ⟨List.mem_of_getElem? found, held⟩
  have paired := settled.node party
  have honest : Honest (ids party.other) msg :=
    (settled.intact sock).honest connection there party msg (first ▸ List.mem_cons_self)
  have live : peer.sock ≠ none := held ▸ nofun
  have wired := (settled.intact sock).wired_of_end there ⟨peer, endAt, rfl⟩
  refine settled.of_talk there (paired.receive found live honest) rfl id ?_ ?_ ?_ ?_ ?_
  · exact fun peer' endAt' => (settled.intact sock).wired_of_end there (endAt'.of_receive paired found honest)
  · exact fun sock' _ peer' endAt' => endAt'.of_receive paired found honest
  · intro sock' different connection' there' dialled' peer' endAt'
    have wired' := (settled.intact sock').wired_of_end there' ⟨peer', endAt', rfl⟩
    refine endAt'.receive_of_ne paired (settled.kept_direction less there' dialled' endAt') found ?_ ?_ honest
    · rw [held]
      exact fun same => different (Option.some.inj same).symm
    · -- two connections in the same direction would both be dialled by the lower node
      intro direction
      have dialled : connection.dialler = .low := by
        refine Party.eq_of_same_side party ?_
        rw [← wired.1, direction, wired'.1, dialled']
      exact different (settled.leads_unique there' dialled' there dialled)
  · exact fun party' msg' member => (settled.intact sock).honest connection there party' msg' (mem_pop first member)
  · intro dialled
    obtain ⟨⟨peer', endAt', up, phase⟩, high⟩ := (settled.intact sock).leads connection there dialled
    cases party with
    | low =>
      obtain rfl := endAt.unique paired endAt'
      have greets : Greets connection .high := by
        rcases phase with ⟨dialling, _⟩ | ⟨_, greets⟩
        · exact absurd dialling connected
        · exact greets
      rcases high with ⟨_, nothing, _⟩ | ⟨accepted, greets', peer'', endAt'', up''⟩
      · rw [nothing.1] at first
        cases first
      · obtain ⟨greeted, after, endAfter, ready⟩ :=
          settled.up_after_read less found endAt there dialled up greets' first
        refine ⟨⟨after, ?_, fun _ => ready, Or.inr ⟨?_, greets.pop_other Party.high_ne_low⟩⟩,
          Or.inr ⟨accepted, Or.inl greeted, peer'', ?_, ?_⟩⟩
        · rw [node_setNode_self]
          exact endAfter
        · rw [ready]
          nofun
        · rw [node_setNode_of_ne Party.high_ne_low]
          exact endAt''
        · rw [greeted_pop_other Party.high_ne_low]
          exact up''
    | high =>
      have inbound : peer.outbound = false :=
        Bool.eq_false_iff.mpr (wired.1.not.mpr (dialled ▸ Party.high_ne_low.symm))
      rcases high with ⟨waiting, _⟩ | ⟨accepted, greets', peer'', endAt'', up''⟩
      · exact absurd (waiting.symm.trans (wired.2 inbound)) nofun
      · obtain rfl := endAt.unique paired endAt''
        rcases phase with ⟨_, nothing⟩ | ⟨connected', greets⟩
        · rw [nothing.1] at first
          cases first
        · obtain ⟨greeted, after, endAfter, ready⟩ :=
            settled.up_after_read less found endAt there dialled up'' greets first
          refine ⟨⟨peer', ?_, ?_, Or.inr ⟨connected', Or.inl greeted⟩⟩,
            Or.inr ⟨accepted, greets'.pop_other Party.high_ne_low.symm, after, ?_, fun _ => ready⟩⟩
          · rw [node_setNode_of_ne Party.high_ne_low.symm]
            exact endAt'
          · rw [greeted_pop_other Party.high_ne_low.symm]
            exact up
          · rw [node_setNode_self]
            exact endAfter

/-- `send` to a node that is connected. -/
theorem Settled.send (settled : pair.Settled ids) (endAt : (pair.node party).EndAt sock peer)
    (ready : peer.state = .ready) (there : pair.connections[sock]? = some connection) {msg : Message}
    (plain : isHello msg = false) :
    (pair.setConnection sock (connection.push party.other msg)).Settled ids := by
  have same : pair = pair.setNode party (pair.node party) := by
    unfold setNode
    rw [Function.update_eq_self]
  have wired := (settled.intact sock).wired_of_end there ⟨peer, endAt, rfl⟩
  have paired := settled.node party
  rw [same]
  refine settled.of_talk there paired rfl id ?_ ?_ ?_ ?_ ?_
  · exact fun peer' endAt' => (settled.intact sock).wired_of_end there ⟨peer', endAt', rfl⟩
  · exact fun sock' _ peer' endAt' => ⟨peer', endAt', rfl⟩
  · exact fun sock' _ _ _ _ peer' endAt' => endAt'
  · intro party' msg' member
    rcases mem_push member with old | ⟨rfl, rfl⟩
    · exact (settled.intact sock).honest connection there party' msg' old
    · rintro hello rfl
      cases plain
  · intro dialled
    rw [← same]
    obtain ⟨⟨peer', endAt', up, phase⟩, high⟩ := (settled.intact sock).leads connection there dialled
    cases party with
    | low =>
      obtain rfl := endAt.unique paired endAt'
      have greets : Greets connection .high := by
        rcases phase with ⟨dialling, _⟩ | ⟨_, greets⟩
        · exact absurd (dialling.symm.trans ready) nofun
        · exact greets
      refine ⟨⟨peer, endAt, up, Or.inr ⟨?_, greets.push⟩⟩, high.imp ?_ ?_⟩
      · rw [ready]
        nofun
      · rintro ⟨waiting, nothing, unread⟩
        exact ⟨waiting, nothing.push_other Party.high_ne_low.symm, unread⟩
      · rintro ⟨accepted, greets', held⟩
        exact ⟨accepted, greets'.push, held⟩
    | high =>
      have inbound : peer.outbound = false :=
        Bool.eq_false_iff.mpr (wired.1.not.mpr (dialled ▸ Party.high_ne_low.symm))
      refine ⟨⟨peer', endAt', up, phase.imp ?_ ?_⟩, ?_⟩
      · rintro ⟨dialling, nothing⟩
        exact ⟨dialling, nothing.push_other Party.high_ne_low⟩
      · rintro ⟨connected, greets⟩
        exact ⟨connected, greets.push⟩
      · rcases high with ⟨waiting, _⟩ | ⟨accepted, greets', held⟩
        · exact absurd (waiting.symm.trans (wired.2 inbound)) nofun
        · exact Or.inr ⟨accepted, greets'.push, held⟩

/-- **The step lemma.** -/
theorem Settled.step (settled : pair.Settled ids) (less : ids .low < ids .high) {label : PairLabel}
    {next : Pair} (stepped : pair.step label = some next) : next.Settled ids := by
  cases label with
  | beginPoll party =>
    cases stepped
    exact settled.beginPoll party
  | retire party =>
    cases stepped
    exact settled.retire party
  | dial party position =>
    obtain ⟨due, stepped⟩ := Option.ite_none_right_eq_some.mp stepped
    cases stepped
    exact settled.dial due
  | connected party sock =>
    simp only [Pair.step] at stepped
    split at stepped
    · next position peer connection found there =>
      obtain ⟨dialling, stepped⟩ := Option.ite_none_right_eq_some.mp stepped
      cases stepped
      exact settled.connected found there dialling
    · cases stepped
  | accept party sock =>
    simp only [Pair.step] at stepped
    split at stepped
    · cases stepped
    · next connection there =>
      obtain ⟨⟨dialler, waiting⟩, stepped⟩ := Option.ite_none_right_eq_some.mp stepped
      cases stepped
      exact settled.accept there dialler waiting
  | read party sock =>
    simp only [Pair.step] at stepped
    split at stepped
    · next position peer connection found there =>
      split at stepped
      · cases stepped
      · next msg rest first =>
        obtain ⟨connected, stepped⟩ := Option.ite_none_right_eq_some.mp stepped
        cases stepped
        exact settled.read less found there first connected
    · cases stepped
  | closed party sock =>
    simp only [Pair.step] at stepped
    split at stepped
    · next position peer connection found there =>
      obtain ⟨gone, stepped⟩ := Option.ite_none_left_eq_some.mp stepped
      cases stepped
      exact settled.closed found there (Bool.eq_false_iff.mpr gone)
    · cases stepped
  | send party msg =>
    simp only [Pair.step] at stepped
    obtain ⟨plain, stepped⟩ := Option.ite_none_left_eq_some.mp stepped
    split at stepped
    · cases stepped
    · next position existing =>
      obtain ⟨peer, found, ready⟩ := Transport.getElem?_of_findPeer existing
      rw [found] at stepped
      dsimp only at stepped
      split at stepped
      · cases stepped
      · next sock held =>
        split at stepped
        · cases stepped
        · next connection there =>
          cases stepped
          exact settled.send ⟨List.mem_of_getElem? found, held⟩ ready there (Bool.eq_false_iff.mpr plain)

/-! ### What the invariant gives -/

/-- The peers that are up are few, and each is the other node. -/
theorem Settled.readySocks_eq (settled : pair.Settled ids) (party : Party) :
    pair.readySocks party =
      ((pair.node party).peers.filter fun peer => peer.state = .ready).map (·.sock) := by
  unfold readySocks
  congr 1
  refine List.filter_congr fun peer member => ?_
  have identified := ((settled.node party).proper peer member).identified
  rw [(settled.node party.other).selfId]
  exact decide_eq_decide.mpr ⟨And.left, fun ready => ⟨ready, identified ready⟩⟩

theorem Settled.length_readySocks (settled : pair.Settled ids) (party : Party) :
    (pair.readySocks party).length ≤ 1 := by
  rw [settled.readySocks_eq, List.length_map, ← List.countP_eq_length_filter]
  exact (settled.node party).oneReady

/-- A peer that is up is the only one. -/
theorem Settled.readySocks_of_endAt (settled : pair.Settled ids) (endAt : (pair.node party).EndAt sock peer)
    (ready : peer.state = .ready) : pair.readySocks party = [some sock] := by
  have member : some sock ∈ pair.readySocks party := by
    rw [settled.readySocks_eq, ← endAt.2]
    exact List.mem_map_of_mem (List.mem_filter.mpr ⟨endAt.1, decide_eq_true ready⟩)
  have one := settled.length_readySocks party
  generalize pair.readySocks party = socks at member one
  match socks, member, one with
  | [only], member, _ => rw [List.mem_singleton.mp member]

/-- **Greeted in both directions, the lower node's connection is up at both nodes.** -/
theorem Settled.only (settled : pair.Settled ids) (there : pair.connections[sock]? = some connection)
    (dialled : connection.dialler = .low) (completed : Completed connection) (party : Party) :
    pair.readySocks party = [some sock] := by
  obtain ⟨⟨peer, endAt, up, _⟩, high⟩ := (settled.intact sock).leads connection there dialled
  cases party with
  | low => exact settled.readySocks_of_endAt endAt (up (completed .low))
  | high =>
    rcases high with ⟨_, _, unread⟩ | ⟨_, _, peer', endAt', up'⟩
    · exact absurd ((completed .high).symm.trans unread) nofun
    · exact settled.readySocks_of_endAt endAt' (up' (completed .high))

/-- The step that a party can take on a connection that it has not been greeted on. -/
theorem read_of_greets (endAt : (pair.node party).EndAt sock peer)
    (paired : (pair.node party).Paired (ids party) (ids party.other))
    (there : pair.connections[sock]? = some connection) (connected : peer.state ≠ .connecting)
    (greets : Greets connection party) (nothing : pair.step (.read party sock) = none) :
    connection.greeted party = true := by
  rcases greets with greeted | ⟨hello, rest, first⟩
  · exact greeted
  · obtain ⟨position, peer', found⟩ := peerOn_isSome endAt
    obtain ⟨found', held⟩ := peerOn_eq_some found
    have same : peer' = peer :=
      Transport.EndAt.unique paired ⟨List.mem_of_getElem? found', held⟩ endAt
    subst same
    simp only [Pair.step, found, there, first, if_pos connected] at nothing
    cases nothing

/-- **When nothing is pending the lower node's connection has been greeted in both directions.** -/
theorem Settled.completed (settled : pair.Settled ids) (quiet : pair.Quiet)
    (there : pair.connections[sock]? = some connection) (dialled : connection.dialler = .low) :
    Completed connection := by
  obtain ⟨⟨peer, endAt, _, phase⟩, high⟩ := (settled.intact sock).leads connection there dialled
  have connected : peer.state ≠ .connecting := by
    intro dialling
    obtain ⟨position, peer', found⟩ := peerOn_isSome endAt
    obtain ⟨found', held⟩ := peerOn_eq_some found
    obtain rfl : peer' = peer :=
      Transport.EndAt.unique (settled.node .low) ⟨List.mem_of_getElem? found', held⟩ endAt
    have nothing := (quiet .low sock).1
    simp only [Pair.step, found, there, if_pos dialling] at nothing
    cases nothing
  have accepted : connection.accepted ≠ false := by
    intro waiting
    have dialler : connection.dialler = Party.high.other := dialled
    have nothing := (quiet .high sock).2.1
    simp only [Pair.step, there, if_pos (And.intro dialler waiting)] at nothing
    cases nothing
  have greets : Greets connection .high := by
    rcases phase with ⟨dialling, _⟩ | ⟨_, greets⟩
    · exact absurd dialling connected
    · exact greets
  rcases high with ⟨waiting, _⟩ | ⟨_, greets', peer', endAt', _⟩
  · exact absurd waiting accepted
  · have inbound : peer'.outbound = false := by
      have wired := (settled.intact sock).wired_of_end there ⟨peer', endAt', rfl⟩
      exact Bool.eq_false_iff.mpr (wired.1.not.mpr (dialled ▸ Party.high_ne_low.symm))
    have connected' := ((settled.node .high).proper peer' endAt'.1).inbound inbound
    intro party
    cases party with
    | low => exact read_of_greets endAt (settled.node .low) there connected greets' (quiet .low sock).2.2.1
    | high => exact read_of_greets endAt' (settled.node .high) there connected' greets (quiet .high sock).2.2.1

theorem Settled.agreed (settled : pair.Settled ids) : pair.Agreed where
  oneReady := settled.length_readySocks
  held := fun sock connection there dialled =>
    ((settled.intact sock).leads connection there dialled).held dialled
  only := fun _ _ there dialled completed => settled.only there dialled completed
  completed := fun quiet _ _ there dialled => settled.completed quiet there dialled

end Pair

/-- **The tiebreak.** Two nodes that dial each other, in every interleaving of dials and redials, accepts,
messages and closes: at any time each has at most one connection to the other that is up; the connection
dialled by the lower node is never dropped; once both ends have read a `Hello` on it, and in any case when
nothing is pending, it is the one that is up at both. -/
theorem tiebreak_keeps_low (ids : Party → NodeId) (less : ids .low < ids .high) (ports : Party → UInt16)
    (delays : Party → Int) (labels : List PairLabel) :
    Always Pair.step Pair.Agreed (Pair.fresh ids ports delays) labels :=
  always_of_guarded (fun pair => pair.Settled ids) (fun settled _ stepped => settled.step less stepped)
    Pair.Settled.agreed (Pair.settled_fresh ids ports delays) (guarded_true _ labels)

/-- Both dial; the connection dialled by the higher node is up at both before a `Hello` arrives on the
other. -/
theorem tiebreak_keeps_low_mutual :
    let ids : Party → NodeId := fun party => if party = .low then 1 else 2
    let labels : List PairLabel :=
      [.dial .low 0, .dial .high 0, .connected .low 0, .connected .high 1, .accept .low 1, .accept .high 0,
        .read .low 1, .read .high 1, .read .high 0, .read .low 0, .retire .low]
    Always Pair.step Pair.Agreed (Pair.fresh ids (fun _ => 9000) fun _ => 10) labels ∧
      (run Pair.step (Pair.fresh ids (fun _ => 9000) fun _ => 10) labels).map
        (fun pair => (pair.readySocks .low, pair.readySocks .high)) = some ([some 0], [some 0]) := by
  intro ids labels
  exact ⟨tiebreak_keeps_low ids (by decide) _ _ labels, by decide⟩

end Sententia.Net
