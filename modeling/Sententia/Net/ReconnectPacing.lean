/-
**How often a configured peer is dialled.** The cycle of the next dial is kept in a list beside the list of
peers. Inbound peers that have dropped are erased wherever they stand, but the list of cycles is only cut
off at its end; so a configured peer that stands behind one of them takes over the cycle of another peer.

A configured peer is known by how many were added before it. `Paced` keeps the dials that have been made.
No dial comes before its time in the runs in which no retirement gives a configured peer an earlier cycle
than its own and no cycle leaves the range of `int` (`spaced_of_careful`).
-/

import Sententia.Library.Parallel
import Sententia.Library.Transition
import Sententia.Net.Transport

namespace Sententia.Net

open Library

namespace Transport

/-! ### Polling -/

/-- What happens to a transport. A poll cycle is `startPoll`, and if anything is ready its events and
`retire`; peers are added and dropped between the cycles as well. -/
inductive Move
  | addPeer (id : NodeId)
  | accept (sock : Nat)
  | connected (position : Nat)
  | drop (position : Nat)
  | receive (position : Nat) (msg : Message)
  /-- `connects` gives the socket that dialling the peer at a position gets, if it gets one. -/
  | startPoll (connects : Nat → Option Nat)
  | retire

/-- A transport and the dials it has made, newest first: the number of the configured peer, and the cycle. -/
structure Paced where
  transport : Transport
  dials : List (Nat × Int) := []

def flags (transport : Transport) : List Bool := transport.peers.map (·.outbound)

/-- One round of the loop at the start of `poll`. -/
def dialNext (connects : Nat → Option Nat) (paced : Paced) (position : Nat) : Paced :=
  if paced.transport.due position then
    { transport := paced.transport.dial position (connects position)
      dials := (rank paced.transport.flags position, paced.transport.cycle) :: paced.dials }
  else paced

def startPoll (connects : Nat → Option Nat) (paced : Paced) : Paced :=
  (List.range paced.transport.peers.length).foldl (dialNext connects)
    { paced with transport := paced.transport.beginPoll }

def step (paced : Paced) : Move → Option Paced
  | .addPeer id => some { paced with transport := paced.transport.addPeer id }
  | .accept sock => some { paced with transport := paced.transport.acceptPending sock }
  | .connected position => some { paced with transport := paced.transport.connected position }
  | .drop position => some { paced with transport := paced.transport.dropPeer position }
  | .receive position msg => some { paced with transport := paced.transport.receive position msg }
  | .startPoll connects => some (startPoll connects paced)
  | .retire => some { paced with transport := paced.transport.retire }

/-- Two dials of one configured peer are at least `delay` cycles apart. -/
def Spaced (delay : Int) (dials : List (Nat × Int)) : Prop :=
  dials.Pairwise fun later earlier => later.1 = earlier.1 → earlier.2 + delay ≤ later.2

/-- The peer is not retired. -/
def stays (peer : Peer) : Bool := ¬ (peer.outbound = false ∧ peer.state = .disconnected)

/-- The retirement moves no configured peer to a place with an earlier cycle. -/
def KeepsWaiting (transport : Transport) : Prop :=
  ∀ position < transport.peers.length, transport.flags[position]? = some true →
    transport.nextConnectCycle.getD position 0 ≤
      transport.nextConnectCycle.getD ((transport.peers.take position).countP stays) 0

instance (transport : Transport) : Decidable transport.KeepsWaiting :=
  inferInstanceAs (Decidable (∀ position < _, _))

/-- The number of the next cycle and that of a dial after it are within the range of `int`. -/
def KeepsCount (transport : Transport) : Prop :=
  FitsInt (transport.cycle + 1) ∧ FitsInt (transport.cycle + 1 + transport.reconnectDelay)

instance (transport : Transport) : Decidable transport.KeepsCount :=
  inferInstanceAs (Decidable (_ ∧ _))

def Careful (paced : Paced) : Move → Prop
  | .startPoll _ => paced.transport.KeepsCount
  | .retire => paced.transport.KeepsWaiting
  | _ => True

instance (paced : Paced) (move : Move) : Decidable (Careful paced move) :=
  match move with
  | .retire => inferInstanceAs (Decidable (KeepsWaiting _))
  | .addPeer _ => .isTrue trivial
  | .accept _ => .isTrue trivial
  | .connected _ => .isTrue trivial
  | .drop _ => .isTrue trivial
  | .receive _ _ => .isTrue trivial
  | .startPoll _ => inferInstanceAs (Decidable (KeepsCount _))

/-! ### What the moves leave alone -/

/-- The peers keep their directions, and the transport its cycles. -/
structure SameCycles (transport transport' : Transport) : Prop where
  flags : transport'.flags = transport.flags
  slots : transport'.nextConnectCycle = transport.nextConnectCycle
  delay : transport'.reconnectDelay = transport.reconnectDelay
  cycle : transport'.cycle = transport.cycle

variable {transport : Transport}

theorem SameCycles.refl (transport : Transport) : SameCycles transport transport := ⟨rfl, rfl, rfl, rfl⟩

theorem SameCycles.trans {transport' transport'' : Transport} (first : SameCycles transport transport')
    (second : SameCycles transport' transport'') : SameCycles transport transport'' :=
  ⟨second.flags.trans first.flags, second.slots.trans first.slots, second.delay.trans first.delay,
    second.cycle.trans first.cycle⟩

theorem sameCycles_updatePeer (transport : Transport) (position : Nat) {change : Peer → Peer}
    (direction : ∀ peer, (change peer).outbound = peer.outbound) :
    SameCycles transport (transport.updatePeer position change) := by
  refine ⟨List.ext_getElem? fun place => ?_, rfl, rfl, rfl⟩
  show ((transport.peers.modify position change).map (·.outbound))[place]? =
    (transport.peers.map (·.outbound))[place]?
  rw [List.getElem?_map, List.getElem?_map, List.getElem?_modify]
  cases transport.peers[place]? with
  | none => rfl
  | some peer =>
    by_cases here : position = place
    · simp [here, direction]
    · simp [here]

theorem sameCycles_startConnect (transport : Transport) (position : Nat) (sock : Option Nat) :
    SameCycles transport (transport.startConnect position sock) :=
  sameCycles_updatePeer transport position fun peer => by cases sock <;> rfl

theorem sameCycles_dropPeer (transport : Transport) (position : Nat) :
    SameCycles transport (transport.dropPeer position) :=
  sameCycles_updatePeer transport position fun _ => rfl

theorem sameCycles_peerUp (transport : Transport) (position : Nat) (id : NodeId) :
    SameCycles transport (transport.peerUp position id) :=
  sameCycles_updatePeer transport position fun _ => rfl

theorem sameCycles_receiveHello (transport : Transport) (position : Nat) (peer : Peer) (hello : Hello) :
    SameCycles transport (transport.receiveHello position peer hello) := by
  unfold receiveHello
  cases transport.findPeer hello.nodeId with
  | none =>
    dsimp only
    split_ifs
    · exact sameCycles_dropPeer transport position
    · exact sameCycles_dropPeer transport position
    · exact sameCycles_peerUp transport position _
  | some existing =>
    dsimp only
    split_ifs
    · exact sameCycles_dropPeer transport position
    · exact sameCycles_dropPeer transport position
    · exact sameCycles_peerUp transport position _
    · exact (sameCycles_dropPeer transport existing).trans (sameCycles_peerUp _ position _)
    · exact sameCycles_dropPeer transport position

theorem sameCycles_receive (transport : Transport) (position : Nat) (msg : Message) :
    SameCycles transport (transport.receive position msg) := by
  unfold receive
  cases transport.peers[position]? with
  | none => exact .refl transport
  | some peer =>
    dsimp only
    split
    · exact sameCycles_receiveHello transport position peer _
    · split_ifs
      · exact sameCycles_dropPeer transport position
      · exact .refl transport

/-! ### The invariant -/

/-- The cycles of the configured peers, in the order in which they were added. -/
def slots (transport : Transport) : List Int := selected transport.flags transport.nextConnectCycle

/-- Every configured peer that has been dialled waits for `delay` cycles from its last dial on. -/
structure Paces (delay : Int) (paced : Paced) : Prop where
  parallel : paced.transport.flags.length = paced.transport.nextConnectCycle.length
  configured : paced.transport.reconnectDelay = delay
  past : ∀ dial ∈ paced.dials, dial.2 ≤ paced.transport.cycle
  waits : ∀ dial ∈ paced.dials, ∃ slot, paced.transport.slots[dial.1]? = some slot ∧ dial.2 + delay ≤ slot
  spaced : Spaced delay paced.dials

namespace Paces

variable {delay : Int} {paced : Paced}

theorem of_sameCycles (paces : Paces delay paced) {transport : Transport}
    (same : SameCycles paced.transport transport) : Paces delay { paced with transport } where
  parallel := by
    show transport.flags.length = transport.nextConnectCycle.length
    rw [same.flags, same.slots]
    exact paces.parallel
  configured := same.delay.trans paces.configured
  past dial member := same.cycle.symm ▸ paces.past dial member
  waits dial member := by
    show ∃ slot, (selected transport.flags transport.nextConnectCycle)[dial.1]? = some slot ∧ _
    rw [same.flags, same.slots]
    exact paces.waits dial member
  spaced := paces.spaced

/-- A peer joins at the end, with the cycle zero. -/
theorem grow (paces : Paces delay paced) {transport : Transport} (flag : Bool)
    (flags : transport.flags = paced.transport.flags ++ [flag])
    (slots : transport.nextConnectCycle = paced.transport.nextConnectCycle ++ [0])
    (sameDelay : transport.reconnectDelay = paced.transport.reconnectDelay)
    (sameCycle : transport.cycle = paced.transport.cycle) : Paces delay { paced with transport } where
  parallel := by
    show transport.flags.length = transport.nextConnectCycle.length
    rw [flags, slots, List.length_append, List.length_append]
    exact congrArg (· + 1) paces.parallel
  configured := sameDelay.trans paces.configured
  past dial member := sameCycle.symm ▸ paces.past dial member
  waits dial member := by
    obtain ⟨slot, found, waits⟩ := paces.waits dial member
    refine ⟨slot, ?_, waits⟩
    show (selected transport.flags transport.nextConnectCycle)[dial.1]? = some slot
    rw [flags, slots, selected_append paces.parallel]
    exact (List.getElem?_append_left (List.getElem?_eq_some_iff.mp found).1).trans found
  spaced := paces.spaced

/-- **A dial** comes when its time has come, and sets the next one. -/
theorem dialNext (paces : Paces delay paced) (fits : FitsInt (paced.transport.cycle + delay))
    (connects : Nat → Option Nat) (position : Nat) : Paces delay (dialNext connects paced position) := by
  unfold Transport.dialNext
  split_ifs with due
  · unfold Transport.due at due
    cases found : paced.transport.peers[position]? with
    | none =>
      rw [found] at due
      cases due
    | some peer =>
      rw [found] at due
      obtain ⟨outbound, _, come, _⟩ := of_decide_eq_true due
      have isSet : paced.transport.flags[position]? = some true := by
        unfold flags
        rw [List.getElem?_map, found]
        exact congrArg some outbound
      have inside : position < paced.transport.nextConnectCycle.length := by
        rw [← paces.parallel]
        exact (List.getElem?_eq_some_iff.mp isSet).1
      -- The cycle of the configured peer that is dialled.
      obtain ⟨slot, isSlot⟩ : ∃ slot, paced.transport.nextConnectCycle[position]? = some slot :=
        ⟨_, List.getElem?_eq_getElem inside⟩
      have ranked : paced.transport.slots[rank paced.transport.flags position]? = some slot :=
        (getElem?_selected paces.parallel isSet).trans isSlot
      have reached : slot ≤ paced.transport.cycle := by
        rw [List.getD_eq_getElem?_getD, isSlot] at come
        exact come
      have earlier : ∀ dial ∈ paced.dials, dial.1 = rank paced.transport.flags position →
          dial.2 + delay ≤ paced.transport.cycle := by
        intro dial member same
        obtain ⟨slot', found', waits⟩ := paces.waits dial member
        rw [same, ranked] at found'
        obtain rfl := Option.some.inj found'
        exact waits.trans reached
      have same := sameCycles_startConnect
        { paced.transport with
          nextConnectCycle := paced.transport.nextConnectCycle.set position
            (addInt paced.transport.cycle paced.transport.reconnectDelay) } position (connects position)
      have slots' : (paced.transport.dial position (connects position)).slots =
          paced.transport.slots.set (rank paced.transport.flags position) (paced.transport.cycle + delay) := by
        unfold slots dial
        rw [same.flags, same.slots, paces.configured, addInt_eq fits]
        exact selected_set paces.parallel isSet _
      refine ⟨?_, same.delay.trans paces.configured, ?_, ?_, ?_⟩
      · show (paced.transport.dial position (connects position)).flags.length =
          (paced.transport.dial position (connects position)).nextConnectCycle.length
        unfold dial
        rw [same.flags, same.slots, List.length_set]
        exact paces.parallel
      · intro dial member
        show dial.2 ≤ (paced.transport.dial position (connects position)).cycle
        unfold Transport.dial
        rw [same.cycle]
        rcases List.mem_cons.mp member with rfl | old
        · exact Int.le_refl _
        · exact paces.past dial old
      · intro dial member
        show ∃ slot, (paced.transport.dial position (connects position)).slots[dial.1]? = some slot ∧ _
        rw [slots']
        have room := (List.getElem?_eq_some_iff.mp ranked).1
        rcases List.mem_cons.mp member with rfl | old
        · exact ⟨_, List.getElem?_set_self room, Int.le_refl _⟩
        · by_cases again : dial.1 = rank paced.transport.flags position
          · rw [again]
            refine ⟨_, List.getElem?_set_self room, ?_⟩
            have past := paces.past dial old
            omega
          · obtain ⟨slot', found', waits⟩ := paces.waits dial old
            exact ⟨slot', (List.getElem?_set_ne (Ne.symm again)).trans found', waits⟩
      · exact List.pairwise_cons.mpr ⟨fun dial member same => earlier dial member same.symm, paces.spaced⟩
  · exact paces

/-- Dialling does not move the cycle. -/
theorem cycle_dialNext (connects : Nat → Option Nat) (paced : Paced) (position : Nat) :
    (Transport.dialNext connects paced position).transport.cycle = paced.transport.cycle := by
  unfold Transport.dialNext
  split_ifs
  · exact (sameCycles_startConnect _ position (connects position)).cycle
  · rfl

theorem startPoll (paces : Paces delay paced) (counts : paced.transport.KeepsCount)
    (connects : Nat → Option Nat) : Paces delay (startPoll connects paced) := by
  have cycle : paced.transport.beginPoll.cycle = paced.transport.cycle + 1 := addInt_eq counts.1
  have begun : Paces delay { paced with transport := paced.transport.beginPoll } :=
    { paces with
      past := fun dial member => by
        have past := paces.past dial member
        show dial.2 ≤ paced.transport.beginPoll.cycle
        omega }
  have fits : FitsInt (paced.transport.beginPoll.cycle + delay) := by
    rw [cycle, ← paces.configured]
    exact counts.2
  unfold Transport.startPoll
  replace fits : FitsInt (({ paced with transport := paced.transport.beginPoll } : Paced).transport.cycle +
    delay) := fits
  generalize ({ paced with transport := paced.transport.beginPoll } : Paced) = begun' at begun fits
  generalize List.range paced.transport.peers.length = positions
  clear cycle
  induction positions generalizing begun' with
  | nil => exact begun
  | cons position rest ih =>
    exact ih _ (begun.dialNext fits connects position) ((cycle_dialNext connects begun' position).symm ▸ fits)

/-- **A retirement** that lets every configured peer wait at least as long. -/
theorem retire (paces : Paces delay paced) (keeps : paced.transport.KeepsWaiting) :
    Paces delay { paced with transport := paced.transport.retire } := by
  have parallel : paced.transport.peers.length = paced.transport.nextConnectCycle.length := by
    have parallel := paces.parallel
    unfold flags at parallel
    rwa [List.length_map] at parallel
  have fewer : (paced.transport.peers.filter stays).length ≤ paced.transport.nextConnectCycle.length :=
    (List.length_filter_le _ _).trans (Nat.le_of_eq parallel)
  have cut : paced.transport.retire.nextConnectCycle =
      paced.transport.nextConnectCycle.take (paced.transport.peers.filter stays).length :=
    List.take_append_of_le_length fewer
  have later : List.Forall₂ (· ≤ ·) paced.transport.slots paced.transport.retire.slots := by
    unfold slots
    rw [cut]
    refine selected_filter_le (fun peer outbound => ?_) parallel fewer ?_
    · exact decide_eq_true fun gone => by rw [outbound] at gone; cases gone.1
    · intro position peer found outbound own isOwn other isOther
      have isSet : paced.transport.flags[position]? = some true := by
        unfold flags
        rw [List.getElem?_map, found]
        exact congrArg some outbound
      have waits := keeps position (List.getElem?_eq_some_iff.mp found).1 isSet
      have there : paced.transport.nextConnectCycle[(paced.transport.peers.take position).countP stays]? =
          some other := isOther
      rwa [List.getD_eq_getElem?_getD, List.getD_eq_getElem?_getD, isOwn, there] at waits
  refine ⟨?_, paces.configured, paces.past, fun dial member => ?_, paces.spaced⟩
  · show paced.transport.retire.flags.length = paced.transport.retire.nextConnectCycle.length
    rw [cut, List.length_take, Nat.min_eq_left fewer]
    exact List.length_map _
  · obtain ⟨slot, found, waits⟩ := paces.waits dial member
    obtain ⟨inside, rfl⟩ := List.getElem?_eq_some_iff.mp found
    have inside' : dial.1 < paced.transport.retire.slots.length := later.length_eq ▸ inside
    exact ⟨_, List.getElem?_eq_getElem inside', waits.trans (later.get inside inside')⟩

/-- **Every move** that lets the configured peers wait. -/
theorem step (paces : Paces delay paced) {move : Move} {next : Paced} (careful : Careful paced move)
    (moved : Transport.step paced move = some next) : Paces delay next := by
  cases move
  all_goals obtain rfl := Option.some.inj moved
  case addPeer id => exact paces.grow true (List.map_append ..) rfl rfl rfl
  case accept sock => exact paces.grow false (List.map_append ..) rfl rfl rfl
  case connected position => exact paces.of_sameCycles (sameCycles_updatePeer _ position fun _ => rfl)
  case drop position => exact paces.of_sameCycles (sameCycles_dropPeer _ position)
  case receive position msg => exact paces.of_sameCycles (sameCycles_receive _ position msg)
  case startPoll connects => exact paces.startPoll careful connects
  case retire => exact paces.retire careful

end Paces

/-- **Reconnect pacing**, in every run in which no retirement gives a configured peer an earlier cycle and the
cycles stay within the range of `int`. -/
theorem spaced_of_careful (selfId : NodeId) (listenPort : UInt16) (delay : Int) (moves : List Move)
    (careful : Guarded step Careful { transport := { selfId, listenPort, reconnectDelay := delay } } moves) :
    Always step (fun paced => Spaced delay paced.dials)
      { transport := { selfId, listenPort, reconnectDelay := delay } } moves :=
  always_of_guarded (Paces delay) (fun paces careful moved => paces.step careful moved) Paces.spaced
    ⟨rfl, rfl, fun _ member => absurd member List.not_mem_nil, fun _ member => absurd member List.not_mem_nil,
      List.Pairwise.nil⟩ careful

/-- Node 1 is configured before anybody connects. It cannot be reached; an inbound connection comes and
goes. -/
def configuredFirst : List Move :=
  [.addPeer 1, .startPoll fun _ => none, .accept 5, .retire, .startPoll fun _ => none, .drop 1, .retire,
    .startPoll fun _ => none]

theorem spaced_of_careful_configuredFirst :
    Guarded step Careful { transport := { selfId := 2, listenPort := 7102, reconnectDelay := 2 } }
        configuredFirst ∧
      Always step (fun paced => Spaced 2 paced.dials)
        { transport := { selfId := 2, listenPort := 7102, reconnectDelay := 2 } } configuredFirst ∧
      (run step { transport := { selfId := 2, listenPort := 7102, reconnectDelay := 2 } }
        configuredFirst).map (·.dials) = some [(0, 3), (0, 1)] :=
  have careful : Guarded step Careful
      { transport := { selfId := 2, listenPort := 7102, reconnectDelay := 2 } } configuredFirst := by
    decide +kernel
  ⟨careful, spaced_of_careful 2 7102 2 configuredFirst careful, by decide +kernel⟩

/-- The same, but the node is configured after the inbound connection has come. -/
def configuredLate : List Move :=
  [.startPoll fun _ => none, .accept 5, .retire, .addPeer 1, .startPoll fun _ => none, .drop 0, .retire,
    .startPoll fun _ => none]

/-- It is dialled in two cycles, one after the other. -/
theorem redialled_early :
    ∃ paced, run step { transport := { selfId := 2, listenPort := 7102, reconnectDelay := 10 } }
        configuredLate = some paced ∧ paced.dials = [(0, 3), (0, 2)] ∧ ¬ Spaced 10 paced.dials := by
  have ran : (run step { transport := { selfId := 2, listenPort := 7102, reconnectDelay := 10 } }
      configuredLate).map (·.dials) = some [(0, 3), (0, 2)] := by decide +kernel
  obtain ⟨paced, reached, dials⟩ := Option.map_eq_some_iff.mp ran
  refine ⟨paced, reached, dials, fun spaced => ?_⟩
  rw [dials] at spaced
  have apart := (List.pairwise_cons.mp spaced).1 (0, 2) List.mem_cons_self rfl
  exact absurd apart (by decide)

end Transport

end Sententia.Net
