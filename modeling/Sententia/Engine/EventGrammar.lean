/-
**The grammar of the event stream.** One command emits one group of events, and the groups of a run stand
one after another: every event carries the ordinal of its command and its own, neither with a gap.

* `Shape` — what a group can look like, given the states around its command.
* `apply_shape`, `apply_stamped` — one command.
* `applyAll_grammatical` — every run of a fresh engine.
-/

import Sententia.Engine.Refinement

namespace Sententia

open Library

/-! ### What the fills of an order add up to -/

/-- The exact sum of a list of quantities. -/
def totalQuantity : List Quantity → Nat
  | [] => 0
  | quantity :: rest => quantity.toNat + totalQuantity rest

@[simp] theorem totalQuantity_nil : totalQuantity [] = 0 := rfl

@[simp] theorem totalQuantity_cons (quantity : Quantity) (rest : List Quantity) :
    totalQuantity (quantity :: rest) = quantity.toNat + totalQuantity rest := rfl

@[simp] theorem totalQuantity_append (first second : List Quantity) :
    totalQuantity (first ++ second) = totalQuantity first + totalQuantity second := by
  induction first with
  | nil => exact (Nat.zero_add _).symm
  | cons quantity rest ih => rw [List.cons_append, totalQuantity_cons, ih, totalQuantity_cons, Nat.add_assoc]

/-- **Nothing is lost in a sweep**: the fills and the residual are the incoming quantity. -/
theorem fillGreedy_total (quantity : Quantity) (orders : List RestingOrder) :
    totalQuantity ((fillGreedy quantity orders).1.map Prod.snd) + (fillGreedy quantity orders).2.toNat =
      quantity.toNat := by
  induction orders generalizing quantity with
  | nil => simp [fillGreedy]
  | cons order rest ih =>
    unfold fillGreedy
    split_ifs with zero
    · simp
    · have later := ih (quantity - min quantity order.quantity)
      have fits : min quantity order.quantity ≤ quantity := by
        rcases min_quantity quantity order.quantity with ⟨_, equal⟩ | ⟨less, equal⟩
        · rw [equal]
          exact UInt64.le_refl _
        · rw [equal]
          exact UInt64.le_of_lt less
      rw [UInt64.toNat_sub_of_le _ _ fits] at later
      have fits' := UInt64.le_iff_toNat_le.mp fits
      simp only [List.map_cons, totalQuantity_cons]
      omega

theorem referenceFills_total (cmd : NewOrder) (resting : List RestingOrder) :
    totalQuantity ((referenceFills cmd resting).1.map Prod.snd) + (referenceFills cmd resting).2.toNat =
      cmd.quantity.toNat :=
  fillGreedy_total _ _

theorem quantity_tradesOf (cmd : NewOrder) (commandSeq eventSeq : Nat)
    (fills : List (RestingOrder × Quantity)) :
    (tradesOf cmd commandSeq eventSeq fills).map (·.quantity) = fills.map Prod.snd := by
  induction fills generalizing eventSeq with
  | nil => rfl
  | cons fill rest ih => exact congrArg (fill.2 :: ·) (ih (eventSeq + 1))

namespace MatchingEngine

/-! ### The shape of a group -/

/-- A refused command leaves the book, the arrivals and the published top alone. -/
structure Unmoved (before after : MatchingEngine) : Prop where
  book : after.book = before.book
  arrivalCounter : after.arrivalCounter = before.arrivalCounter
  lastTop : after.lastTop = before.lastTop

/-- The top of the book is published exactly if it differs, and as it is after the command. -/
def TopChange (before after : MatchingEngine) (events : EventList) : Prop :=
  if after.book.top = before.book.top then events = []
  else ∃ header, events = [.topOfBookChanged (topEvent header after.book.top)]

/-- What is left of an accepted order rests or is cancelled by the engine, exactly if anything is left. -/
def Settled (quantity : Quantity) (trades : List Trade) (events : EventList) : Prop :=
  if totalQuantity (trades.map (·.quantity)) = quantity.toNat then events = []
  else (∃ resting, events = [.orderResting resting]) ∨
    ∃ cancelled, events = [.orderCancelled cancelled] ∧ cancelled.engineInitiated = true

/-- **The events of one command**, between the states before and after it. -/
inductive Shape (before after : MatchingEngine) : Command → EventList → Prop
  | orderRejected (order : NewOrder) (rejected : OrderRejected) (kept : Unmoved before after) :
    Shape before after (.newOrder order) [.orderRejected rejected]
  | cancelRejected (cancel : CancelOrder) (rejected : CancelRejected) (kept : Unmoved before after) :
    Shape before after (.cancelOrder cancel) [.cancelRejected rejected]
  | orderCancelled (cancel : CancelOrder) (cancelled : OrderCancelled) (top : EventList)
      (byClient : cancelled.engineInitiated = false) (published : TopChange before after top) :
    Shape before after (.cancelOrder cancel) (.orderCancelled cancelled :: top)
  | orderAccepted (order : NewOrder) (accepted : OrderAccepted) (trades : List Trade)
      (residual top : EventList) (settled : Settled accepted.quantity trades residual)
      (published : TopChange before after top) :
    Shape before after (.newOrder order)
      (.orderAccepted accepted :: trades.map .trade ++ residual ++ top)

theorem Shape.ne_nil {before after : MatchingEngine} {cmd : Command} {events : EventList}
    (shape : Shape before after cmd events) : events ≠ [] := by
  cases shape <;> simp

theorem topChange_emit {before engine : MatchingEngine} (last : engine.lastTop = before.book.top) :
    TopChange before engine.emitTopOfBookIfChanged.1 engine.emitTopOfBookIfChanged.2 := by
  unfold TopChange
  rw [emitTopOfBookIfChanged_book, ← last]
  unfold emitTopOfBookIfChanged
  by_cases same : engine.book.top = engine.lastTop
  · simp only [if_pos same]
  · simp only [if_neg same]
    exact ⟨_, rfl⟩

theorem settled_settleResidual (engine : MatchingEngine) (cmd : NewOrder) {residual : Quantity}
    {trades : List Trade}
    (total : totalQuantity (trades.map (·.quantity)) + residual.toNat = cmd.quantity.toNat) :
    Settled cmd.quantity trades (engine.settleResidual cmd residual).2 := by
  unfold Settled settleResidual
  by_cases zero : residual = 0
  · rw [if_pos zero, if_pos (by rw [zero] at total; exact total)]
  · have short : totalQuantity (trades.map (·.quantity)) ≠ cmd.quantity.toNat := by
      have positive := UInt64.lt_iff_toNat_lt.mp (UInt64.pos_iff_ne_zero.mpr zero)
      rw [UInt64.toNat_zero] at positive
      omega
    rw [if_neg zero, if_neg short]
    cases canRest cmd with
    | true => exact Or.inl ⟨_, rfl⟩
    | false => exact Or.inr ⟨_, rfl, rfl⟩

theorem settleResidual_lastTop (engine : MatchingEngine) (cmd : NewOrder) (residual : Quantity) :
    (engine.settleResidual cmd residual).1.lastTop = engine.lastTop := by
  unfold settleResidual
  split_ifs <;> rfl

theorem applyNewOrder_shape {engine : MatchingEngine} (consistent : engine.Consistent) (cmd : NewOrder) :
    Shape engine (engine.apply (.newOrder cmd)).1 (.newOrder cmd) (engine.apply (.newOrder cmd)).2 := by
  by_cases accepted : engine.rejectReason cmd = .none
  · have steps := applyNewOrder_eq { engine with commandSeq := engine.commandSeq + 1 }
      consistent.book accepted
    rw [show engine.apply (.newOrder cmd) = _ from steps]
    refine Shape.orderAccepted _ _ _ _ _ ?_ ?_
    · refine settled_settleResidual _ cmd ?_
      rw [quantity_tradesOf]
      exact referenceFills_total _ _
    · refine topChange_emit ?_
      rw [settleResidual_lastTop]
      exact consistent.lastTop
  · rw [apply_newOrder_rejected accepted]
    exact Shape.orderRejected _ _ ⟨rfl, rfl, rfl⟩

theorem applyCancel_shape {engine : MatchingEngine} (consistent : engine.Consistent) (cmd : CancelOrder) :
    Shape engine (engine.apply (.cancelOrder cmd)).1 (.cancelOrder cmd)
      (engine.apply (.cancelOrder cmd)).2 := by
  show Shape engine (applyCancel _ cmd).1 _ (applyCancel _ cmd).2
  unfold applyCancel
  dsimp only
  generalize engine.book.cancel cmd.id = result
  obtain ⟨book, removed⟩ := result
  cases removed with
  | none => exact Shape.cancelRejected _ _ ⟨rfl, rfl, rfl⟩
  | some order => exact Shape.orderCancelled _ _ _ rfl (topChange_emit consistent.lastTop)

/-- **One command emits one group.** -/
theorem apply_shape {engine : MatchingEngine} (consistent : engine.Consistent) (cmd : Command) :
    Shape engine (engine.apply cmd).1 cmd (engine.apply cmd).2 := by
  cases cmd with
  | newOrder order => exact applyNewOrder_shape consistent order
  | cancelOrder cancel => exact applyCancel_shape consistent cancel

/-! ### The stamps on the events -/

/-- The events are numbered on from the state before them, and carry its command. -/
structure Stamped (before after : MatchingEngine) (events : EventList) : Prop where
  eventSeq : (events.map fun event => (header event).eventSeq) =
    List.range' (before.eventSeq + 1) events.length
  commandSeq : ∀ event ∈ events, (header event).commandSeq = before.commandSeq
  counted : after.eventSeq = before.eventSeq + events.length
  command : after.commandSeq = before.commandSeq

namespace Stamped

variable {first second third : MatchingEngine} {events events' : EventList}

theorem nothing (counted : second.eventSeq = first.eventSeq)
    (command : second.commandSeq = first.commandSeq) : Stamped first second [] :=
  ⟨rfl, fun _ member => absurd member List.not_mem_nil, counted, command⟩

theorem single {event : Event} (stamp : header event = ⟨first.commandSeq, first.eventSeq + 1⟩)
    (counted : second.eventSeq = first.eventSeq + 1) (command : second.commandSeq = first.commandSeq) :
    Stamped first second [event] := by
  refine ⟨?_, fun other member => ?_, counted, command⟩
  · rw [List.map_singleton, stamp]
    rfl
  · rw [List.mem_singleton.mp member, stamp]

theorem append (stamped : Stamped first second events) (stamped' : Stamped second third events') :
    Stamped first third (events ++ events') where
  eventSeq := by
    rw [List.map_append, stamped.eventSeq, stamped'.eventSeq, stamped.counted, List.length_append,
      show first.eventSeq + events.length + 1 = first.eventSeq + 1 + 1 * events.length by omega]
    exact List.range'_append
  commandSeq event member := by
    rcases List.mem_append.mp member with early | late
    · exact stamped.commandSeq event early
    · rw [stamped'.commandSeq event late, stamped.command]
  counted := by
    rw [stamped'.counted, stamped.counted, List.length_append, Nat.add_assoc]
  command := stamped'.command.trans stamped.command

theorem trades (engine : MatchingEngine) (cmd : NewOrder) (fills : List (RestingOrder × Quantity)) :
    Stamped engine (engine.afterTrades fills)
      ((tradesOf cmd engine.commandSeq engine.eventSeq fills).map .trade) := by
  induction fills generalizing engine with
  | nil => exact nothing rfl rfl
  | cons fill rest ih =>
    rw [afterTrades_cons]
    have front : Stamped engine (engine.afterTrades [fill])
        ((tradesOf cmd engine.commandSeq engine.eventSeq [fill]).map .trade) := single rfl rfl rfl
    exact front.append (ih (engine.afterTrades [fill]))

theorem settleResidual (engine : MatchingEngine) (cmd : NewOrder) (residual : Quantity) :
    Stamped engine (engine.settleResidual cmd residual).1 (engine.settleResidual cmd residual).2 := by
  unfold MatchingEngine.settleResidual
  split_ifs
  · exact nothing rfl rfl
  · exact single rfl rfl rfl
  · exact single rfl rfl rfl

theorem emitTopOfBookIfChanged (engine : MatchingEngine) :
    Stamped engine engine.emitTopOfBookIfChanged.1 engine.emitTopOfBookIfChanged.2 := by
  rcases engine.emitTopOfBookIfChanged_cases with ⟨_, quiet⟩ | published
  · rw [quiet]
    exact nothing rfl rfl
  · rw [published]
    exact single rfl rfl rfl

theorem applyNewOrder (engine : MatchingEngine) {arrivals : Nat}
    (wf : engine.book.WellFormed arrivals) (cmd : NewOrder) :
    Stamped engine (engine.applyNewOrder cmd).1 (engine.applyNewOrder cmd).2 := by
  by_cases accepted : engine.rejectReason cmd = .none
  · rw [applyNewOrder_eq engine wf accepted]
    have front : Stamped engine { engine with eventSeq := engine.eventSeq + 1 }
        [.orderAccepted
          { header := { commandSeq := engine.commandSeq, eventSeq := engine.eventSeq + 1 }
            id := cmd.id
            side := cmd.side
            type := cmd.type
            tif := cmd.tif
            price := cmd.price
            quantity := cmd.quantity }] := single rfl rfl rfl
    exact ((front.append (trades _ cmd _)).append (settleResidual _ cmd _)).append
      (emitTopOfBookIfChanged _)
  · have steps : engine.applyNewOrder cmd = _ := if_pos accepted
    rw [steps]
    exact single rfl rfl rfl

theorem applyCancel (engine : MatchingEngine) (cmd : CancelOrder) :
    Stamped engine (engine.applyCancel cmd).1 (engine.applyCancel cmd).2 := by
  unfold MatchingEngine.applyCancel
  generalize engine.book.cancel cmd.id = result
  obtain ⟨book, removed⟩ := result
  cases removed with
  | none => exact single rfl rfl rfl
  | some order =>
    have front : Stamped engine { engine with book := book, eventSeq := engine.eventSeq + 1 }
        [.orderCancelled
          { header := { commandSeq := engine.commandSeq, eventSeq := engine.eventSeq + 1 }
            id := order.id
            side := order.side
            price := order.price
            remaining := order.quantity
            engineInitiated := false }] := single rfl rfl rfl
    exact front.append (emitTopOfBookIfChanged _)

end Stamped

/-- One command stamps its events with the next command ordinal. -/
theorem apply_stamped {engine : MatchingEngine} (consistent : engine.Consistent) (cmd : Command) :
    Stamped { engine with commandSeq := engine.commandSeq + 1 } (engine.apply cmd).1
      (engine.apply cmd).2 := by
  cases cmd with
  | newOrder order =>
    exact Stamped.applyNewOrder { engine with commandSeq := engine.commandSeq + 1 } consistent.book order
  | cancelOrder cancel => exact Stamped.applyCancel _ cancel

/-! ### A run -/

/-- The events of a run, one group for each command. -/
def eventGroups (engine : MatchingEngine) : List Command → List EventList
  | [] => []
  | cmd :: rest => (engine.apply cmd).2 :: (engine.apply cmd).1.eventGroups rest

theorem flatten_eventGroups (engine : MatchingEngine) (cmds : List Command) :
    (engine.eventGroups cmds).flatten = (engine.applyAll cmds).2 := by
  induction cmds generalizing engine with
  | nil => rfl
  | cons cmd rest ih => exact congrArg ((engine.apply cmd).2 ++ ·) (ih (engine.apply cmd).1)

theorem length_eventGroups (engine : MatchingEngine) (cmds : List Command) :
    (engine.eventGroups cmds).length = cmds.length := by
  induction cmds generalizing engine with
  | nil => rfl
  | cons cmd rest ih => exact congrArg (· + 1) (ih (engine.apply cmd).1)

theorem getElem?_eventGroups (engine : MatchingEngine) {cmds : List Command} {place : Nat}
    {cmd : Command} (here : cmds[place]? = some cmd) :
    (engine.eventGroups cmds)[place]? = some ((engine.applyAll (cmds.take place)).1.apply cmd).2 := by
  induction cmds generalizing engine place with
  | nil => cases here
  | cons first rest ih =>
    cases place with
    | zero =>
      cases here
      rfl
    | succ place => exact ih (engine.apply first).1 here

/-- **The grammar of a whole run**: the events are numbered from one without a gap, and fall into one
non-empty group for each command, which carries the ordinal of its command. -/
structure Grammatical (instrument : InstrumentId) (cmds : List Command) (events : EventList) : Prop where
  numbered : (events.map fun event => (header event).eventSeq) = List.range' 1 events.length
  grouped : ∃ groups : List EventList, groups.length = cmds.length ∧ groups.flatten = events ∧
    ∀ place cmd group, cmds[place]? = some cmd → groups[place]? = some group →
      group ≠ [] ∧ (∀ event ∈ group, (header event).commandSeq = place + 1) ∧
        Shape (replay instrument (cmds.take place)) (replay instrument (cmds.take (place + 1))) cmd group

/-- The numbers of a run start behind those the engine has given before. -/
theorem numbered_applyAll {engine : MatchingEngine} (consistent : engine.Consistent)
    (cmds : List Command) :
    ((engine.applyAll cmds).2.map fun event => (header event).eventSeq) =
      List.range' (engine.eventSeq + 1) (engine.applyAll cmds).2.length := by
  induction cmds generalizing engine with
  | nil => rfl
  | cons cmd rest ih =>
    have stamped := apply_stamped consistent cmd
    have later := ih (apply_consistent consistent cmd)
    have counted : (engine.apply cmd).1.eventSeq + 1 =
        engine.eventSeq + 1 + 1 * (engine.apply cmd).2.length := by
      rw [stamped.counted]
      show engine.eventSeq + _ + 1 = _
      omega
    rw [counted] at later
    unfold applyAll
    rw [List.map_append, stamped.eventSeq, later, List.length_append]
    exact List.range'_append

theorem commandSeq_applyAll {engine : MatchingEngine} (consistent : engine.Consistent)
    (cmds : List Command) : (engine.applyAll cmds).1.commandSeq = engine.commandSeq + cmds.length := by
  induction cmds generalizing engine with
  | nil => rfl
  | cons cmd rest ih =>
    have later := ih (apply_consistent consistent cmd)
    rw [(apply_stamped consistent cmd).command] at later
    refine later.trans ?_
    rw [List.length_cons]
    show engine.commandSeq + 1 + rest.length = _
    omega

theorem replay_take_succ (instrument : InstrumentId) {cmds : List Command} {place : Nat} {cmd : Command}
    (here : cmds[place]? = some cmd) :
    replay instrument (cmds.take (place + 1)) = ((replay instrument (cmds.take place)).apply cmd).1 := by
  unfold replay
  rw [List.take_add_one, here, applyAll_append]
  rfl

/-- **The event stream of every command sequence follows the grammar.** -/
theorem applyAll_grammatical (instrument : InstrumentId) (cmds : List Command) :
    Grammatical instrument cmds (applyAll { instrument } cmds).2 where
  numbered := numbered_applyAll (consistent_fresh instrument) cmds
  grouped := by
    refine ⟨eventGroups { instrument } cmds, length_eventGroups _ cmds, flatten_eventGroups _ cmds, ?_⟩
    intro place cmd group here listed
    rw [getElem?_eventGroups _ here] at listed
    obtain rfl := Option.some.inj listed
    have consistent := replay_consistent instrument (cmds.take place)
    have shape := apply_shape consistent cmd
    refine ⟨shape.ne_nil, fun event member => ?_, ?_⟩
    · have inside : place < cmds.length := (List.getElem?_eq_some_iff.mp here).1
      have count := commandSeq_applyAll (consistent_fresh instrument) (cmds.take place)
      rw [List.length_take, Nat.min_eq_left (Nat.le_of_lt inside)] at count
      rw [(apply_stamped consistent cmd).commandSeq event member]
      show (replay instrument (cmds.take place)).commandSeq + 1 = place + 1
      rw [show (replay instrument (cmds.take place)).commandSeq = _ from count]
      exact congrArg (· + 1) (Nat.zero_add place)
    · rw [replay_take_succ instrument here]
      exact shape

end MatchingEngine

end Sententia
