/-
**Where the quantity of an order goes.** Every unit of an accepted order is traded by its own command,
taken from it while it rests, cancelled, or still resting; no unit is counted twice, also where a later
order reuses the id.

* `apply_account` — one command and one id: either the command brings an order of that id, which was not
  resting, and accounts for all of it; or what rested before is what the command took and what still rests.
* `trade_within` — a trade is within what both of its parties have left.
* `replay_conserved` — every order and every trade of every run.
-/

import Sententia.Engine.EventFold
import Sententia.Engine.RestingQuantity

namespace Sententia

open Library

/-! ### What the events say about an id -/

namespace MatchingEngine

def cancellations (events : EventList) : List OrderCancelled :=
  events.filterMap fun event => match event with
    | .orderCancelled cancelled => some cancelled
    | _ => none

theorem cancellations_append (first second : EventList) :
    cancellations (first ++ second) = cancellations first ++ cancellations second :=
  List.filterMap_append

/-- Does the event accept an order of this id? -/
def accepts (id : OrderId) : Event → Bool
  | .orderAccepted accepted => accepted.id = id
  | _ => false

/-- What the events trade with an id as the aggressor. -/
def tradedAggressing (id : OrderId) (events : EventList) : Nat :=
  totalQuantity (((trades events).filter fun trade => trade.aggressorId = id).map (·.quantity))

/-- What the events trade with an id as the resting order. -/
def tradedResting (id : OrderId) (events : EventList) : Nat :=
  totalQuantity (((trades events).filter fun trade => trade.restingId = id).map (·.quantity))

/-- What the events cancel of an id. -/
def cancelledOf (id : OrderId) (events : EventList) : Nat :=
  totalQuantity (((cancellations events).filter fun cancelled => cancelled.id = id).map (·.remaining))

theorem tradedAggressing_append (id : OrderId) (first second : EventList) :
    tradedAggressing id (first ++ second) = tradedAggressing id first + tradedAggressing id second := by
  simp [tradedAggressing, trades_append]

theorem tradedResting_append (id : OrderId) (first second : EventList) :
    tradedResting id (first ++ second) = tradedResting id first + tradedResting id second := by
  simp [tradedResting, trades_append]

theorem cancelledOf_append (id : OrderId) (first second : EventList) :
    cancelledOf id (first ++ second) = cancelledOf id first + cancelledOf id second := by
  simp [cancelledOf, cancellations_append]

/-! ### The pieces of a command -/

theorem tradedAggressing_trades (cmd : NewOrder) (commandSeq eventSeq : Nat)
    (fills : List (RestingOrder × Quantity)) (id : OrderId) :
    tradedAggressing id ((tradesOf cmd commandSeq eventSeq fills).map .trade) =
      if cmd.id = id then totalQuantity (fills.map Prod.snd) else 0 := by
  unfold tradedAggressing
  rw [trades_map_trade, ← quantity_tradesOf cmd commandSeq eventSeq]
  have aggressor : ∀ trade ∈ tradesOf cmd commandSeq eventSeq fills, trade.aggressorId = cmd.id := by
    induction fills generalizing eventSeq with
    | nil => exact fun trade member => absurd member List.not_mem_nil
    | cons fill rest ih =>
      intro trade member
      rcases List.mem_cons.mp member with rfl | later
      · rfl
      · exact ih (eventSeq + 1) trade later
  split_ifs with same
  · rw [List.filter_eq_self.mpr fun trade member => by rw [aggressor trade member]; simpa using same]
  · rw [List.filter_eq_nil_iff.mpr fun trade member => by rw [aggressor trade member]; simpa using same]
    rfl

theorem tradedResting_trades (cmd : NewOrder) (commandSeq eventSeq : Nat)
    (fills : List (RestingOrder × Quantity)) (id : OrderId) :
    tradedResting id ((tradesOf cmd commandSeq eventSeq fills).map .trade) =
      totalQuantity ((fills.filter fun fill => fill.1.id = id).map Prod.snd) := by
  unfold tradedResting
  rw [trades_map_trade]
  induction fills generalizing eventSeq with
  | nil => rfl
  | cons fill rest ih =>
    have later := ih (eventSeq + 1)
    unfold tradesOf
    by_cases same : fill.1.id = id
    · simp only [same, decide_true, List.filter_cons_of_pos, List.map_cons, totalQuantity_cons, later]
    · simp only [same, decide_false, Bool.false_eq_true, not_false_eq_true, List.filter_cons_of_neg, later]

theorem cancellations_trades (list : List Trade) : cancellations (list.map .trade) = [] := by
  unfold cancellations
  rw [List.filterMap_map]
  exact List.filterMap_eq_nil_iff.mpr fun _ _ => rfl

theorem cancellations_emitTopOfBookIfChanged (engine : MatchingEngine) :
    cancellations engine.emitTopOfBookIfChanged.2 = [] := by
  rcases engine.emitTopOfBookIfChanged_cases with ⟨_, quiet⟩ | published
  · rw [quiet]
    rfl
  · rw [published]
    rfl

/-- What rested and the residual are what the engine cancels of it and what rests then. -/
theorem settleResidual_account {engine : MatchingEngine} {arrivals arrivals' : Nat} {cmd : NewOrder}
    {residual : Quantity} (wf : engine.book.WellFormed arrivals)
    (fresh : engine.book.index.find? cmd.id = none)
    (wf' : (engine.settleResidual cmd residual).1.book.WellFormed arrivals') (id : OrderId) :
    engine.book.restingQuantity id + (if cmd.id = id then residual.toNat else 0) =
      cancelledOf id (engine.settleResidual cmd residual).2 +
        (engine.settleResidual cmd residual).1.book.restingQuantity id := by
  unfold settleResidual at wf' ⊢
  by_cases zero : residual = 0
  · rw [if_pos zero, zero, UInt64.toNat_zero, ite_self]
    exact Nat.add_comm _ _
  · rw [if_neg zero] at wf' ⊢
    cases rests : canRest cmd with
    | true =>
      rw [rests] at wf'
      simp only [if_true] at wf' ⊢
      have rested := wf.restingQuantity_rest fresh wf' id
      refine Eq.trans ?_ (Nat.zero_add _).symm
      exact rested.symm
    | false =>
      simp only [Bool.false_eq_true, if_false]
      show _ = cancelledOf id [_] + engine.book.restingQuantity id
      unfold cancelledOf cancellations
      by_cases same : cmd.id = id
      · simp [same, Nat.add_comm]
      · simp [same]

/-! ### One command -/

/-- **The account of one id over one command.** -/
inductive Account (before after : MatchingEngine) (id : OrderId) : EventList → Prop
  /-- The command brings an order of this id, and accounts for all of it. -/
  | accepted (accepted : OrderAccepted) (rest : EventList) (sameId : accepted.id = id)
      (once : ∀ event ∈ rest, accepts id event = false)
      (absent : before.book.restingQuantity id = 0)
      (balance : accepted.quantity.toNat = tradedAggressing id (.orderAccepted accepted :: rest) +
        tradedResting id (.orderAccepted accepted :: rest) +
          cancelledOf id (.orderAccepted accepted :: rest) + after.book.restingQuantity id) :
    Account before after id (.orderAccepted accepted :: rest)
  /-- The command brings none, and takes from what rests. -/
  | other (events : EventList) (never : ∀ event ∈ events, accepts id event = false)
      (balance : before.book.restingQuantity id =
        tradedResting id events + cancelledOf id events + after.book.restingQuantity id) :
    Account before after id events

theorem accepts_settleResidual (engine : MatchingEngine) (cmd : NewOrder) (residual : Quantity)
    (id : OrderId) : ∀ event ∈ (engine.settleResidual cmd residual).2, accepts id event = false := by
  unfold settleResidual
  split_ifs
  · exact fun event member => absurd member List.not_mem_nil
  · intro event member
    rw [List.mem_singleton.mp member]
    rfl
  · intro event member
    rw [List.mem_singleton.mp member]
    rfl

theorem accepts_emitTopOfBookIfChanged (engine : MatchingEngine) (id : OrderId) :
    ∀ event ∈ engine.emitTopOfBookIfChanged.2, accepts id event = false := by
  rcases engine.emitTopOfBookIfChanged_cases with ⟨_, quiet⟩ | published
  · rw [quiet]
    exact fun event member => absurd member List.not_mem_nil
  · rw [published]
    intro event member
    rw [List.mem_singleton.mp member]
    rfl

/-- Events without a trade move no traded quantity. -/
theorem traded_eq_zero {events : EventList} (noTrades : trades events = []) (id : OrderId) :
    tradedAggressing id events = 0 ∧ tradedResting id events = 0 := by
  unfold tradedAggressing tradedResting
  rw [noTrades]
  exact ⟨rfl, rfl⟩

theorem emitTopOfBookIfChanged_moves (engine : MatchingEngine) (id : OrderId) :
    tradedResting id engine.emitTopOfBookIfChanged.2 = 0 ∧
      cancelledOf id engine.emitTopOfBookIfChanged.2 = 0 := by
  refine ⟨(traded_eq_zero (trades_emitTopOfBookIfChanged engine) id).2, ?_⟩
  unfold cancelledOf
  rw [cancellations_emitTopOfBookIfChanged]
  rfl

/-- The pieces of an accepted order's group, and what each moves of an id. -/
theorem acceptedGroup_moves (accepted : OrderAccepted) (list : List Trade) {settled top : EventList}
    (settledTrades : trades settled = []) (topTrades : trades top = [])
    (topCancels : cancellations top = []) (id : OrderId) :
    let group := .orderAccepted accepted :: list.map Event.trade ++ settled ++ top
    tradedAggressing id group = tradedAggressing id (list.map .trade) ∧
      tradedResting id group = tradedResting id (list.map .trade) ∧
        cancelledOf id group = cancelledOf id settled := by
  obtain ⟨settledAggressing, settledResting⟩ := traded_eq_zero settledTrades id
  obtain ⟨topAggressing, topResting⟩ := traded_eq_zero topTrades id
  have topCancelled : cancelledOf id top = 0 := by
    unfold cancelledOf
    rw [topCancels]
    rfl
  have tradeCancelled : cancelledOf id (list.map .trade) = 0 := by
    unfold cancelledOf
    rw [cancellations_trades]
    rfl
  have front : tradedAggressing id [.orderAccepted accepted] = 0 ∧
      tradedResting id [.orderAccepted accepted] = 0 ∧
        cancelledOf id [.orderAccepted accepted] = 0 := ⟨rfl, rfl, rfl⟩
  rw [List.cons_append, List.cons_append, ← List.singleton_append]
  simp only [tradedAggressing_append, tradedResting_append, cancelledOf_append]
  omega

/-- An accepted order, once the sweep and the residual are accounted for. -/
theorem acceptedGroup_account {before traded : MatchingEngine} {cmd : NewOrder} {accepted : OrderAccepted}
    {fills : List (RestingOrder × Quantity)} {residual : Quantity} {id : OrderId} (commandSeq eventSeq : Nat)
    (sameId : accepted.id = cmd.id) (sameQuantity : accepted.quantity = cmd.quantity)
    (total : totalQuantity (fills.map Prod.snd) + residual.toNat = cmd.quantity.toNat)
    (absent : cmd.id = id → before.book.restingQuantity id = 0)
    (swept : before.book.restingQuantity id =
      totalQuantity ((fills.filter fun fill => fill.1.id = id).map Prod.snd) +
        traded.book.restingQuantity id)
    (settled : traded.book.restingQuantity id + (if cmd.id = id then residual.toNat else 0) =
      cancelledOf id (traded.settleResidual cmd residual).2 +
        (traded.settleResidual cmd residual).1.book.restingQuantity id) :
    let published := (traded.settleResidual cmd residual).1.emitTopOfBookIfChanged
    Account before published.1 id
      (.orderAccepted accepted :: (tradesOf cmd commandSeq eventSeq fills).map .trade ++
        (traded.settleResidual cmd residual).2 ++ published.2) := by
  have moves := acceptedGroup_moves accepted (tradesOf cmd commandSeq eventSeq fills)
    (trades_settleResidual traded cmd residual)
    (trades_emitTopOfBookIfChanged (traded.settleResidual cmd residual).1)
    (cancellations_emitTopOfBookIfChanged (traded.settleResidual cmd residual).1) id
  simp only [tradedAggressing_trades, tradedResting_trades, List.cons_append] at moves ⊢
  obtain ⟨aggressing, resting, cancelled⟩ := moves
  have once : ∀ event ∈ (tradesOf cmd commandSeq eventSeq fills).map Event.trade ++
      (traded.settleResidual cmd residual).2 ++
        (traded.settleResidual cmd residual).1.emitTopOfBookIfChanged.2, accepts id event = false := by
    intro event member
    rcases List.mem_append.mp member with early | last
    · rcases List.mem_append.mp early with trade | settled
      · obtain ⟨trade, _, rfl⟩ := List.mem_map.mp trade
        rfl
      · exact accepts_settleResidual _ _ _ id event settled
    · exact accepts_emitTopOfBookIfChanged _ id event last
  by_cases same : cmd.id = id
  · rw [if_pos same] at aggressing settled
    refine Account.accepted accepted _ (sameId.trans same) once (absent same) ?_
    have nothing := absent same
    rw [aggressing, resting, cancelled, emitTopOfBookIfChanged_book, sameQuantity]
    omega
  · rw [if_neg same] at settled
    refine Account.other _ (fun event member => ?_) ?_
    · rcases List.mem_cons.mp member with rfl | later
      · exact decide_eq_false (by rw [sameId]; exact same)
      · exact once event later
    · rw [resting, cancelled, emitTopOfBookIfChanged_book]
      omega

theorem applyNewOrder_account {engine : MatchingEngine} (consistent : engine.Consistent)
    (cmd : NewOrder) (id : OrderId) :
    Account engine (engine.apply (.newOrder cmd)).1 id (engine.apply (.newOrder cmd)).2 := by
  by_cases accepted : engine.rejectReason cmd = .none
  · have wf := consistent.book
    obtain ⟨_, _, fresh⟩ := rejectReason_eq_none accepted
    have counted : Consistent { engine with commandSeq := engine.commandSeq + 1 } :=
      ⟨consistent.book, consistent.lastTop⟩
    have steps := applyNewOrder_eq { engine with commandSeq := engine.commandSeq + 1 } wf accepted
    have sound := wf.referenceFills_sound cmd
    rw [show engine.apply (.newOrder cmd) = _ from steps]
    refine acceptedGroup_account _ _ rfl rfl (referenceFills_total _ _) ?_ ?_ ?_
    · rintro rfl
      exact wf.restingQuantity_eq_zero fresh
    · exact wf.restingQuantity_applyFills _ (fun fill member => (sound fill member).1)
        (wf.referenceFills_ids cmd) (fun fill member => (sound fill member).2.1) id
    · exact settleResidual_account (wf.applyFills _) (wf.find?_applyFills_none _ fresh)
        (settled_wellFormed counted accepted) id
  · rw [apply_newOrder_rejected accepted]
    refine Account.other _ (fun event member => ?_) (Nat.zero_add _).symm
    rw [List.mem_singleton.mp member]
    rfl

theorem applyCancel_account {engine : MatchingEngine} (consistent : engine.Consistent)
    (cmd : CancelOrder) (id : OrderId) :
    Account engine (engine.apply (.cancelOrder cmd)).1 id (engine.apply (.cancelOrder cmd)).2 := by
  have wf := consistent.book
  have left := wf.restingQuantity_cancel cmd.id id
  show Account engine (applyCancel _ cmd).1 id (applyCancel _ cmd).2
  unfold applyCancel
  cases found : engine.book.index.find? cmd.id with
  | none =>
    simp only [OrderBook.cancel_unknown found]
    refine Account.other _ (fun event member => ?_) (Nat.zero_add _).symm
    rw [List.mem_singleton.mp member]
    rfl
  | some loc =>
    obtain ⟨node, inQueue, sameId, removed⟩ := wf.cancel_eq found
    have held := wf.restingQuantity_of_mem (List.mem_map_of_mem inQueue)
    simp only [removed] at left ⊢
    refine Account.other _ (fun event member => ?_) ?_
    · rcases List.mem_append.mp member with first | last
      · rw [List.mem_singleton.mp first]
        rfl
      · exact accepts_emitTopOfBookIfChanged _ id event last
    · rw [tradedResting_append, cancelledOf_append, (emitTopOfBookIfChanged_moves _ id).1,
        (emitTopOfBookIfChanged_moves _ id).2, emitTopOfBookIfChanged_book]
      show _ = 0 + 0 + (cancelledOf id [_] + 0) + (engine.book.eraseLocated loc cmd.id).restingQuantity id
      rw [left]
      unfold cancelledOf cancellations
      by_cases same : cmd.id = id
      · rw [sameId, same] at held
        simp [sameId, same, held]
      · simp [sameId, same]

/-- **One command and one id.** -/
theorem apply_account {engine : MatchingEngine} (consistent : engine.Consistent) (cmd : Command)
    (id : OrderId) : Account engine (engine.apply cmd).1 id (engine.apply cmd).2 := by
  cases cmd with
  | newOrder order => exact applyNewOrder_account consistent order id
  | cancelOrder cancel => exact applyCancel_account consistent cancel id

/-! ### A run -/

/-- The events up to the next order of an id. -/
def beforeNext (id : OrderId) (events : EventList) : EventList :=
  events.takeWhile fun event => accepts id event = false

/-- What rests of an id is what the run takes of it before its next order, and what rests at the end
where there is no such order. -/
theorem restingQuantity_applyAll {engine : MatchingEngine} (consistent : engine.Consistent)
    (cmds : List Command) (id : OrderId) :
    let events := (engine.applyAll cmds).2
    engine.book.restingQuantity id = tradedResting id (beforeNext id events) +
      cancelledOf id (beforeNext id events) +
        if events.any (accepts id) then 0 else (engine.applyAll cmds).1.book.restingQuantity id := by
  induction cmds generalizing engine with
  | nil => exact (Nat.zero_add _).symm
  | cons cmd rest ih =>
    have later := ih (apply_consistent consistent cmd)
    have account := apply_account consistent cmd id
    unfold applyAll
    generalize engine.apply cmd = result at account later
    obtain ⟨after, events⟩ := result
    dsimp only at account later ⊢
    cases account with
    | accepted accepted rest' sameId once absent balance =>
      have first : accepts id (.orderAccepted accepted) = true := decide_eq_true sameId
      have cut : beforeNext id (.orderAccepted accepted :: rest' ++ (after.applyAll rest).2) = [] := by
        unfold beforeNext
        rw [List.cons_append, List.takeWhile_cons_of_neg (by simp [first])]
      rw [cut, List.cons_append, List.any_cons, first, absent]
      rfl
    | other _ never balance =>
      have all : beforeNext id (events ++ (after.applyAll rest).2) =
          events ++ beforeNext id (after.applyAll rest).2 :=
        List.takeWhile_append_of_pos fun event member => decide_eq_true (never event member)
      have notAccepted : events.any (accepts id) = false :=
        List.any_eq_false.mpr fun event member => by simp [never event member]
      rw [all, tradedResting_append, cancelledOf_append, List.any_append, notAccepted, Bool.false_or, balance,
        later]
      omega

/-- **Conservation for one command of a run**: `earlier` went before it, `later` follows. -/
structure Conserved (instrument : InstrumentId) (earlier : List Command) (cmd : Command)
    (later : List Command) : Prop where
  /-- Every unit of an accepted order: traded by its command, taken while it rested or cancelled before
  the next order of its id, or still resting. -/
  accepted : ∀ accepted, .orderAccepted accepted ∈ ((replay instrument earlier).apply cmd).2 →
    let own := ((replay instrument earlier).apply cmd).2
    let following := (((replay instrument earlier).apply cmd).1.applyAll later).2
    let window := own ++ beforeNext accepted.id following
    accepted.quantity.toNat = tradedAggressing accepted.id own +
      (tradedResting accepted.id window + cancelledOf accepted.id window) +
        if following.any (accepts accepted.id) then 0
        else (replay instrument (earlier ++ cmd :: later)).book.restingQuantity accepted.id
  /-- Every trade is positive, and within what the aggressor and the resting order have left when it
  happens; the book at that moment is the one the events so far fold to. -/
  trades : ∀ before trade after,
    ((replay instrument earlier).apply cmd).2 = before ++ .trade trade :: after →
      0 < trade.quantity ∧
        (∃ accepted, .orderAccepted accepted ∈ before ∧ accepted.id = trade.aggressorId ∧
          tradedAggressing trade.aggressorId before + trade.quantity.toNat ≤ accepted.quantity.toNat) ∧
        trade.quantity.toNat ≤
          ((replay instrument earlier).project.foldEvents before).book.restingQuantity trade.restingId

/-! ### A trade within its group -/

/-- Where a trade stands among the events of an accepted order, it stands among its trades. -/
theorem split_trades {list : List Trade} {settled top before after : EventList} {trade : Trade}
    (settledTrades : MatchingEngine.trades settled = []) (topTrades : MatchingEngine.trades top = [])
    (split : list.map .trade ++ (settled ++ top) = before ++ .trade trade :: after) :
    ∃ front rest, list = front ++ trade :: rest ∧ before = front.map .trade := by
  induction list generalizing before with
  | nil =>
    have member : trade ∈ MatchingEngine.trades (settled ++ top) := by
      rw [show settled ++ top = _ from split, trades_append]
      exact List.mem_append_right _ List.mem_cons_self
    rw [trades_append, settledTrades, topTrades] at member
    cases member
  | cons head rest ih =>
    cases before with
    | nil =>
      obtain ⟨same, _⟩ := List.cons.inj split
      cases same
      exact ⟨[], rest, rfl, rfl⟩
    | cons first others =>
      obtain ⟨rfl, split'⟩ := List.cons.inj split
      obtain ⟨front, rest', rfl, rfl⟩ := ih split'
      exact ⟨head :: front, rest', rfl, rfl⟩

/-- Where a trade stands among the trades of a sweep, its fill stands among the fills. -/
theorem split_tradesOf {cmd : NewOrder} {commandSeq eventSeq : Nat}
    {fills : List (RestingOrder × Quantity)} {front rest : List Trade} {trade : Trade}
    (split : tradesOf cmd commandSeq eventSeq fills = front ++ trade :: rest) :
    ∃ earlier fill later, fills = earlier ++ fill :: later ∧
      front = tradesOf cmd commandSeq eventSeq earlier ∧ trade.aggressorId = cmd.id ∧
        trade.restingId = fill.1.id ∧ trade.quantity = fill.2 := by
  induction fills generalizing eventSeq front with
  | nil => exact absurd split.symm (List.append_ne_nil_of_right_ne_nil _ (List.cons_ne_nil _ _))
  | cons head others ih =>
    cases front with
    | nil =>
      obtain ⟨rfl, _⟩ := List.cons.inj split
      exact ⟨[], head, others, rfl, rfl, rfl, rfl, rfl⟩
    | cons first front =>
      obtain ⟨rfl, split'⟩ := List.cons.inj split
      obtain ⟨earlier, fill, later, rfl, rfl, facts⟩ := ih split'
      exact ⟨head :: earlier, fill, later, rfl, rfl, facts⟩

theorem trades_topChange {before after : MatchingEngine} {top : EventList}
    (published : TopChange before after top) : MatchingEngine.trades top = [] := by
  unfold TopChange at published
  split_ifs at published
  · rw [published]
    rfl
  · obtain ⟨_, rfl⟩ := published
    rfl

/-- A trade of a sweep, and what both parties have left when it happens. -/
theorem fill_within {engine : MatchingEngine} {arrivals : Nat} (wf : engine.book.WellFormed arrivals)
    (cmd : NewOrder) {earlier later : List (RestingOrder × Quantity)} {fill : RestingOrder × Quantity}
    (split : (referenceFills cmd (engine.book.restingOrders (opposite cmd.side))).1 =
      earlier ++ fill :: later) :
    0 < fill.2 ∧ totalQuantity (earlier.map Prod.snd) + fill.2.toNat ≤ cmd.quantity.toNat ∧
      fill.2.toNat ≤ (engine.book.applyFills earlier).restingQuantity fill.1.id := by
  have sound := wf.referenceFills_sound cmd
  have ids := wf.referenceFills_ids cmd
  have total := referenceFills_total cmd (engine.book.restingOrders (opposite cmd.side))
  rw [split] at sound ids total
  obtain ⟨earlierIds, _, across⟩ := List.pairwise_append.mp ids
  obtain ⟨known, fits, positive⟩ := sound fill (List.mem_append_right _ List.mem_cons_self)
  obtain ⟨side, price, resting⟩ := OrderBook.mem_walk.mp known
  have still := wf.mem_applyFills (fun other member => (sound other (List.mem_append_left _ member)).1)
    earlierIds resting fun other member => (across other member fill List.mem_cons_self).symm
  refine ⟨UInt64.pos_iff_ne_zero.mpr positive, ?_, ?_⟩
  · rw [List.map_append, totalQuantity_append, List.map_cons, totalQuantity_cons] at total
    omega
  · rw [(wf.applyFills earlier).restingQuantity_of_mem still]
    exact UInt64.le_iff_toNat_le.mp fits

/-- A trade of a command, and what both parties have left when it happens. -/
theorem trade_within {engine : MatchingEngine} (consistent : engine.Consistent) (cmd : Command)
    {before after : EventList} {trade : Trade}
    (split : (engine.apply cmd).2 = before ++ .trade trade :: after) :
    0 < trade.quantity ∧
      (∃ accepted, .orderAccepted accepted ∈ before ∧ accepted.id = trade.aggressorId ∧
        tradedAggressing trade.aggressorId before + trade.quantity.toNat ≤ accepted.quantity.toNat) ∧
      trade.quantity.toNat ≤ (engine.project.foldEvents before).book.restingQuantity trade.restingId := by
  have traded : trade ∈ MatchingEngine.trades (engine.apply cmd).2 := by
    rw [split, trades_append]
    exact List.mem_append_right _ List.mem_cons_self
  cases cmd with
  | cancelOrder cancel =>
    have shape := apply_shape consistent (.cancelOrder cancel)
    generalize (engine.apply (.cancelOrder cancel)).2 = events at traded shape
    cases shape with
    | cancelRejected => cases traded
    | orderCancelled _ _ top _ published =>
      have traded' : trade ∈ MatchingEngine.trades top := traded
      rw [trades_topChange published] at traded'
      cases traded'
  | newOrder order =>
    by_cases accepted : engine.rejectReason order = .none
    · have steps := applyNewOrder_eq { engine with commandSeq := engine.commandSeq + 1 }
        consistent.book accepted
      rw [show engine.apply (.newOrder order) = _ from steps] at split
      dsimp only at split
      rw [List.cons_append, List.cons_append, List.append_assoc] at split
      cases before with
      | nil => cases (List.cons.inj split).1
      | cons first others =>
        obtain ⟨rfl, split'⟩ := List.cons.inj split
        obtain ⟨front, rest, listed, rfl⟩ :=
          split_trades (trades_settleResidual _ _ _) (trades_emitTopOfBookIfChanged _) split'
        obtain ⟨earlier, fill, later, fills, rfl, aggressor, resting, quantity⟩ := split_tradesOf listed
        obtain ⟨positive, within, left⟩ := fill_within consistent.book order fills
        have folded := foldEvents_trades { engine with
          commandSeq := engine.commandSeq + 1
          eventSeq := engine.eventSeq + 1 } order earlier
        refine ⟨by rw [quantity]; exact positive, ⟨_, List.mem_cons_self, aggressor.symm, ?_⟩, ?_⟩
        · have sum := tradedAggressing_trades order (engine.commandSeq + 1) (engine.eventSeq + 1) earlier
            order.id
          rw [if_pos rfl] at sum
          rw [aggressor, quantity]
          show tradedAggressing order.id (List.map _ _) + _ ≤ _
          rw [sum]
          exact within
        · rw [resting, quantity]
          refine left.trans (le_of_eq ?_)
          exact congrArg (fun state : Projection => state.book.restingQuantity fill.1.id) folded.symm
    · rw [apply_newOrder_rejected accepted] at traded
      cases traded

/-- **Quantity is conserved**, order by order and trade by trade, in every run of a fresh engine. -/
theorem replay_conserved (instrument : InstrumentId) (earlier : List Command) (cmd : Command)
    (later : List Command) : Conserved instrument earlier cmd later where
  accepted accepted member := by
    have consistent := replay_consistent instrument earlier
    have account := apply_account consistent cmd accepted.id
    have following := restingQuantity_applyAll (apply_consistent consistent cmd) later accepted.id
    have final : replay instrument (earlier ++ cmd :: later) =
        (((replay instrument earlier).apply cmd).1.applyAll later).1 := applyAll_append _ _ _
    rw [final]
    generalize (replay instrument earlier).apply cmd = result at member account following
    obtain ⟨after, events⟩ := result
    dsimp only at member account following ⊢
    rw [tradedResting_append, cancelledOf_append]
    cases account with
    | other _ never _ =>
      have impossible := never _ member
      simp [accepts] at impossible
    | accepted first rest _ once _ balance =>
      have same : accepted = first := by
        rcases List.mem_cons.mp member with same | behind
        · exact Event.orderAccepted.inj same
        · have impossible := once _ behind
          simp [accepts] at impossible
      subst same
      omega
  trades before trade after split := trade_within (replay_consistent instrument earlier) cmd split

end MatchingEngine

end Sententia
