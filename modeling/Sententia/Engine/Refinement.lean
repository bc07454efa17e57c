/-
**Matching refines the price-time specification.** An accepted order, event by event and queue by
queue, against the reference matcher of `Engine/Matching.lean`.
-/

import Sententia.Engine.Invariant

namespace Sententia

open Library

namespace MatchingEngine

/-! ### Refinement of the reference matcher -/

/-- The trades among a list of events. -/
def trades (events : EventList) : List Trade :=
  events.filterMap fun event => match event with
    | .trade trade => some trade
    | _ => none

/-- The residual as it comes to rest. -/
def residualOrder (engine : MatchingEngine) (cmd : NewOrder) (residual : Quantity) : RestingOrder where
  id := cmd.id
  side := cmd.side
  price := cmd.price
  quantity := residual
  arrival := engine.arrivalCounter + 1

/-- `after` and `events` are what the reference matcher makes of an order in the state `before`. -/
structure RefinesReference (before : MatchingEngine) (cmd : NewOrder) (after : MatchingEngine)
    (events : EventList) (fills : List (RestingOrder × Quantity)) (residual : Quantity) : Prop where
  trades : trades events = tradesOf cmd (before.commandSeq + 1) (before.eventSeq + 1) fills
  /-- The opposite side loses exactly the filled quantities, everything else keeping its place. -/
  swept : ∀ price, after.book.ordersAt (opposite cmd.side) price =
    (before.book.ordersAt (opposite cmd.side) price).filterMap (afterFills fills)
  /-- A partially filled order is at the front of its level. -/
  partialFront : ∀ order fill, (order, fill) ∈ fills → order.quantity - fill ≠ 0 →
    (after.book.ordersAt (opposite cmd.side) order.price).head? =
      some { order with quantity := order.quantity - fill }
  /-- The order's own side gains at most the residual. -/
  own : ∀ price, after.book.ordersAt cmd.side price = before.book.ordersAt cmd.side price ++
    if residual ≠ 0 ∧ cmd.type = .limit ∧ cmd.tif = .goodTillCancel ∧ price = cmd.price then
      [before.residualOrder cmd residual]
    else []
  arrivalCounter : after.arrivalCounter = before.arrivalCounter +
    if residual ≠ 0 ∧ cmd.type = .limit ∧ cmd.tif = .goodTillCancel then 1 else 0

@[simp] theorem emitTopOfBookIfChanged_book (engine : MatchingEngine) :
    engine.emitTopOfBookIfChanged.1.book = engine.book := by
  rcases engine.emitTopOfBookIfChanged_cases with ⟨_, quiet⟩ | published
  · rw [quiet]
  · rw [published]

@[simp] theorem emitTopOfBookIfChanged_arrivalCounter (engine : MatchingEngine) :
    engine.emitTopOfBookIfChanged.1.arrivalCounter = engine.arrivalCounter := by
  rcases engine.emitTopOfBookIfChanged_cases with ⟨_, quiet⟩ | published
  · rw [quiet]
  · rw [published]

theorem trades_emitTopOfBookIfChanged (engine : MatchingEngine) :
    trades engine.emitTopOfBookIfChanged.2 = [] := by
  rcases engine.emitTopOfBookIfChanged_cases with ⟨_, quiet⟩ | published
  · rw [quiet]
    rfl
  · rw [published]
    rfl

theorem trades_settleResidual (engine : MatchingEngine) (cmd : NewOrder) (residual : Quantity) :
    trades (engine.settleResidual cmd residual).2 = [] := by
  unfold settleResidual
  split_ifs <;> rfl

theorem settleResidual_book (engine : MatchingEngine) (cmd : NewOrder) (residual : Quantity) :
    (engine.settleResidual cmd residual).1.book =
      if residual ≠ 0 ∧ cmd.type = .limit ∧ cmd.tif = .goodTillCancel then
        engine.book.rest (engine.residualOrder cmd residual)
      else engine.book := by
  unfold settleResidual canRest
  by_cases zero : residual = 0
  · simp [zero]
  · by_cases rests : cmd.type = .limit ∧ cmd.tif = .goodTillCancel
    · simp only [zero, rests, if_false, decide_true, if_true, ne_eq, not_false_eq_true, and_self]
      rfl
    · simp only [zero, rests, if_false, decide_false, ne_eq, not_false_eq_true, true_and,
        Bool.false_eq_true]
      rfl

theorem settleResidual_arrivalCounter (engine : MatchingEngine) (cmd : NewOrder)
    (residual : Quantity) :
    (engine.settleResidual cmd residual).1.arrivalCounter = engine.arrivalCounter +
      if residual ≠ 0 ∧ cmd.type = .limit ∧ cmd.tif = .goodTillCancel then 1 else 0 := by
  unfold settleResidual canRest
  by_cases zero : residual = 0
  · simp [zero]
  · by_cases rests : cmd.type = .limit ∧ cmd.tif = .goodTillCancel
    · simp only [zero, rests, if_false, decide_true, if_true, ne_eq, not_false_eq_true, and_self]
      rfl
    · simp only [zero, rests, if_false, decide_false, ne_eq, not_false_eq_true, true_and,
        Bool.false_eq_true]
      rfl

end MatchingEngine

namespace OrderBook

theorem ordersAt_rest (book : OrderBook) (order : RestingOrder) (side : Side) (price : Price) :
    (book.rest order).ordersAt side price = book.ordersAt side price ++
      if side = order.side ∧ price = order.price then [order] else [] := by
  unfold ordersAt
  rw [queueAt_rest]
  by_cases here : side = order.side ∧ price = order.price
  · rw [if_pos here, if_pos here, List.map_append]
    rfl
  · rw [if_neg here, if_neg here, List.append_nil]

namespace WellFormed

variable {book : OrderBook} {arrivals : Nat}

/-- The sweep does not touch the order's own side. -/
theorem ordersAt_own (wf : WellFormed book arrivals) (cmd : NewOrder) (price : Price) :
    (book.applyFills (referenceFills cmd (book.restingOrders (opposite cmd.side))).1).ordersAt
      cmd.side price = book.ordersAt cmd.side price := by
  rw [wf.ordersAt_referenceFills]
  have untouched : ∀ order ∈ book.ordersAt cmd.side price,
      afterFills (referenceFills cmd (book.restingOrders (opposite cmd.side))).1 order =
        some order := by
    intro order orderAt
    obtain ⟨node, member, rfl⟩ := List.mem_map.mp orderAt
    have unfilled : (referenceFills cmd (book.restingOrders (opposite cmd.side))).1.find?
        (fun fill => fill.1.id = node.order.id) = none := by
      refine List.find?_eq_none.mpr fun fill fillMember same => ?_
      have resting := (wf.referenceFills_mem cmd).subset (List.mem_map_of_mem fillMember)
      obtain ⟨price', restingAt⟩ := mem_restingOrders.mp resting
      obtain ⟨node', member', sameOrder⟩ := List.mem_map.mp restingAt
      have sameId : node.order.id = node'.order.id := by
        rw [sameOrder]
        exact (of_decide_eq_true same).symm
      exact ne_opposite cmd.side (wf.eq_of_id member member' sameId).1
    have positive := UInt64.pos_iff_ne_zero.mp (wf.positive member).1
    simp [afterFills, filledQuantity, unfilled, positive]
  rw [List.filterMap_congr untouched, List.filterMap_some]

theorem referenceFills_before_partial (wf : WellFormed book arrivals) (cmd : NewOrder)
    {order earlier : RestingOrder} {fill : Quantity}
    (filled : (order, fill) ∈ (referenceFills cmd (book.restingOrders (opposite cmd.side))).1)
    (resting : earlier ∈ book.restingOrders (opposite cmd.side))
    (samePrice : earlier.price = order.price) (arrival : earlier.arrival < order.arrival) :
    (earlier, earlier.quantity) ∈
      (referenceFills cmd (book.restingOrders (opposite cmd.side))).1 := by
  rw [referenceFills_eq] at filled ⊢
  rw [wf.insertionSort_restingOrders] at filled ⊢
  have ordered := (wf.restingOrders_ordered (opposite cmd.side)).sublist
    (List.filter_sublist (p := fun order => crosses cmd.side cmd.type cmd.price order.price))
  have crossing := (List.mem_filter.mp
    ((fillGreedy_orders _ _).subset (List.mem_map_of_mem filled))).2
  rw [← samePrice] at crossing
  exact fillGreedy_before_partial _ _ ordered filled (List.mem_filter.mpr ⟨resting, crossing⟩)
    (Or.inr ⟨samePrice, arrival⟩)

/-- **A partially filled order moves to the front of its level.** -/
theorem head?_partial (wf : WellFormed book arrivals) (cmd : NewOrder) {order : RestingOrder}
    {fill : Quantity}
    (filled : (order, fill) ∈ (referenceFills cmd (book.restingOrders (opposite cmd.side))).1)
    (left : order.quantity - fill ≠ 0) :
    ((book.applyFills (referenceFills cmd (book.restingOrders (opposite cmd.side))).1).ordersAt
      (opposite cmd.side) order.price).head? =
        some { order with quantity := order.quantity - fill } := by
  have resting := (wf.referenceFills_mem cmd).subset (List.mem_map_of_mem filled)
  obtain ⟨price, orderAt⟩ := mem_restingOrders.mp resting
  have samePrice : order.price = price := by
    obtain ⟨node, member, rfl⟩ := List.mem_map.mp orderAt
    exact (wf.placed member).2
  subst samePrice
  obtain ⟨earlier, later, split⟩ := List.append_of_mem orderAt
  have amount := filledQuantity_of_mem (wf.referenceFills_ids cmd) filled
  have remains : afterFills (referenceFills cmd (book.restingOrders (opposite cmd.side))).1 order =
      some { order with quantity := order.quantity - fill } := by
    unfold afterFills
    simp only at amount
    rw [amount, if_neg left]
  -- Everything ahead of it in its level crosses too, and is used up.
  have gone : ∀ other ∈ earlier,
      afterFills (referenceFills cmd (book.restingOrders (opposite cmd.side))).1 other = none := by
    intro other ahead
    have otherAt : other ∈ book.ordersAt (opposite cmd.side) order.price := by
      rw [split]
      exact List.mem_append_left _ ahead
    have otherResting := mem_restingOrders.mpr ⟨_, otherAt⟩
    have fifo : (book.ordersAt (opposite cmd.side) order.price).Pairwise
        fun first second => first.arrival < second.arrival :=
      List.pairwise_map.mpr (wf.fifo _ _)
    rw [split] at fifo
    have arrival := (List.pairwise_append.mp fifo).2.2 other ahead order List.mem_cons_self
    have otherPrice : other.price = order.price := by
      obtain ⟨node, member, rfl⟩ := List.mem_map.mp otherAt
      exact (wf.placed member).2
    have otherFilled := wf.referenceFills_before_partial cmd filled otherResting otherPrice arrival
    have whole := filledQuantity_of_mem (wf.referenceFills_ids cmd) otherFilled
    unfold afterFills
    simp only at whole
    rw [whole, UInt64.sub_self, if_pos rfl]
  rw [wf.ordersAt_referenceFills, split, List.filterMap_append, List.filterMap_cons, remains,
    List.filterMap_eq_nil_iff.mpr gone]
  rfl

end WellFormed

end OrderBook

namespace MatchingEngine

/-- Only the residual changes the book after the sweep. -/
theorem ordersAt_settleResidual (engine : MatchingEngine) (cmd : NewOrder) (residual : Quantity)
    (side : Side) (price : Price) :
    (engine.settleResidual cmd residual).1.book.ordersAt side price =
      engine.book.ordersAt side price ++
        if residual ≠ 0 ∧ cmd.type = .limit ∧ cmd.tif = .goodTillCancel ∧ side = cmd.side ∧
            price = cmd.price then
          [engine.residualOrder cmd residual]
        else [] := by
  rw [settleResidual_book]
  by_cases rests : residual ≠ 0 ∧ cmd.type = .limit ∧ cmd.tif = .goodTillCancel
  · obtain ⟨positive, limit, tif⟩ := rests
    rw [if_pos ⟨positive, limit, tif⟩, OrderBook.ordersAt_rest]
    simp only [positive, limit, tif, ne_eq, not_false_eq_true, true_and]
    rfl
  · rw [if_neg rests, if_neg (fun all => rests ⟨all.1, all.2.1, all.2.2.1⟩), List.append_nil]

theorem trades_append (first second : EventList) :
    trades (first ++ second) = trades first ++ trades second :=
  List.filterMap_append

theorem trades_map_trade (list : List Trade) : trades (list.map .trade) = list := by
  unfold trades
  rw [List.filterMap_map]
  exact List.filterMap_some

/-- An accepted order refines the reference matcher, from any consistent state. -/
theorem Consistent.apply_newOrder_refines {engine : MatchingEngine} (consistent : engine.Consistent)
    {cmd : NewOrder} (accepted : engine.rejectReason cmd = .none) :
    RefinesReference engine cmd (engine.apply (.newOrder cmd)).1 (engine.apply (.newOrder cmd)).2
      (referenceFills cmd (engine.book.restingOrders (opposite cmd.side))).1
      (referenceFills cmd (engine.book.restingOrders (opposite cmd.side))).2 := by
  have wf := consistent.book
  have steps := applyNewOrder_eq { engine with commandSeq := engine.commandSeq + 1 } wf accepted
  rw [show engine.apply (.newOrder cmd) =
    { engine with commandSeq := engine.commandSeq + 1 }.applyNewOrder cmd from rfl, steps]
  refine
    { trades := ?trades
      swept := ?swept
      partialFront := ?partialFront
      own := ?own
      arrivalCounter := ?arrivalCounter }
  case trades =>
    simp only [trades_append, trades_emitTopOfBookIfChanged, trades_settleResidual,
      List.append_nil]
    exact trades_map_trade _
  case swept =>
    intro price
    rw [emitTopOfBookIfChanged_book, ordersAt_settleResidual, if_neg (by simp), List.append_nil]
    exact wf.ordersAt_referenceFills cmd _ price
  case partialFront =>
    intro order fill filled left
    rw [emitTopOfBookIfChanged_book, ordersAt_settleResidual, if_neg (by simp), List.append_nil]
    exact wf.head?_partial cmd filled left
  case own =>
    intro price
    rw [emitTopOfBookIfChanged_book, ordersAt_settleResidual, ← wf.ordersAt_own cmd price]
    simp only [true_and]
    rfl
  case arrivalCounter =>
    rw [emitTopOfBookIfChanged_arrivalCounter, settleResidual_arrivalCounter]
    rfl

/-- **Matching refines the price-time specification**, in every state a command sequence reaches and
for every order that passes validation. -/
theorem replay_newOrder_refines (instrument : InstrumentId) (cmds : List Command) (cmd : NewOrder)
    (accepted : (replay instrument cmds).rejectReason cmd = .none) :
    let before := replay instrument cmds
    let reference := referenceFills cmd (before.book.restingOrders (opposite cmd.side))
    RefinesReference before cmd (before.apply (.newOrder cmd)).1 (before.apply (.newOrder cmd)).2
      reference.1 reference.2 :=
  (replay_consistent instrument cmds).apply_newOrder_refines accepted

/-- Two asks at 100 and one at 101. -/
def restingAsks : List Command :=
  [(1, 100, 5), (2, 101, 5), (3, 100, 4)].map fun (id, price, quantity) => .newOrder
    { id, instrument := 1, side := .sell, type := .limit, tif := .goodTillCancel, price, quantity }

/-- A buy that fills both asks at 100 and part of the one at 101. -/
def sweepingBuy : NewOrder where
  id := 4
  instrument := 1
  side := .buy
  type := .limit
  tif := .goodTillCancel
  price := 101
  quantity := 11

theorem replay_newOrder_refines_sweep :
    (replay 1 restingAsks).rejectReason sweepingBuy = .none ∧
      (referenceFills sweepingBuy ((replay 1 restingAsks).book.restingOrders .sell)).1.map
        (fun fill => (fill.1.id, fill.2)) = [(1, 5), (3, 4), (2, 2)] ∧
      let before := replay 1 restingAsks
      let reference := referenceFills sweepingBuy (before.book.restingOrders .sell)
      RefinesReference before sweepingBuy (before.apply (.newOrder sweepingBuy)).1
        (before.apply (.newOrder sweepingBuy)).2 reference.1 reference.2 :=
  ⟨by decide +kernel, by decide +kernel,
    replay_newOrder_refines 1 restingAsks sweepingBuy (by decide +kernel)⟩

end MatchingEngine

end Sententia
