/-
**The engine invariant over every command sequence.**

* `Consistent` — the book is well formed, the arrival counter covers it, and `lastTop` is the book's
  top.
* `residual_outside` — the sweep leaves a positive residual only when no resting order crosses any
  more, which is what lets the residual rest without crossing the book.
* `replay_bookInvariant` — the facts a reader of the book relies on, after any command sequence.
-/

import Sententia.Engine.Matching

namespace Sententia

open Library

/-! ### What the sweep leaves -/

theorem filledQuantity_of_mem {fills : List (RestingOrder × Quantity)}
    (ids : fills.Pairwise fun first second => second.1.id ≠ first.1.id)
    {fill : RestingOrder × Quantity} (member : fill ∈ fills) :
    filledQuantity fills fill.1.id = fill.2 := by
  unfold filledQuantity
  induction fills with
  | nil => cases member
  | cons head rest ih =>
    obtain ⟨fresh, ids'⟩ := List.pairwise_cons.mp ids
    rcases List.mem_cons.mp member with rfl | behind
    · rw [List.find?_cons_of_pos (by simp)]
      rfl
    · rw [List.find?_cons_of_neg (by simpa using fun same => fresh fill behind same.symm)]
      exact ih ids' behind

namespace OrderBook.WellFormed

variable {book : OrderBook} {arrivals : Nat}

/-- The fills of the reference matcher name resting orders. -/
theorem referenceFills_mem (wf : WellFormed book arrivals) (cmd : NewOrder) :
    ((referenceFills cmd (book.restingOrders (opposite cmd.side))).1.map Prod.fst).Sublist
      (book.restingOrders (opposite cmd.side)) := by
  rw [referenceFills_eq]
  rw [wf.insertionSort_restingOrders]
  exact (fillGreedy_orders _ _).trans List.filter_sublist

theorem referenceFills_known (wf : WellFormed book arrivals) (cmd : NewOrder) :
    ∀ fill ∈ (referenceFills cmd (book.restingOrders (opposite cmd.side))).1,
      ∃ loc, book.index.find? fill.1.id = some loc := by
  intro fill member
  have resting := (wf.referenceFills_mem cmd).subset (List.mem_map_of_mem member)
  obtain ⟨loc, found, _⟩ := wf.find?_of_mem_restingOrders resting
  exact ⟨loc, found⟩

theorem referenceFills_ids (wf : WellFormed book arrivals) (cmd : NewOrder) :
    (referenceFills cmd (book.restingOrders (opposite cmd.side))).1.Pairwise
      fun first second => second.1.id ≠ first.1.id := by
  have ids := (wf.restingOrders_ids (opposite cmd.side)).sublist (wf.referenceFills_mem cmd)
  exact (List.pairwise_map.mp ids).imp fun different => different.symm

/-- What the sweep leaves of every queue. -/
theorem ordersAt_referenceFills (wf : WellFormed book arrivals) (cmd : NewOrder) (side : Side)
    (price : Price) :
    (book.applyFills (referenceFills cmd (book.restingOrders (opposite cmd.side))).1).ordersAt side
        price =
      (book.ordersAt side price).filterMap
        (afterFills (referenceFills cmd (book.restingOrders (opposite cmd.side))).1) :=
  wf.ordersAt_applyFills _ (wf.referenceFills_known cmd) (wf.referenceFills_ids cmd) side price

/-- An unknown id stays unknown while the book is reduced. -/
theorem find?_applyFills_none (wf : WellFormed book arrivals) {id : OrderId}
    (fills : List (RestingOrder × Quantity)) (unknown : book.index.find? id = none) :
    (book.applyFills fills).index.find? id = none := by
  induction fills generalizing book with
  | nil => exact unknown
  | cons fill rest ih =>
    refine ih (wf.reduce fill.1.id fill.2) ?_
    show (book.reduce fill.1.id fill.2).index.find? id = none
    cases found : book.index.find? fill.1.id with
    | none =>
      unfold OrderBook.reduce
      simp only [found, unknown]
    | some loc =>
      obtain ⟨node, _, _, _, target⟩ := wf.located found
      rw [wf.reduce_eq found target]
      split_ifs
      · rw [index_eraseLocated, OrderedMap.find?_erase, unknown, ite_self]
      · rw [show (lowered book loc fill.2).index = book.index from index_setLevels _ _ _, unknown]

/-- **A positive residual crosses nothing.** Every crossing order was filled completely, so a limit
order that still has quantity left is outside the book. -/
theorem residual_outside (wf : WellFormed book arrivals) (cmd : NewOrder) (limit : cmd.type = .limit)
    (residual : (referenceFills cmd (book.restingOrders (opposite cmd.side))).2 ≠ 0) (price : Price)
    (notEmpty : (book.applyFills
      (referenceFills cmd (book.restingOrders (opposite cmd.side))).1).queueAt (opposite cmd.side)
        price ≠ []) :
    better (opposite cmd.side) cmd.price price := by
  have remaining : (book.applyFills (referenceFills cmd (book.restingOrders
      (opposite cmd.side))).1).ordersAt (opposite cmd.side) price ≠ [] := by
    unfold ordersAt
    simpa using notEmpty
  rw [wf.ordersAt_referenceFills] at remaining
  obtain ⟨left, leftMember⟩ := List.exists_mem_of_ne_nil _ remaining
  obtain ⟨order, orderAt, leaves⟩ := List.mem_filterMap.mp leftMember
  have resting : order ∈ book.restingOrders (opposite cmd.side) :=
    mem_restingOrders.mpr ⟨price, orderAt⟩
  have samePrice : order.price = price := by
    obtain ⟨node, member, rfl⟩ := List.mem_map.mp orderAt
    exact (wf.placed member).2
  cases crossing : crosses cmd.side cmd.type cmd.price order.price with
  | true =>
    -- Such an order is filled with its whole quantity and cannot be left.
    have all : (referenceFills cmd (book.restingOrders (opposite cmd.side))).1 =
        ((book.restingOrders (opposite cmd.side)).filter fun order =>
          crosses cmd.side cmd.type cmd.price order.price).map fun order =>
            (order, order.quantity) := by
      rw [referenceFills_eq] at residual ⊢
      rw [wf.insertionSort_restingOrders] at residual ⊢
      exact fillGreedy_residual _ _ residual
    have filled : (order, order.quantity) ∈
        (referenceFills cmd (book.restingOrders (opposite cmd.side))).1 := by
      rw [all]
      exact List.mem_map_of_mem (List.mem_filter.mpr ⟨resting, crossing⟩)
    have whole := filledQuantity_of_mem (wf.referenceFills_ids cmd) filled
    unfold afterFills at leaves
    simp only at whole
    rw [whole] at leaves
    simp at leaves
  | false =>
    rw [limit, samePrice] at crossing
    cases side : cmd.side <;>
      simp only [side, crosses, decide_eq_false_iff_not, opposite, better, ge_iff_le,
        Int64.not_le] at crossing ⊢ <;> exact crossing

end OrderBook.WellFormed

/-! ### The invariant along a run -/

namespace MatchingEngine

/-- **The engine invariant.** -/
structure Consistent (engine : MatchingEngine) : Prop where
  book : engine.book.WellFormed engine.arrivalCounter
  lastTop : engine.lastTop = engine.book.top

theorem consistent_fresh (instrument : InstrumentId) :
    Consistent { instrument := instrument } :=
  ⟨OrderBook.wellFormed_empty, rfl⟩

/-- The event that publishes a top of book. -/
def topEvent (header : EventHeader) (now : TopOfBook) : TopOfBookChanged where
  header := header
  hasBid := now.hasBid
  bidPrice := now.bidPrice
  bidQuantity := now.bidQuantity
  hasAsk := now.hasAsk
  askPrice := now.askPrice
  askQuantity := now.askQuantity

theorem emitTopOfBookIfChanged_cases (engine : MatchingEngine) :
    (engine.lastTop = engine.book.top ∧ engine.emitTopOfBookIfChanged = (engine, [])) ∨
      engine.emitTopOfBookIfChanged =
        ({ engine with lastTop := engine.book.top, eventSeq := engine.eventSeq + 1 },
          [.topOfBookChanged (topEvent
            { commandSeq := engine.commandSeq, eventSeq := engine.eventSeq + 1 } engine.book.top)]) := by
  unfold emitTopOfBookIfChanged
  by_cases same : engine.book.top = engine.lastTop
  · refine Or.inl ⟨same.symm, ?_⟩
    simp only [if_pos same]
  · refine Or.inr ?_
    simp only [if_neg same]
    rfl

/-- Publishing the top of the book restores its half of the invariant. -/
theorem emitTopOfBookIfChanged_consistent {engine : MatchingEngine}
    (wf : engine.book.WellFormed engine.arrivalCounter) :
    Consistent engine.emitTopOfBookIfChanged.1 := by
  rcases engine.emitTopOfBookIfChanged_cases with ⟨same, quiet⟩ | published
  · rw [quiet]
    exact ⟨wf, same⟩
  · rw [published]
    exact ⟨wf, rfl⟩

/-- The facts validation establishes about an accepted order. -/
theorem rejectReason_eq_none {engine : MatchingEngine} {cmd : NewOrder}
    (accepted : engine.rejectReason cmd = .none) :
    cmd.quantity ≠ 0 ∧ (cmd.type = .limit → 0 < cmd.price) ∧
      engine.book.index.find? cmd.id = none := by
  unfold rejectReason at accepted
  split_ifs at accepted with _ zero price _ duplicate
  refine ⟨zero, fun limit => ?_, ?_⟩
  · exact Int64.not_le.mp fun nonPositive => price ⟨limit, nonPositive⟩
  · unfold OrderBook.contains OrderedMap.contains at duplicate
    simpa using duplicate

/-- **What an accepted order does**: the reference fills, then the residual, then the top of book. -/
theorem applyNewOrder_eq (engine : MatchingEngine) {arrivals : Nat} {cmd : NewOrder}
    (wf : engine.book.WellFormed arrivals) (accepted : engine.rejectReason cmd = .none) :
    engine.applyNewOrder cmd =
      let reference := referenceFills cmd (engine.book.restingOrders (opposite cmd.side))
      let traded := { engine with eventSeq := engine.eventSeq + 1 }.afterTrades reference.1
      let settled := traded.settleResidual cmd reference.2
      let published := settled.1.emitTopOfBookIfChanged
      (published.1,
        .orderAccepted
            { header := { commandSeq := engine.commandSeq, eventSeq := engine.eventSeq + 1 }
              id := cmd.id
              side := cmd.side
              type := cmd.type
              tif := cmd.tif
              price := cmd.price
              quantity := cmd.quantity } ::
          (tradesOf cmd engine.commandSeq (engine.eventSeq + 1) reference.1).map .trade ++
          settled.2 ++ published.2) := by
  unfold applyNewOrder
  simp only [accepted, ne_eq, not_true_eq_false, if_false, emit, nextHeader]
  rw [matchOrder_eq { engine with eventSeq := engine.eventSeq + 1 } wf]
  rfl

/-- **What a refused order does**: it is reported. -/
theorem apply_newOrder_rejected {engine : MatchingEngine} {cmd : NewOrder}
    (refused : engine.rejectReason cmd ≠ .none) :
    engine.apply (.newOrder cmd) =
      ({ engine with commandSeq := engine.commandSeq + 1, eventSeq := engine.eventSeq + 1 },
        [.orderRejected
          { header := { commandSeq := engine.commandSeq + 1, eventSeq := engine.eventSeq + 1 }
            id := cmd.id
            reason := engine.rejectReason cmd }]) := by
  have refused' : ({ engine with
      commandSeq := engine.commandSeq + 1 } : MatchingEngine).rejectReason cmd ≠ .none := refused
  exact if_pos refused'

/-- The residual rests outside the book, or is not put into it. -/
theorem settleResidual_wellFormed {engine : MatchingEngine} {cmd : NewOrder} {residual : Quantity}
    (wf : engine.book.WellFormed engine.arrivalCounter)
    (fresh : engine.book.index.find? cmd.id = none) (price : cmd.type = .limit → 0 < cmd.price)
    (outside : cmd.type = .limit → residual ≠ 0 → ∀ resting,
      engine.book.queueAt (opposite cmd.side) resting ≠ [] →
        better (opposite cmd.side) cmd.price resting) :
    (engine.settleResidual cmd residual).1.book.WellFormed
      (engine.settleResidual cmd residual).1.arrivalCounter := by
  unfold settleResidual
  by_cases zero : residual = 0
  · rw [if_pos zero]
    exact wf
  · rw [if_neg zero]
    cases rests : canRest cmd with
    | false =>
      simp only [Bool.false_eq_true, if_false]
      exact wf
    | true =>
      simp only [if_true]
      have limit : cmd.type = .limit := by
        unfold canRest at rests
        exact (of_decide_eq_true rests).1
      exact wf.rest fresh (UInt64.pos_iff_ne_zero.mpr zero) (price limit) rfl (outside limit zero)

/-- The book of an accepted order once its residual is settled. -/
theorem settled_wellFormed {engine : MatchingEngine} (consistent : engine.Consistent) {cmd : NewOrder}
    (accepted : engine.rejectReason cmd = .none) :
    let reference := referenceFills cmd (engine.book.restingOrders (opposite cmd.side))
    let settled := ({ engine with eventSeq := engine.eventSeq + 1 }.afterTrades
      reference.1).settleResidual cmd reference.2
    settled.1.book.WellFormed settled.1.arrivalCounter := by
  obtain ⟨_, price, fresh⟩ := rejectReason_eq_none accepted
  refine settleResidual_wellFormed ?_ ?_ price ?_
  · exact consistent.book.applyFills _
  · exact consistent.book.find?_applyFills_none _ fresh
  · exact fun limit residual => consistent.book.residual_outside cmd limit residual

theorem applyNewOrder_consistent {engine : MatchingEngine} (consistent : engine.Consistent)
    (cmd : NewOrder) : (engine.applyNewOrder cmd).1.Consistent := by
  by_cases accepted : engine.rejectReason cmd = .none
  · rw [applyNewOrder_eq engine consistent.book accepted]
    exact emitTopOfBookIfChanged_consistent (settled_wellFormed consistent accepted)
  · unfold applyNewOrder
    simp only [ne_eq, accepted, not_false_eq_true, if_true]
    exact ⟨consistent.book, consistent.lastTop⟩

theorem applyCancel_consistent {engine : MatchingEngine} (consistent : engine.Consistent)
    (cmd : CancelOrder) : (engine.applyCancel cmd).1.Consistent := by
  have kept := consistent.book.cancel cmd.id
  unfold applyCancel
  cases result : engine.book.cancel cmd.id with
  | mk book removed =>
    rw [result] at kept
    cases removed with
    | none => exact ⟨consistent.book, consistent.lastTop⟩
    | some order => exact emitTopOfBookIfChanged_consistent kept

/-- **One command keeps the invariant.** -/
theorem apply_consistent {engine : MatchingEngine} (consistent : engine.Consistent)
    (cmd : Command) : (engine.apply cmd).1.Consistent := by
  have counted : Consistent { engine with commandSeq := engine.commandSeq + 1 } :=
    ⟨consistent.book, consistent.lastTop⟩
  unfold apply
  cases cmd with
  | newOrder order => exact applyNewOrder_consistent counted order
  | cancelOrder cancel => exact applyCancel_consistent counted cancel

theorem applyAll_consistent {engine : MatchingEngine} (consistent : engine.Consistent)
    (cmds : List Command) : (engine.applyAll cmds).1.Consistent := by
  induction cmds generalizing engine with
  | nil => exact consistent
  | cons cmd rest ih => exact ih (apply_consistent consistent cmd)

/-- **Every command sequence keeps the invariant.** -/
theorem replay_consistent (instrument : InstrumentId) (cmds : List Command) :
    (replay instrument cmds).Consistent :=
  applyAll_consistent (consistent_fresh instrument) cmds

/-! ### The invariant in the book's own terms -/

/-- Every order resting in the book. -/
def allOrders (engine : MatchingEngine) : List RestingOrder :=
  engine.book.restingOrders .buy ++ engine.book.restingOrders .sell

/-- What a reader of the book relies on, spelled out over levels, orders and the index. -/
structure BookInvariant (engine : MatchingEngine) : Prop where
  bidsDescending : (engine.book.bids.entries.map Prod.fst).Pairwise (· > ·)
  asksAscending : (engine.book.asks.entries.map Prod.fst).Pairwise (· < ·)
  noEmptyLevel : ∀ side, ∀ level ∈ (engine.book.levels side).entries, level.2 ≠ []
  orders : ∀ side, ∀ level ∈ (engine.book.levels side).entries, ∀ node ∈ level.2,
    0 < node.order.quantity ∧ 0 < node.order.price ∧ node.order.side = side ∧
      node.order.price = level.1 ∧ node.order.arrival ≤ engine.arrivalCounter
  fifo : ∀ side, ∀ level ∈ (engine.book.levels side).entries,
    level.2.Pairwise fun first second => first.order.arrival < second.order.arrival
  arrivalsUnique : (engine.allOrders.map (·.arrival)).Nodup
  idsUnique : (engine.allOrders.map (·.id)).Nodup
  /-- The index knows exactly the ids that rest... -/
  indexExact : ∀ id, engine.book.contains id = true ↔ ∃ order ∈ engine.allOrders, order.id = id
  /-- ...and each locator denotes the order of its id. -/
  locators : ∀ id loc, engine.book.index.find? id = some loc →
    ∃ order ∈ engine.allOrders, engine.book.deref loc = some order ∧ order.id = id ∧
      loc.side = order.side ∧ loc.price = order.price
  uncrossed : ∀ bid ask, engine.book.bestBid = some bid → engine.book.bestAsk = some ask → bid < ask
  lastTop : engine.lastTop = engine.book.top

theorem mem_allOrders {engine : MatchingEngine} {order : RestingOrder} :
    order ∈ engine.allOrders ↔ ∃ side, order ∈ engine.book.restingOrders side := by
  unfold allOrders
  rw [List.mem_append]
  constructor
  · rintro (member | member)
    · exact ⟨.buy, member⟩
    · exact ⟨.sell, member⟩
  · rintro ⟨side, member⟩
    cases side
    · exact Or.inl member
    · exact Or.inr member

theorem exists_node_of_mem {engine : MatchingEngine} {side : Side} {order : RestingOrder}
    (member : order ∈ engine.book.restingOrders side) :
    ∃ price, ∃ node ∈ engine.book.queueAt side price, node.order = order := by
  obtain ⟨price, orderAt⟩ := OrderBook.mem_restingOrders.mp member
  obtain ⟨node, nodeMember, same⟩ := List.mem_map.mp orderAt
  exact ⟨price, node, nodeMember, same⟩

theorem mem_allOrders_of_node {engine : MatchingEngine} {side : Side} {price : Price}
    {node : OrderNode} (member : node ∈ engine.book.queueAt side price) :
    node.order ∈ engine.allOrders :=
  mem_allOrders.mpr ⟨side, OrderBook.mem_restingOrders.mpr ⟨price, List.mem_map_of_mem member⟩⟩

namespace Consistent

variable {engine : MatchingEngine}

theorem allOrders_ids (consistent : engine.Consistent) :
    engine.allOrders.Pairwise fun first second => first.id ≠ second.id := by
  refine List.pairwise_append.mpr ⟨consistent.book.restingOrders_ids .buy,
    consistent.book.restingOrders_ids .sell, ?_⟩
  intro bid bidMember ask askMember same
  obtain ⟨price, node, member, rfl⟩ := exists_node_of_mem bidMember
  obtain ⟨price', node', member', rfl⟩ := exists_node_of_mem askMember
  have sameSide := (consistent.book.eq_of_id member member' same).1
  cases sameSide

theorem allOrders_arrivals (consistent : engine.Consistent) :
    engine.allOrders.Pairwise fun first second => first.arrival ≠ second.arrival := by
  refine List.Pairwise.imp_of_mem (fun firstMember secondMember differ same => ?_)
    consistent.allOrders_ids
  obtain ⟨side, onSide⟩ := mem_allOrders.mp firstMember
  obtain ⟨side', onSide'⟩ := mem_allOrders.mp secondMember
  obtain ⟨price, node, member, rfl⟩ := exists_node_of_mem onSide
  obtain ⟨price', node', member', rfl⟩ := exists_node_of_mem onSide'
  exact differ (consistent.book.arrivalUnique member member' same)

theorem contains_iff (consistent : engine.Consistent) (id : OrderId) :
    engine.book.contains id = true ↔ ∃ order ∈ engine.allOrders, order.id = id := by
  unfold OrderBook.contains OrderedMap.contains
  rw [Option.isSome_iff_exists]
  constructor
  · rintro ⟨loc, found⟩
    obtain ⟨node, member, _, sameId, _⟩ := consistent.book.located found
    exact ⟨node.order, mem_allOrders_of_node member, sameId⟩
  · rintro ⟨order, member, rfl⟩
    obtain ⟨side, onSide⟩ := mem_allOrders.mp member
    obtain ⟨loc, found, _⟩ := consistent.book.find?_of_mem_restingOrders onSide
    exact ⟨loc, found⟩

theorem best_queueAt_ne_nil (consistent : engine.Consistent) {side : Side} {price : Price}
    (best : engine.book.bestPrice side = some price) : engine.book.queueAt side price ≠ [] := by
  unfold OrderBook.bestPrice at best
  obtain ⟨level, head, rfl⟩ := Option.map_eq_some_iff.mp best
  have found := (engine.book.levels side).find?_eq_some_iff.mpr (List.mem_of_head? head)
  rw [OrderBook.queueAt_of_find? found]
  intro empty
  rw [empty] at found
  exact consistent.book.noEmptyLevel side level.1 found

/-- The engine invariant gives every fact of the book invariant. -/
theorem bookInvariant (consistent : engine.Consistent) : engine.BookInvariant := by
  have queueOf : ∀ side, ∀ level ∈ (engine.book.levels side).entries,
      engine.book.queueAt side level.1 = level.2 := fun side level member =>
    OrderBook.queueAt_of_find? ((engine.book.levels side).find?_eq_some_iff.mpr member)
  refine
    { bidsDescending := List.pairwise_map.mpr engine.book.bids.ordered
      asksAscending := List.pairwise_map.mpr engine.book.asks.ordered
      noEmptyLevel := ?noEmptyLevel
      orders := ?orders
      fifo := ?fifo
      arrivalsUnique := List.pairwise_map.mpr consistent.allOrders_arrivals
      idsUnique := List.pairwise_map.mpr consistent.allOrders_ids
      indexExact := consistent.contains_iff
      locators := ?locators
      uncrossed := ?uncrossed
      lastTop := consistent.lastTop }
  case noEmptyLevel =>
    intro side level member empty
    refine consistent.book.noEmptyLevel side level.1 ?_
    rw [← empty]
    exact (engine.book.levels side).find?_eq_some_iff.mpr member
  case orders =>
    intro side level levelMember node member
    rw [← queueOf side level levelMember] at member
    obtain ⟨sameSide, samePrice⟩ := consistent.book.placed member
    obtain ⟨quantity, price⟩ := consistent.book.positive member
    rw [samePrice]
    exact ⟨quantity, price, sameSide, rfl, consistent.book.arrived member⟩
  case fifo =>
    intro side level levelMember
    rw [← queueOf side level levelMember]
    exact consistent.book.fifo side level.1
  case locators =>
    intro id loc found
    obtain ⟨node, member, _, sameId, target⟩ := consistent.book.located found
    obtain ⟨sameSide, samePrice⟩ := consistent.book.placed member
    exact ⟨node.order, mem_allOrders_of_node member, target, sameId, sameSide.symm, samePrice.symm⟩
  case uncrossed =>
    intro bid ask bestBid bestAsk
    exact consistent.book.uncrossed (consistent.best_queueAt_ne_nil bestBid)
      (consistent.best_queueAt_ne_nil bestAsk)

end Consistent

/-- **The book invariant after every command sequence.** -/
theorem replay_bookInvariant (instrument : InstrumentId) (cmds : List Command) :
    (replay instrument cmds).BookInvariant :=
  (replay_consistent instrument cmds).bookInvariant

end MatchingEngine

end Sententia
