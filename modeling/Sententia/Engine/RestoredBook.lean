/-
**What restore admits.** `restore` refuses a foreign instrument, an order of no quantity or no positive
price, and a repeated id. It does not look at how the orders of a snapshot fit together, nor at the counters
and the top of book that come with them: a crossed book, arrivals out of order and a stale top all pass.

* `restore_accepted` — an accepted snapshot's orders, price by price, are the restored queues.
* `topOf_eq` — the top of a book that holds a list of orders, read off the list.
* `restore_sound_iff` — the restored engine is sound exactly if the snapshot is coherent.
-/

import Sententia.Engine.FailedRestore

namespace Sententia

open Library

/-! ### Orders as a list -/

/-- The best price of a side. -/
def bestPriceOf (side : Side) : List RestingOrder → Option Price
  | [] => none
  | order :: rest =>
    if order.side = side then
      match bestPriceOf side rest with
      | none => some order.price
      | some price => if better side price order.price then some price else some order.price
    else bestPriceOf side rest

/-- The size at a price, accumulated modulo `2 ^ 64`. -/
def sizeAt (orders : List RestingOrder) (side : Side) (price : Price) : Quantity :=
  (orders.filter fun order => order.side = side ∧ order.price = price).foldl
    (fun total order => total + order.quantity) 0

/-- The top of a book that holds these orders. -/
def topOf (orders : List RestingOrder) : TopOfBook where
  hasBid := (bestPriceOf .buy orders).isSome
  bidPrice := (bestPriceOf .buy orders).getD 0
  bidQuantity := ((bestPriceOf .buy orders).map (sizeAt orders .buy)).getD 0
  hasAsk := (bestPriceOf .sell orders).isSome
  askPrice := (bestPriceOf .sell orders).getD 0
  askQuantity := ((bestPriceOf .sell orders).map (sizeAt orders .sell)).getD 0

/-- No price at which there is something is better. -/
def IsBest (side : Side) (occupied : Price → Prop) (price : Price) : Prop :=
  occupied price ∧ ∀ other, occupied other → other = price ∨ better side price other

theorem IsBest.unique {side : Side} {occupied : Price → Prop} {price price' : Price}
    (best : IsBest side occupied price) (best' : IsBest side occupied price') : price = price' := by
  rcases best.2 price' best'.1 with same | before
  · exact same.symm
  · rcases best'.2 price best.1 with same | after
    · exact same
    · exact absurd (trans_of (better side) before after) (irrefl_of (better side) price)

theorem bestPriceOf_cases (side : Side) (orders : List RestingOrder) :
    (bestPriceOf side orders = none ∧ ∀ order ∈ orders, order.side ≠ side) ∨
      ∃ price, bestPriceOf side orders = some price ∧
        IsBest side (fun price => ∃ order ∈ orders, order.side = side ∧ order.price = price) price := by
  induction orders with
  | nil => exact Or.inl ⟨rfl, fun _ member => nomatch member⟩
  | cons order rest ih =>
    unfold bestPriceOf
    by_cases here : order.side = side
    · rw [if_pos here]
      refine Or.inr ?_
      rcases ih with ⟨nothing, noneOnSide⟩ | ⟨price, found, ⟨first, member, onSide, rfl⟩, best⟩
      · rw [nothing]
        refine ⟨order.price, rfl, ⟨order, List.mem_cons_self, here, rfl⟩, ?_⟩
        rintro _ ⟨other, member, onSide, rfl⟩
        rcases List.mem_cons.mp member with rfl | behind
        · exact Or.inl rfl
        · exact absurd onSide (noneOnSide other behind)
      · rw [found]
        simp only
        split_ifs with before
        · refine ⟨first.price, rfl, ⟨first, List.mem_cons_of_mem _ member, onSide, rfl⟩, ?_⟩
          rintro _ ⟨other, member', onSide', rfl⟩
          rcases List.mem_cons.mp member' with rfl | behind
          · exact Or.inr before
          · exact best _ ⟨other, behind, onSide', rfl⟩
        · refine ⟨order.price, rfl, ⟨order, List.mem_cons_self, here, rfl⟩, ?_⟩
          rintro _ ⟨other, member', onSide', rfl⟩
          rcases List.mem_cons.mp member' with rfl | behind
          · exact Or.inl rfl
          · -- The new order is no worse than the best of the rest.
            rcases trichotomous_of (better side) order.price first.price with less | same | more
            · rcases best _ ⟨other, behind, onSide', rfl⟩ with same | worse
              · rw [same]
                exact Or.inr less
              · exact Or.inr (trans_of (better side) less worse)
            · rw [same]
              exact best _ ⟨other, behind, onSide', rfl⟩
            · exact absurd more before
    · rw [if_neg here]
      rcases ih with ⟨nothing, noneOnSide⟩ | ⟨price, found, ⟨first, member, onSide, same⟩, best⟩
      · refine Or.inl ⟨nothing, fun other member => ?_⟩
        rcases List.mem_cons.mp member with rfl | behind
        · exact here
        · exact noneOnSide other behind
      · refine Or.inr ⟨price, found, ⟨first, List.mem_cons_of_mem _ member, onSide, same⟩, ?_⟩
        rintro _ ⟨other, member', onSide', rfl⟩
        rcases List.mem_cons.mp member' with rfl | behind
        · exact absurd onSide' here
        · exact best _ ⟨other, behind, onSide', rfl⟩

/-- Price by price, the orders are in the order of their arrival. -/
theorem pairwise_arrival_iff (orders : List RestingOrder) :
    (orders.Pairwise fun first second =>
        first.side = second.side → first.price = second.price → first.arrival < second.arrival) ↔
      ∀ side price, (orders.filter fun order => order.side = side ∧ order.price = price).Pairwise
        fun first second => first.arrival < second.arrival := by
  constructor
  · intro inOrder side price
    refine (inOrder.filter _).imp_of_mem fun first second before => ?_
    obtain ⟨sameSide, samePrice⟩ := of_decide_eq_true (List.mem_filter.mp first).2
    obtain ⟨sameSide', samePrice'⟩ := of_decide_eq_true (List.mem_filter.mp second).2
    exact before (sameSide.trans sameSide'.symm) (samePrice.trans samePrice'.symm)
  · intro queues
    induction orders with
    | nil => exact List.Pairwise.nil
    | cons order rest ih =>
      refine List.pairwise_cons.mpr ⟨fun later member sameSide samePrice => ?_, ih fun side price => ?_⟩
      · have queue := queues order.side order.price
        rw [List.filter_cons_of_pos (by simp)] at queue
        refine (List.pairwise_cons.mp queue).1 later (List.mem_filter.mpr ⟨member, ?_⟩)
        exact decide_eq_true ⟨sameSide.symm, samePrice.symm⟩
      · exact (queues side price).sublist ((List.sublist_cons_self order rest).filter _)

namespace OrderBook

/-- The queues of a book list these orders, price by price. -/
def Lists (book : OrderBook) (orders : List RestingOrder) : Prop :=
  ∀ side price, book.ordersAt side price =
    orders.filter fun order => order.side = side ∧ order.price = price

variable {book : OrderBook} {orders : List RestingOrder}

/-- The first level of a side is the best. -/
theorem isBest_front {side : Side} {level : Price × OrderQueue} {rest : List (Price × OrderQueue)}
    (holds : book.NoEmptyLevel) (entries : (book.levels side).entries = level :: rest) :
    IsBest side (fun price => book.ordersAt side price ≠ []) level.1 := by
  have front := (book.levels side).find?_front entries
  have ordered := (book.levels side).ordered
  rw [entries] at ordered
  refine ⟨fun empty => ?_, fun other notEmpty => ?_⟩
  · unfold ordersAt at empty
    rw [queueAt_of_find? front, List.map_eq_nil_iff] at empty
    exact holds side level.1 (front.trans (congrArg some empty))
  · obtain ⟨order, member⟩ := List.exists_mem_of_ne_nil _ notEmpty
    obtain ⟨node, inQueue, _⟩ := List.mem_map.mp member
    have stored := (book.levels side).find?_eq_some_iff.mp (find?_of_mem_queueAt inQueue)
    rw [entries] at stored
    rcases List.mem_cons.mp stored with same | behind
    · exact Or.inl (congrArg Prod.fst same)
    · exact Or.inr ((List.pairwise_cons.mp ordered).1 _ behind)

theorem Lists.nonempty_iff (lists : book.Lists orders) (side : Side) (price : Price) :
    book.ordersAt side price ≠ [] ↔ ∃ order ∈ orders, order.side = side ∧ order.price = price := by
  rw [lists, Ne, List.filter_eq_nil_iff]
  simp

/-- The best level of the book is that of the list. -/
theorem Lists.front_cases (lists : book.Lists orders) (holds : book.NoEmptyLevel) (side : Side) :
    ((book.levels side).entries = [] ∧ bestPriceOf side orders = none) ∨
      ∃ price queue rest, (book.levels side).entries = (price, queue) :: rest ∧
        bestPriceOf side orders = some price ∧ queueQuantity queue = sizeAt orders side price := by
  have occupied : (fun price => book.ordersAt side price ≠ []) =
      fun price => ∃ order ∈ orders, order.side = side ∧ order.price = price :=
    funext fun price => propext (lists.nonempty_iff side price)
  cases entries : (book.levels side).entries with
  | nil =>
    refine Or.inl ⟨rfl, ?_⟩
    rcases bestPriceOf_cases side orders with ⟨nothing, _⟩ | ⟨price, _, notEmpty, _⟩
    · exact nothing
    · obtain ⟨order, member⟩ := List.exists_mem_of_ne_nil _ ((lists.nonempty_iff side price).mpr notEmpty)
      obtain ⟨node, inQueue, _⟩ := List.mem_map.mp member
      have stored := (book.levels side).find?_eq_some_iff.mp (find?_of_mem_queueAt inQueue)
      rw [entries] at stored
      cases stored
  | cons level rest =>
    obtain ⟨price, queue⟩ := level
    have best := isBest_front holds entries
    rw [occupied] at best
    refine Or.inr ⟨price, queue, rest, rfl, ?_, ?_⟩
    · rcases bestPriceOf_cases side orders with ⟨_, noneOnSide⟩ | ⟨price', found, best'⟩
      · obtain ⟨order, member, onSide, _⟩ := best.1
        exact absurd onSide (noneOnSide order member)
      · rw [found]
        exact congrArg some (best'.unique best)
    · have listed := lists side price
      unfold ordersAt at listed
      rw [queueAt_of_find? ((book.levels side).find?_front entries)] at listed
      rw [queueQuantity_eq, listed]
      rfl

/-- **The top of a book, read off the list of its orders.** -/
theorem Lists.topOf_eq (lists : book.Lists orders) (holds : book.NoEmptyLevel) :
    book.top = topOf orders := by
  unfold top topOf
  rcases lists.front_cases holds .buy with ⟨bids, noBid⟩ | ⟨bid, bidQueue, _, bids, bestBid, bidSize⟩ <;>
    rcases lists.front_cases holds .sell with ⟨asks, noAsk⟩ | ⟨ask, askQueue, _, asks, bestAsk, askSize⟩ <;>
      simp_all [levels]

theorem Lists.bestPrice_eq (lists : book.Lists orders) (holds : book.NoEmptyLevel) (side : Side) :
    book.bestPrice side = bestPriceOf side orders := by
  unfold bestPrice
  rcases lists.front_cases holds side with ⟨entries, nothing⟩ | ⟨price, queue, rest, entries, found, _⟩
  · rw [entries, nothing]
    rfl
  · rw [entries, found]
    rfl

end OrderBook

namespace MatchingEngine

/-! ### What the matching loop relies on -/

/-- The part of the book invariant that says how the orders, the counters and the last top fit
together. -/
structure Sound (engine : MatchingEngine) : Prop where
  idsUnique : (engine.allOrders.map (·.id)).Nodup
  uncrossed : ∀ bid ask, engine.book.bestBid = some bid → engine.book.bestAsk = some ask → bid < ask
  fifo : ∀ side, ∀ level ∈ (engine.book.levels side).entries,
    level.2.Pairwise fun first second => first.order.arrival < second.order.arrival
  arrived : ∀ side, ∀ level ∈ (engine.book.levels side).entries, ∀ node ∈ level.2,
    node.order.arrival ≤ engine.arrivalCounter
  lastTop : engine.lastTop = engine.book.top

/-- The orders of a snapshot, its arrival counter and its last top fit together. -/
structure Coherent (snap : EngineSnapshot) : Prop where
  uncrossed : ∀ bid ∈ snap.orders, bid.side = .buy → ∀ ask ∈ snap.orders, ask.side = .sell →
    bid.price < ask.price
  fifo : snap.orders.Pairwise fun first second =>
    first.side = second.side → first.price = second.price → first.arrival < second.arrival
  arrived : ∀ order ∈ snap.orders, order.arrival ≤ snap.arrivalCounter
  lastTop : snap.lastTop = topOf snap.orders

/-- A rebuild that succeeds has met no repeated id. -/
theorem restAll_true {book book' : OrderBook} {orders : List RestingOrder}
    (rested : restAll book orders = (book', true)) :
    (∀ order ∈ orders, book.contains order.id = false) ∧
      orders.Pairwise fun first second => first.id ≠ second.id := by
  induction orders generalizing book with
  | nil => exact ⟨fun _ member => (nomatch member), List.Pairwise.nil⟩
  | cons order rest ih =>
    rw [restAll] at rested
    split_ifs at rested with known
    · cases rested
    · obtain ⟨fresh, ids⟩ := ih rested
      simp only [OrderBook.contains_rest, Bool.or_eq_false_iff, decide_eq_false_iff_not] at fresh
      refine ⟨fun other member => ?_, List.pairwise_cons.mpr ⟨fun later member => ?_, ids⟩⟩
      · rcases List.mem_cons.mp member with rfl | behind
        · exact eq_false_of_ne_true known
        · exact (fresh other behind).1
      · exact (fresh later member).2

/-- **What an accepted snapshot becomes.** -/
theorem restore_accepted {engine : MatchingEngine} {snap : EngineSnapshot}
    (accepted : (engine.restore snap).2 = true) :
    (snap.orders.map (·.id)).Nodup ∧
      ∃ book : OrderBook, book.Linked ∧ book.Lists snap.orders ∧
        (engine.restore snap).1 =
          { engine with
            book
            commandSeq := snap.commandSeq
            eventSeq := snap.eventSeq
            arrivalCounter := snap.arrivalCounter
            lastTop := snap.lastTop } := by
  unfold restore at accepted ⊢
  split_ifs at accepted ⊢
  cases rested : restAll {} snap.orders with
  | mk book success =>
    rw [rested] at accepted
    cases success with
    | false => cases accepted
    | true =>
      obtain ⟨_, ids⟩ := restAll_true rested
      obtain ⟨book', rested', linked, queues⟩ := OrderBook.restAll_eq OrderBook.linked_empty snap.orders
        (fun _ _ => rfl) ids
      rw [rested] at rested'
      obtain rfl := congrArg Prod.fst rested'
      refine ⟨List.pairwise_map.mpr ids, book, linked, fun side price => ?_, rfl⟩
      rw [queues]
      cases side <;> rfl

end MatchingEngine

namespace OrderBook

variable {book : OrderBook} {orders : List RestingOrder}

/-- A level and the orders listed at its price. -/
theorem Lists.level (lists : book.Lists orders) {side : Side} {level : Price × OrderQueue}
    (stored : level ∈ (book.levels side).entries) :
    level.2.map (·.order) = orders.filter fun order => order.side = side ∧ order.price = level.1 := by
  have listed := lists side level.1
  unfold ordersAt at listed
  rwa [queueAt_of_find? ((book.levels side).find?_eq_some_iff.mpr stored)] at listed

/-- The node of a listed order. -/
theorem Lists.exists_node (lists : book.Lists orders) {order : RestingOrder} (member : order ∈ orders) :
    ∃ level ∈ (book.levels order.side).entries, ∃ node ∈ level.2, node.order = order := by
  have resting : order ∈ book.ordersAt order.side order.price := by
    rw [lists]
    exact List.mem_filter.mpr ⟨member, by simp⟩
  obtain ⟨node, inQueue, same⟩ := List.mem_map.mp resting
  exact ⟨_, (book.levels order.side).find?_eq_some_iff.mp (find?_of_mem_queueAt inQueue), node, inQueue,
    same⟩

theorem Lists.mem_of_resting (lists : book.Lists orders) {side : Side} {order : RestingOrder}
    (resting : order ∈ book.restingOrders side) : order ∈ orders ∧ order.side = side := by
  obtain ⟨price, atPrice⟩ := mem_restingOrders.mp resting
  rw [lists] at atPrice
  obtain ⟨member, place⟩ := List.mem_filter.mp atPrice
  exact ⟨member, (of_decide_eq_true place).1⟩

/-- Each listed id rests once. -/
theorem Lists.restingOrders_ids (lists : book.Lists orders) (ids : (orders.map (·.id)).Nodup)
    (side : Side) : ((book.restingOrders side).map (·.id)).Nodup := by
  have distinct : orders.Pairwise fun first second => first.id ≠ second.id := List.pairwise_map.mp ids
  refine List.pairwise_map.mpr ?_
  unfold restingOrders
  rw [List.pairwise_flatMap]
  refine ⟨fun level stored => ?_, (book.levels side).ordered.imp_of_mem
    fun {first second} stored stored' before order member order' member' same => ?_⟩
  · rw [lists.level stored]
    exact distinct.filter _
  · rw [lists.level stored] at member
    rw [lists.level stored'] at member'
    obtain ⟨listed, place⟩ := List.mem_filter.mp member
    obtain ⟨listed', place'⟩ := List.mem_filter.mp member'
    -- One id, one order, one price: but the two levels have different prices.
    have one := List.inj_on_of_nodup_map ids listed listed' same
    rw [← (of_decide_eq_true place).2, ← (of_decide_eq_true place').2, one] at before
    exact irrefl_of (better side) _ before

/-- The best prices do not cross exactly if no listed orders do. -/
theorem Lists.uncrossed_iff (lists : book.Lists orders) (holds : book.NoEmptyLevel) :
    (∀ bid ask, book.bestBid = some bid → book.bestAsk = some ask → bid < ask) ↔
      ∀ bid ∈ orders, bid.side = .buy → ∀ ask ∈ orders, ask.side = .sell → bid.price < ask.price := by
  unfold bestBid bestAsk
  rw [lists.bestPrice_eq holds, lists.bestPrice_eq holds]
  constructor
  · intro apart bid bidMember isBid ask askMember isAsk
    rcases bestPriceOf_cases .buy orders with ⟨_, noneOnSide⟩ | ⟨highest, found, _, best⟩
    · exact absurd isBid (noneOnSide bid bidMember)
    rcases bestPriceOf_cases .sell orders with ⟨_, noneOnSide⟩ | ⟨lowest, found', _, best'⟩
    · exact absurd isAsk (noneOnSide ask askMember)
    have between := apart highest lowest found found'
    have below : bid.price < lowest := by
      rcases best bid.price ⟨bid, bidMember, isBid, rfl⟩ with same | below
      · exact same ▸ between
      · exact price_lt_trans below between
    rcases best' ask.price ⟨ask, askMember, isAsk, rfl⟩ with same | above
    · exact same ▸ below
    · exact price_lt_trans below above
  · intro apart bid ask found found'
    rcases bestPriceOf_cases .buy orders with ⟨nothing, _⟩ | ⟨_, best, ⟨order, member, isBid, rfl⟩, _⟩
    · rw [nothing] at found
      cases found
    rcases bestPriceOf_cases .sell orders with ⟨nothing, _⟩ | ⟨_, best', ⟨order', member', isAsk, rfl⟩, _⟩
    · rw [nothing] at found'
      cases found'
    rw [best] at found
    rw [best'] at found'
    cases found
    cases found'
    exact apart order member isBid order' member' isAsk

theorem Lists.fifo_iff (lists : book.Lists orders) :
    (∀ side, ∀ level ∈ (book.levels side).entries,
        level.2.Pairwise fun first second => first.order.arrival < second.order.arrival) ↔
      orders.Pairwise fun first second =>
        first.side = second.side → first.price = second.price → first.arrival < second.arrival := by
  rw [pairwise_arrival_iff]
  constructor
  · intro fifo side price
    rw [← lists]
    unfold ordersAt queueAt
    cases found : (book.levels side).find? price with
    | none => exact List.Pairwise.nil
    | some queue =>
      exact List.pairwise_map.mpr (fifo side _ ((book.levels side).find?_eq_some_iff.mp found))
  · intro fifo side level stored
    have queue := fifo side level.1
    rw [← lists.level stored] at queue
    rw [List.pairwise_map] at queue
    exact queue

theorem Lists.arrived_iff (lists : book.Lists orders) (arrivals : Nat) :
    (∀ side, ∀ level ∈ (book.levels side).entries, ∀ node ∈ level.2, node.order.arrival ≤ arrivals) ↔
      ∀ order ∈ orders, order.arrival ≤ arrivals := by
  constructor
  · intro arrived order member
    obtain ⟨level, stored, node, inQueue, rfl⟩ := lists.exists_node member
    exact arrived _ level stored node inQueue
  · intro arrived side level stored node inQueue
    have listed : node.order ∈ level.2.map (·.order) := List.mem_map_of_mem inQueue
    rw [lists.level stored] at listed
    exact arrived _ (List.mem_filter.mp listed).1

end OrderBook

namespace MatchingEngine

/-- **A restored engine is sound exactly if the snapshot is coherent.** -/
theorem restore_sound_iff (engine : MatchingEngine) (snap : EngineSnapshot)
    (accepted : (engine.restore snap).2 = true) :
    (engine.restore snap).1.Sound ↔ Coherent snap := by
  obtain ⟨ids, book, linked, lists, restored⟩ := restore_accepted accepted
  rw [restored]
  constructor
  · rintro ⟨_, uncrossed, fifo, arrived, lastTop⟩
    exact ⟨(lists.uncrossed_iff linked.noEmptyLevel).mp uncrossed, lists.fifo_iff.mp fifo,
      (lists.arrived_iff _).mp arrived, lastTop.trans (lists.topOf_eq linked.noEmptyLevel)⟩
  · rintro ⟨uncrossed, fifo, arrived, lastTop⟩
    refine ⟨?_, (lists.uncrossed_iff linked.noEmptyLevel).mpr uncrossed, lists.fifo_iff.mpr fifo,
      (lists.arrived_iff _).mpr arrived, lastTop.trans (lists.topOf_eq linked.noEmptyLevel).symm⟩
    unfold allOrders
    rw [List.map_append]
    refine (lists.restingOrders_ids ids .buy).append (lists.restingOrders_ids ids .sell) ?_
    intro id bid ask
    obtain ⟨order, resting, rfl⟩ := List.mem_map.mp bid
    obtain ⟨order', resting', same⟩ := List.mem_map.mp ask
    obtain ⟨member, isBid⟩ := lists.mem_of_resting resting
    obtain ⟨member', isAsk⟩ := lists.mem_of_resting resting'
    have one := List.inj_on_of_nodup_map ids member' member same
    rw [one, isBid] at isAsk
    cases isAsk

/-- What a command sequence reaches is restored from its snapshot. -/
theorem restore_sound_iff_asks :
    ((replay 1 []).restore (replay 1 restingAsks).snapshot).2 = true ∧
      (((replay 1 []).restore (replay 1 restingAsks).snapshot).1.Sound ↔
        Coherent (replay 1 restingAsks).snapshot) :=
  ⟨by decide +kernel, restore_sound_iff _ _ (by decide +kernel)⟩

/-- A snapshot of instrument 1 whose bid is above its ask. -/
def crossedSnapshot : EngineSnapshot where
  instrument := 1
  commandSeq := 2
  eventSeq := 4
  arrivalCounter := 2
  lastTop := { hasBid := true, bidPrice := 101, bidQuantity := 5,
               hasAsk := true, askPrice := 100, askQuantity := 5 }
  orders :=
    [{ id := 1, side := .buy, price := 101, quantity := 5, arrival := 1 },
      { id := 2, side := .sell, price := 100, quantity := 5, arrival := 2 }]

/-- A crossed snapshot is restored. -/
theorem restore_admits_crossed :
    ((replay 1 []).restore crossedSnapshot).2 = true ∧
      ¬ ((replay 1 []).restore crossedSnapshot).1.Sound := by
  refine ⟨by decide +kernel, fun sound => ?_⟩
  have apart := sound.uncrossed 101 100 (by decide +kernel) (by decide +kernel)
  exact absurd apart (by decide)

end MatchingEngine

end Sententia
