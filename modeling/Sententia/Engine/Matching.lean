/-
**Matching is price-time priority.** The reference matcher and the loop that refines it.

* `referenceFills` — the specification, in its own terms: list the opposite side's resting orders,
  sort them by price and then arrival, keep those that `MayTradeAt` allows, fill greedily.
* `matchLoop_eq` — the source's loop, which re-reads the front of the book after every reduction,
  computes exactly these fills and reduces the book by them.
* `ordersAt_applyFills` — what the fills leave behind, queue by queue.
-/

import Mathlib.Data.List.Sort
import Sententia.Engine.BookInvariant

namespace Sententia

open Library

/-! ### Price-time priority -/

/-- `first` is filled before `second`: a better price, or the same price and an earlier arrival. -/
def precedes (side : Side) (first second : RestingOrder) : Prop :=
  better side first.price second.price ∨
    (first.price = second.price ∧ first.arrival < second.arrival)

/-- Price-time priority as a total preorder, for sorting. -/
def precedesOrTies (side : Side) (first second : RestingOrder) : Prop :=
  better side first.price second.price ∨
    (first.price = second.price ∧ first.arrival ≤ second.arrival)

instance (side : Side) : DecidableRel (precedesOrTies side) := fun _ _ =>
  inferInstanceAs (Decidable (_ ∨ _))

theorem precedes.orTies {side : Side} {first second : RestingOrder}
    (before : precedes side first second) : precedesOrTies side first second := by
  rcases before with price | ⟨same, arrival⟩
  · exact Or.inl price
  · exact Or.inr ⟨same, Nat.le_of_lt arrival⟩

theorem precedes_asymm {side : Side} {first second : RestingOrder}
    (before : precedes side first second) (after : precedes side second first) : False := by
  rcases before with price | ⟨same, arrival⟩ <;> rcases after with price' | ⟨same', arrival'⟩
  · exact irrefl_of (better side) _ (trans_of (better side) price price')
  · rw [same'] at price
    exact irrefl_of (better side) _ price
  · rw [same] at price'
    exact irrefl_of (better side) _ price'
  · omega

/-! ### The reference matcher -/

/-- Fill the listed orders in turn, each as far as the quantity and its own size allow. -/
def fillGreedy : Quantity → List RestingOrder → List (RestingOrder × Quantity) × Quantity
  | quantity, [] => ([], quantity)
  | quantity, order :: rest =>
    if quantity = 0 then ([], quantity)
    else
      let fill := min quantity order.quantity
      let (fills, residual) := fillGreedy (quantity - fill) rest
      ((order, fill) :: fills, residual)

/-- The price rule: a market order trades at any price, a limit order at none that is worse for it than its
limit. -/
def MayTradeAt (cmd : NewOrder) (price : Price) : Prop :=
  cmd.type = .market ∨ (cmd.side = .buy ∧ price ≤ cmd.price) ∨ (cmd.side = .sell ∧ cmd.price ≤ price)

instance (cmd : NewOrder) : DecidablePred (MayTradeAt cmd) := fun _ =>
  inferInstanceAs (Decidable (_ ∨ _ ∨ _))

/-- **The reference matcher**: the fills of an order against a list of resting orders, and the
quantity it leaves. -/
def referenceFills (cmd : NewOrder) (resting : List RestingOrder) :
    List (RestingOrder × Quantity) × Quantity :=
  fillGreedy cmd.quantity
    ((resting.insertionSort (precedesOrTies (opposite cmd.side))).filter fun order =>
      MayTradeAt cmd order.price)

/-- The engine's price check is the price rule. -/
theorem crosses_iff (cmd : NewOrder) (price : Price) :
    crosses cmd.side cmd.type cmd.price price = true ↔ MayTradeAt cmd price := by
  unfold crosses MayTradeAt
  cases cmd.type with
  | market => simp
  | limit => cases cmd.side <;> simp

theorem referenceFills_eq (cmd : NewOrder) (resting : List RestingOrder) :
    referenceFills cmd resting = fillGreedy cmd.quantity
      ((resting.insertionSort (precedesOrTies (opposite cmd.side))).filter fun order =>
        crosses cmd.side cmd.type cmd.price order.price) := by
  unfold referenceFills
  congr 2
  funext order
  rw [Bool.eq_iff_iff, decide_eq_true_eq, crosses_iff]

/-- The trades of a list of fills, numbered from the given event ordinal. -/
def tradesOf (cmd : NewOrder) (commandSeq : Nat) : Nat → List (RestingOrder × Quantity) → List Trade
  | _, [] => []
  | eventSeq, (order, fill) :: rest =>
    { header := { commandSeq, eventSeq := eventSeq + 1 }
      aggressorId := cmd.id
      restingId := order.id
      aggressorSide := cmd.side
      price := order.price
      quantity := fill } :: tradesOf cmd commandSeq (eventSeq + 1) rest

/-- How much of an order a list of fills takes. -/
def filledQuantity (fills : List (RestingOrder × Quantity)) (id : OrderId) : Quantity :=
  ((fills.find? fun fill => fill.1.id = id).map Prod.snd).getD 0

/-- What a list of fills leaves of an order: nothing when it is fully filled. -/
def afterFills (fills : List (RestingOrder × Quantity)) (order : RestingOrder) :
    Option RestingOrder :=
  let left := order.quantity - filledQuantity fills order.id
  if left = 0 then none else some { order with quantity := left }

namespace OrderBook

/-- The orders at a price, in queue order. -/
def ordersAt (book : OrderBook) (side : Side) (price : Price) : List RestingOrder :=
  (book.queueAt side price).map (·.order)

/-- Reduce the book by every fill of a list. -/
def applyFills (book : OrderBook) (fills : List (RestingOrder × Quantity)) : OrderBook :=
  fills.foldl (fun book fill => book.reduce fill.1.id fill.2) book

/-- What taking `amount` from order `id` leaves of an order. -/
def takeFrom (id : OrderId) (amount : Quantity) (order : RestingOrder) : Option RestingOrder :=
  if order.id = id then
    if order.quantity - amount = 0 then none
    else some { order with quantity := order.quantity - amount }
  else some order

theorem takeFrom_frame {id : OrderId} {amount : Quantity} {order left : RestingOrder}
    (taken : takeFrom id amount order = some left) :
    left.id = order.id ∧ left.price = order.price ∧ left.arrival = order.arrival := by
  unfold takeFrom at taken
  split_ifs at taken <;> cases taken <;> exact ⟨rfl, rfl, rfl⟩

/-! ### A side as one list -/

theorem mem_restingOrders {book : OrderBook} {side : Side} {order : RestingOrder} :
    order ∈ book.restingOrders side ↔ ∃ price, order ∈ book.ordersAt side price := by
  unfold restingOrders ordersAt
  rw [List.mem_flatMap]
  constructor
  · rintro ⟨⟨price, queue⟩, level, member⟩
    refine ⟨price, ?_⟩
    rw [queueAt_of_find? ((book.levels side).find?_eq_some_iff.mpr level)]
    exact member
  · rintro ⟨price, member⟩
    obtain ⟨node, nodeMember, rfl⟩ := List.mem_map.mp member
    have found := find?_of_mem_queueAt nodeMember
    exact ⟨(price, _), (book.levels side).find?_eq_some_iff.mp found, member⟩

namespace WellFormed

variable {book : OrderBook} {arrivals : Nat}

/-- **Book order is price-time priority.** -/
theorem restingOrders_ordered (wf : WellFormed book arrivals) (side : Side) :
    (book.restingOrders side).Pairwise (precedes side) := by
  unfold restingOrders
  rw [List.pairwise_flatMap]
  have queueOf : ∀ level ∈ (book.levels side).entries, book.queueAt side level.1 = level.2 :=
    fun level member => queueAt_of_find? ((book.levels side).find?_eq_some_iff.mpr member)
  refine ⟨fun level member => ?_, ?_⟩
  · rw [List.pairwise_map, ← queueOf level member]
    refine List.Pairwise.imp_of_mem (fun firstMember secondMember less => ?_) (wf.fifo side level.1)
    exact Or.inr ⟨(wf.placed firstMember).2.trans (wf.placed secondMember).2.symm, less⟩
  · refine List.Pairwise.imp_of_mem (fun firstMember secondMember less => ?_)
      (book.levels side).ordered
    intro order orderMember order' orderMember'
    obtain ⟨node, nodeMember, rfl⟩ := List.mem_map.mp orderMember
    obtain ⟨node', nodeMember', rfl⟩ := List.mem_map.mp orderMember'
    rw [← queueOf _ firstMember] at nodeMember
    rw [← queueOf _ secondMember] at nodeMember'
    refine Or.inl ?_
    rw [(wf.placed nodeMember).2, (wf.placed nodeMember').2]
    exact less

/-- Sorting a side of the book changes nothing. -/
theorem insertionSort_restingOrders (wf : WellFormed book arrivals) (side : Side) :
    (book.restingOrders side).insertionSort (precedesOrTies side) = book.restingOrders side :=
  ((wf.restingOrders_ordered side).imp fun before => before.orTies).insertionSort_eq

/-- The ids of a side are pairwise different. -/
theorem restingOrders_ids (wf : WellFormed book arrivals) (side : Side) :
    (book.restingOrders side).Pairwise fun first second => first.id ≠ second.id := by
  refine List.Pairwise.imp_of_mem (fun firstMember secondMember before same => ?_)
    (wf.restingOrders_ordered side)
  obtain ⟨price, firstAt⟩ := mem_restingOrders.mp firstMember
  obtain ⟨price', secondAt⟩ := mem_restingOrders.mp secondMember
  obtain ⟨node, member, rfl⟩ := List.mem_map.mp firstAt
  obtain ⟨node', member', rfl⟩ := List.mem_map.mp secondAt
  have equal := (wf.eq_of_id member member' same).2.2
  subst equal
  exact precedes_asymm before before

theorem find?_of_mem_restingOrders (wf : WellFormed book arrivals) {side : Side}
    {order : RestingOrder} (member : order ∈ book.restingOrders side) :
    ∃ loc, book.index.find? order.id = some loc ∧ loc.side = side ∧ loc.price = order.price ∧
      book.deref loc = some order := by
  obtain ⟨price, orderAt⟩ := mem_restingOrders.mp member
  obtain ⟨node, nodeMember, rfl⟩ := List.mem_map.mp orderAt
  have found := wf.find?_of_mem nodeMember
  obtain ⟨other, otherMember, _, sameId, target⟩ := wf.located found
  rw [(wf.eq_of_id otherMember nodeMember sameId).2.2] at target
  exact ⟨_, found, rfl, (wf.placed nodeMember).2.symm, target⟩

/-- A side has no more orders than the book counts. -/
theorem length_restingOrders (wf : WellFormed book arrivals) (side : Side) :
    (book.restingOrders side).length ≤ book.orderCount := by
  have distinctIds : ((book.restingOrders side).map (·.id)).Nodup :=
    List.pairwise_map.mpr (wf.restingOrders_ids side)
  have indexed : (book.restingOrders side).map (·.id) ⊆ book.index.keys := by
    intro id member
    obtain ⟨order, orderMember, rfl⟩ := List.mem_map.mp member
    obtain ⟨loc, found, _⟩ := wf.find?_of_mem_restingOrders orderMember
    exact book.index.mem_keys_iff.mpr ⟨loc, found⟩
  have shorter := (List.subperm_of_subset distinctIds indexed).length_le
  rw [List.length_map] at shorter
  exact shorter.trans (Nat.le_of_eq (List.length_map _))

/-! ### One reduction -/

/-- **What `reduce` does to every queue**: it takes the amount from the one order named. -/
theorem ordersAt_reduce (wf : WellFormed book arrivals) {id : OrderId} {loc : Locator}
    (found : book.index.find? id = some loc) (amount : Quantity) (side : Side) (price : Price) :
    (book.reduce id amount).ordersAt side price =
      (book.ordersAt side price).filterMap (takeFrom id amount) := by
  obtain ⟨node, member, address, sameId, target⟩ := wf.located found
  rw [wf.reduce_eq found target]
  unfold ordersAt
  rw [List.filterMap_map]
  by_cases here : side = loc.side ∧ price = loc.price
  · obtain ⟨rfl, rfl⟩ := here
    have isNode : ∀ other ∈ book.queueAt loc.side loc.price, other.order.id = id → other = node :=
      fun other otherMember same => (wf.eq_of_id otherMember member (same.trans sameId.symm)).2.2
    have onNode : ∀ other ∈ book.queueAt loc.side loc.price,
        (other.address = loc.it ↔ other.order.id = id) :=
      fun other otherMember => wf.address_iff_id found otherMember
    split_ifs with used
    · rw [queueAt_eraseLocated, if_pos ⟨rfl, rfl⟩, ← List.filterMap_eq_map, List.filterMap_filter]
      refine List.filterMap_congr fun other otherMember => ?_
      simp only [decide_eq_true_eq, Function.comp_apply, takeFrom, ne_eq, onNode other otherMember]
      by_cases same : other.order.id = id
      · rw [if_neg (not_not.mpr same), if_pos same, isNode other otherMember same, if_pos used]
      · rw [if_pos same, if_neg same]
    · rw [queueAt_lowered, if_pos ⟨rfl, rfl⟩, List.map_map, ← List.filterMap_eq_map]
      refine List.filterMap_congr fun other otherMember => ?_
      simp only [Function.comp_apply, takeFrom, lowerQuantity, onNode other otherMember]
      by_cases same : other.order.id = id
      · rw [if_pos same, if_pos same, isNode other otherMember same, if_neg used]
      · rw [if_neg same, if_neg same]
  · have untouched : (if node.order.quantity - amount = 0 then book.eraseLocated loc id
        else lowered book loc amount).queueAt side price = book.queueAt side price := by
      split_ifs
      · rw [queueAt_eraseLocated, if_neg here]
      · rw [queueAt_lowered, if_neg here, List.map_id]
    rw [untouched, ← List.filterMap_eq_map]
    refine List.filterMap_congr fun other otherMember => ?_
    have different : other.order.id ≠ id := fun same =>
      here ⟨(wf.eq_of_id otherMember member (same.trans sameId.symm)).1,
        (wf.eq_of_id otherMember member (same.trans sameId.symm)).2.1⟩
    simp only [Function.comp_apply, takeFrom, if_neg different]

theorem filterMap_takeFrom_ordered {side : Side} (id : OrderId) (amount : Quantity)
    {orders : List RestingOrder} (ordered : orders.Pairwise (precedes side)) :
    (orders.filterMap (takeFrom id amount)).Pairwise (precedes side) := by
  rw [List.pairwise_filterMap]
  refine ordered.imp fun before left taken left' taken' => ?_
  obtain ⟨_, price, arrival⟩ := takeFrom_frame taken
  obtain ⟨_, price', arrival'⟩ := takeFrom_frame taken'
  unfold precedes
  rw [price, price', arrival, arrival']
  exact before

/-- **What `reduce` does to a side**, read as one list. -/
theorem restingOrders_reduce (wf : WellFormed book arrivals) {id : OrderId} {loc : Locator}
    (found : book.index.find? id = some loc) (amount : Quantity) (side : Side) :
    (book.reduce id amount).restingOrders side =
      (book.restingOrders side).filterMap (takeFrom id amount) := by
  have ordered := (wf.reduce id amount).restingOrders_ordered side
  have ordered' := filterMap_takeFrom_ordered id amount (wf.restingOrders_ordered side)
  have nodup : ∀ orders : List RestingOrder, orders.Pairwise (precedes side) → orders.Nodup := by
    intro orders pairwise
    refine List.Pairwise.imp (fun {first second} before same => ?_) pairwise
    subst same
    exact precedes_asymm before before
  refine List.Perm.eq_of_pairwise (fun a b _ _ before after => ?_) ordered ordered' ?_
  · exact (precedes_asymm before after).elim
  · refine (List.perm_ext_iff_of_nodup (nodup _ ordered) (nodup _ ordered')).mpr fun order => ?_
    rw [mem_restingOrders, List.mem_filterMap]
    constructor
    · rintro ⟨price, member⟩
      rw [wf.ordersAt_reduce found, List.mem_filterMap] at member
      obtain ⟨old, oldMember, taken⟩ := member
      exact ⟨old, mem_restingOrders.mpr ⟨price, oldMember⟩, taken⟩
    · rintro ⟨old, oldMember, taken⟩
      obtain ⟨price, oldAt⟩ := mem_restingOrders.mp oldMember
      refine ⟨price, ?_⟩
      rw [wf.ordersAt_reduce found, List.mem_filterMap]
      exact ⟨old, oldAt, taken⟩

/-- Reducing the first order of a side leaves the others as they are. -/
theorem restingOrders_reduce_front (wf : WellFormed book arrivals) {side : Side}
    {front : RestingOrder} {rest : List RestingOrder}
    (list : book.restingOrders side = front :: rest) (amount : Quantity) :
    (book.reduce front.id amount).restingOrders side =
      (takeFrom front.id amount front).toList ++ rest := by
  have member : front ∈ book.restingOrders side := by rw [list]; exact List.mem_cons_self
  obtain ⟨loc, found, _⟩ := wf.find?_of_mem_restingOrders member
  have ids := wf.restingOrders_ids side
  rw [list] at ids
  have others : rest.filterMap (takeFrom front.id amount) = rest := by
    have same : ∀ other ∈ rest, takeFrom front.id amount other = some other := by
      intro other otherMember
      unfold takeFrom
      rw [if_neg (fun equal => (List.pairwise_cons.mp ids).1 other otherMember equal.symm)]
    rw [List.filterMap_congr same, List.filterMap_some]
  rw [wf.restingOrders_reduce found, list, List.filterMap_cons, others]
  cases takeFrom front.id amount front <;> rfl

/-! ### A list of reductions -/

theorem find?_reduce_ne (wf : WellFormed book arrivals) {id other : OrderId} {loc : Locator}
    (amount : Quantity) (found : book.index.find? id = some loc) (different : id ≠ other) :
    (book.reduce other amount).index.find? id = some loc := by
  cases target : book.index.find? other with
  | none =>
    unfold OrderBook.reduce
    simp only [target, found]
  | some loc' =>
    obtain ⟨node, _, _, _, deref⟩ := wf.located target
    rw [wf.reduce_eq target deref]
    split_ifs
    · rw [index_eraseLocated, OrderedMap.find?_erase, if_neg different, found]
    · rw [show (lowered book loc' amount).index = book.index from index_setLevels _ _ _, found]

theorem applyFills (wf : WellFormed book arrivals) (fills : List (RestingOrder × Quantity)) :
    WellFormed (book.applyFills fills) arrivals := by
  induction fills generalizing book with
  | nil => exact wf
  | cons fill rest ih => exact ih (wf.reduce fill.1.id fill.2)

/-- Taking one fill and then the others is taking them all. -/
theorem takeFrom_bind_afterFills {head : RestingOrder × Quantity}
    {rest : List (RestingOrder × Quantity)} (fresh : ∀ fill ∈ rest, fill.1.id ≠ head.1.id)
    (order : RestingOrder) :
    (takeFrom head.1.id head.2 order).bind (afterFills rest) = afterFills (head :: rest) order := by
  by_cases same : order.id = head.1.id
  · have untouched : filledQuantity rest order.id = 0 := by
      unfold filledQuantity
      rw [List.find?_eq_none.mpr fun fill member => by
        simpa [same] using fresh fill member]
      rfl
    have taken : filledQuantity (head :: rest) order.id = head.2 := by
      unfold filledQuantity
      rw [List.find?_cons_of_pos (by simp [same])]
      rfl
    unfold takeFrom
    rw [if_pos same]
    by_cases used : order.quantity - head.2 = 0
    · simp only [if_pos used, Option.bind_none, afterFills, taken]
    · simp only [if_neg used, Option.bind_some, afterFills, taken, untouched, UInt64.sub_zero]
  · have skipped : filledQuantity (head :: rest) order.id = filledQuantity rest order.id := by
      unfold filledQuantity
      rw [List.find?_cons_of_neg (by simpa using fun equal => same equal.symm)]
    unfold takeFrom
    rw [if_neg same, Option.bind_some]
    unfold afterFills
    rw [skipped]

/-- **What a list of fills leaves behind**, queue by queue: fully filled orders are gone, a partially
filled one keeps its place, every other order is unchanged. -/
theorem ordersAt_applyFills (wf : WellFormed book arrivals) (fills : List (RestingOrder × Quantity))
    (known : ∀ fill ∈ fills, ∃ loc, book.index.find? fill.1.id = some loc)
    (ids : fills.Pairwise fun first second => second.1.id ≠ first.1.id) (side : Side)
    (price : Price) :
    (book.applyFills fills).ordersAt side price =
      (book.ordersAt side price).filterMap (afterFills fills) := by
  have positive : ∀ {book : OrderBook}, WellFormed book arrivals →
      ∀ order ∈ book.ordersAt side price, order.quantity ≠ 0 := by
    intro book wf order member
    obtain ⟨node, nodeMember, rfl⟩ := List.mem_map.mp member
    exact UInt64.pos_iff_ne_zero.mp (wf.positive nodeMember).1
  induction fills generalizing book with
  | nil =>
    have same : ∀ order ∈ book.ordersAt side price, afterFills [] order = some order := by
      intro order member
      simp [afterFills, filledQuantity, positive wf order member]
    rw [List.filterMap_congr same, List.filterMap_some]
    rfl
  | cons head rest ih =>
    obtain ⟨fresh, ids'⟩ := List.pairwise_cons.mp ids
    obtain ⟨loc, found⟩ := known head List.mem_cons_self
    have known' : ∀ fill ∈ rest, ∃ loc, (book.reduce head.1.id head.2).index.find? fill.1.id =
        some loc := by
      intro fill member
      obtain ⟨loc', found'⟩ := known fill (List.mem_cons_of_mem _ member)
      exact ⟨loc', wf.find?_reduce_ne head.2 found' (fresh fill member)⟩
    have step : (book.applyFills (head :: rest)).ordersAt side price =
        ((book.reduce head.1.id head.2).applyFills rest).ordersAt side price := rfl
    rw [step, ih (wf.reduce _ _) known' ids', wf.ordersAt_reduce found, List.filterMap_filterMap]
    exact List.filterMap_congr fun order _ =>
      takeFrom_bind_afterFills fresh order

end WellFormed

end OrderBook

/-! ### Greedy fills -/

theorem fillGreedy_zero (orders : List RestingOrder) : fillGreedy 0 orders = ([], 0) := by
  cases orders with
  | nil => rfl
  | cons order rest => simp [fillGreedy]

/-- The fills name the listed orders, in order. -/
theorem fillGreedy_orders (quantity : Quantity) (orders : List RestingOrder) :
    ((fillGreedy quantity orders).1.map Prod.fst).Sublist orders := by
  induction orders generalizing quantity with
  | nil => exact List.Sublist.refl _
  | cons order rest ih =>
    unfold fillGreedy
    split_ifs
    · exact List.nil_sublist _
    · exact (ih _).cons_cons order

/-- What `std::min` gives on quantities. -/
theorem min_quantity (first second : Quantity) :
    (first ≤ second ∧ min first second = first) ∨ (second < first ∧ min first second = second) := by
  by_cases less : first ≤ second
  · exact Or.inl ⟨less, Std.LawfulOrderLeftLeaningMin.min_eq_left _ _ less⟩
  · exact Or.inr ⟨UInt64.not_le.mp less, Std.LawfulOrderLeftLeaningMin.min_eq_right _ _ less⟩

/-- A residual means that every listed order was filled completely. -/
theorem fillGreedy_residual (quantity : Quantity) (orders : List RestingOrder)
    (residual : (fillGreedy quantity orders).2 ≠ 0) :
    (fillGreedy quantity orders).1 = orders.map fun order => (order, order.quantity) := by
  induction orders generalizing quantity with
  | nil => rfl
  | cons order rest ih =>
    unfold fillGreedy at residual ⊢
    by_cases zero : quantity = 0
    · rw [if_pos zero] at residual
      exact absurd zero residual
    · rw [if_neg zero] at residual ⊢
      rcases min_quantity quantity order.quantity with ⟨_, all⟩ | ⟨_, all⟩
      · simp only [all, UInt64.sub_self, fillGreedy_zero] at residual
        exact absurd rfl residual
      · simp only [all] at residual ⊢
        rw [ih _ residual, List.map_cons]

/-- Before a partially filled order, everything is filled completely. -/
theorem fillGreedy_before_partial {side : Side} (quantity : Quantity) (orders : List RestingOrder)
    (ordered : orders.Pairwise (precedes side)) {order : RestingOrder} {fill : Quantity}
    (filled : (order, fill) ∈ (fillGreedy quantity orders).1) {earlier : RestingOrder}
    (member : earlier ∈ orders) (before : precedes side earlier order) :
    (earlier, earlier.quantity) ∈ (fillGreedy quantity orders).1 := by
  induction orders generalizing quantity with
  | nil => cases member
  | cons first rest ih =>
    obtain ⟨behind, ordered'⟩ := List.pairwise_cons.mp ordered
    unfold fillGreedy at filled ⊢
    by_cases zero : quantity = 0
    · rw [if_pos zero] at filled
      cases filled
    · rw [if_neg zero] at filled ⊢
      simp only [List.mem_cons, Prod.mk.injEq] at filled ⊢
      rcases filled with ⟨rfl, _⟩ | later
      · -- Nothing stands before the first order of the list.
        rcases List.mem_cons.mp member with rfl | inRest
        · exact (precedes_asymm before before).elim
        · exact (precedes_asymm before (behind earlier inRest)).elim
      · rcases List.mem_cons.mp member with rfl | inRest
        · rcases min_quantity quantity earlier.quantity with ⟨_, all⟩ | ⟨_, all⟩
          · simp only [all, UInt64.sub_self, fillGreedy_zero] at later
            cases later
          · exact Or.inl ⟨rfl, all.symm⟩
        · exact Or.inr (ih _ ordered' later inRest)

/-! ### The sweep -/

/-- An order that crosses a price crosses every better one. -/
theorem crosses_of_better {side : Side} {type : OrderType} {limit price price' : Price}
    (isBetter : better (opposite side) price' price)
    (crossing : crosses side type limit price = true) : crosses side type limit price' = true := by
  cases type with
  | market => rfl
  | limit =>
    cases side <;> simp only [crosses, decide_eq_true_eq, opposite, better, ge_iff_le,
      Int64.le_iff_toInt_le, Int64.lt_iff_toInt_lt] at * <;> omega

/-- Once the front of a side does not cross, nothing behind it does. -/
theorem filter_crosses_eq_nil {side : Side} {type : OrderType} {limit : Price}
    {front : RestingOrder} {rest : List RestingOrder}
    (ordered : (front :: rest).Pairwise (precedes (opposite side)))
    (stops : crosses side type limit front.price = false) :
    ((front :: rest).filter fun order => crosses side type limit order.price) = [] := by
  rw [List.filter_eq_nil_iff]
  intro order member crossing
  rcases List.mem_cons.mp member with rfl | behind
  · rw [stops] at crossing
    cases crossing
  · rcases (List.pairwise_cons.mp ordered).1 order behind with isBetter | ⟨same, _⟩
    · rw [crosses_of_better isBetter crossing] at stops
      cases stops
    · rw [same, crossing] at stops
      cases stops

namespace OrderBook

theorem restingOrders_eq_nil {book : OrderBook} {side : Side} (front : book.frontLevel side = none) :
    book.restingOrders side = [] := by
  unfold frontLevel at front
  unfold restingOrders
  cases levels : (book.levels side).entries with
  | nil => rfl
  | cons level rest => rw [levels] at front; cases front

theorem restingOrders_eq_append {book : OrderBook} {side : Side} {queue : OrderQueue}
    (front : book.frontLevel side = some queue) :
    ∃ rest, book.restingOrders side = queue.map (·.order) ++ rest := by
  unfold frontLevel at front
  unfold restingOrders
  cases levels : (book.levels side).entries with
  | nil => rw [levels] at front; cases front
  | cons level rest =>
    rw [levels] at front
    simp only [List.head?_cons, Option.map_some, Option.some.injEq] at front
    rw [List.flatMap_cons, front]
    exact ⟨_, rfl⟩

theorem frontLevel_ne_nil {book : OrderBook} (holds : book.NoEmptyLevel) (side : Side) :
    book.frontLevel side ≠ some [] := by
  intro front
  unfold frontLevel at front
  cases levels : (book.levels side).entries with
  | nil => rw [levels] at front; cases front
  | cons level rest =>
    rw [levels] at front
    simp only [List.head?_cons, Option.map_some, Option.some.injEq] at front
    refine holds side level.1 ((book.levels side).find?_eq_some_iff.mpr ?_)
    rw [levels, ← front]
    exact List.mem_cons_self

end OrderBook

namespace MatchingEngine

theorem matchLoop_zero (fuel : Nat) (engine : MatchingEngine) (cmd : NewOrder) :
    matchLoop fuel engine cmd 0 = (engine, 0, []) := by
  cases fuel with
  | zero => rfl
  | succ fuel => simp [matchLoop]

/-- The engine after the given fills: the book reduced, one event for each. -/
def afterTrades (engine : MatchingEngine) (fills : List (RestingOrder × Quantity)) :
    MatchingEngine :=
  { engine with
    book := engine.book.applyFills fills
    eventSeq := engine.eventSeq + fills.length }

theorem afterTrades_cons (engine : MatchingEngine) (fill : RestingOrder × Quantity)
    (rest : List (RestingOrder × Quantity)) :
    engine.afterTrades (fill :: rest) = (engine.afterTrades [fill]).afterTrades rest := by
  unfold afterTrades
  simp only [List.length_cons, List.length_nil]
  rw [Nat.add_assoc, Nat.add_comm rest.length]
  rfl

/-- One iteration: the front order crosses and is filled. -/
theorem matchLoop_step {fuel : Nat} {engine : MatchingEngine} {cmd : NewOrder} {quantity : Quantity}
    {node : OrderNode} {more : OrderQueue} {fill : Quantity} (left : quantity ≠ 0)
    (front : engine.book.frontLevel (opposite cmd.side) = some (node :: more))
    (crossing : crosses cmd.side cmd.type cmd.price node.order.price = true)
    (amount : min quantity node.order.quantity = fill)
    {after : MatchingEngine} {residual : Quantity} {events : EventList}
    (later : matchLoop fuel (engine.afterTrades [(node.order, fill)]) cmd (quantity - fill) =
      (after, residual, events)) :
    matchLoop (fuel + 1) engine cmd quantity = (after, residual,
      (tradesOf cmd engine.commandSeq engine.eventSeq [(node.order, fill)]).map .trade ++ events) := by
  rw [matchLoop, if_neg left, front]
  simp only [crossing, if_true, emit, nextHeader, amount]
  have same : ({ engine with
      eventSeq := engine.eventSeq + 1
      book := engine.book.reduce node.order.id fill } : MatchingEngine) =
        engine.afterTrades [(node.order, fill)] := rfl
  rw [same, later]
  rfl

/-- **The loop is the reference matcher.** Induction on the fuel, which exceeds the number of orders
left on the opposite side. -/
theorem matchLoop_eq {fuel arrivals : Nat} {engine : MatchingEngine}
    (wf : engine.book.WellFormed arrivals) (cmd : NewOrder) (quantity : Quantity)
    (enough : (engine.book.restingOrders (opposite cmd.side)).length < fuel)
    {fills : List (RestingOrder × Quantity)} {residual : Quantity}
    (reference : fillGreedy quantity ((engine.book.restingOrders (opposite cmd.side)).filter
      fun order => crosses cmd.side cmd.type cmd.price order.price) = (fills, residual)) :
    matchLoop fuel engine cmd quantity = (engine.afterTrades fills, residual,
      (tradesOf cmd engine.commandSeq engine.eventSeq fills).map .trade) := by
  induction fuel generalizing engine quantity fills residual with
  | zero => exact absurd enough (Nat.not_lt_zero _)
  | succ fuel ih =>
    by_cases used : quantity = 0
    · rw [used, fillGreedy_zero] at reference
      cases reference
      rw [used, matchLoop_zero]
      rfl
    · cases front : engine.book.frontLevel (opposite cmd.side) with
      | none =>
        rw [OrderBook.restingOrders_eq_nil front] at reference
        cases reference
        rw [matchLoop, if_neg used, front]
        rfl
      | some queue =>
        cases queue with
        | nil => exact absurd front (OrderBook.frontLevel_ne_nil wf.noEmptyLevel _)
        | cons node more =>
          obtain ⟨others, list⟩ := OrderBook.restingOrders_eq_append front
          rw [List.map_cons, List.cons_append] at list
          have ordered := wf.restingOrders_ordered (opposite cmd.side)
          rw [list] at ordered reference enough
          cases crossing : crosses cmd.side cmd.type cmd.price node.order.price with
          | false =>
            rw [filter_crosses_eq_nil ordered crossing] at reference
            cases reference
            rw [matchLoop, if_neg used, front]
            simp only [crossing, Bool.false_eq_true, if_false]
            rfl
          | true =>
            simp only [List.filter_cons, crossing, if_true, fillGreedy, if_neg used] at reference
            rcases min_quantity quantity node.order.quantity with ⟨_, amount⟩ | ⟨large, amount⟩
            · -- The order is used up; whatever the fuel, the loop stops here.
              simp only [amount, UInt64.sub_self, fillGreedy_zero] at reference
              cases reference
              have stops : matchLoop fuel (engine.afterTrades [(node.order, quantity)]) cmd
                  (quantity - quantity) = (engine.afterTrades [(node.order, quantity)], 0, []) := by
                rw [UInt64.sub_self, matchLoop_zero]
              rw [matchLoop_step used front crossing amount stops, List.append_nil]
            · -- The resting order is gone and the side is one order shorter.
              have wf' : (engine.afterTrades [(node.order, node.order.quantity)]).book.WellFormed
                  arrivals := wf.reduce _ _
              have rest : (engine.afterTrades [(node.order, node.order.quantity)]).book.restingOrders
                  (opposite cmd.side) = more.map (·.order) ++ others := by
                refine (wf.restingOrders_reduce_front list _).trans ?_
                unfold OrderBook.takeFrom
                rw [if_pos rfl, if_pos (UInt64.sub_self _)]
                rfl
              have shorter : ((engine.afterTrades [(node.order,
                  node.order.quantity)]).book.restingOrders (opposite cmd.side)).length < fuel := by
                rw [rest]
                exact Nat.lt_of_succ_lt_succ enough
              rw [← rest, amount] at reference
              cases reference
              refine (matchLoop_step used front crossing amount (ih wf' _ shorter rfl)).trans ?_
              rw [engine.afterTrades_cons (node.order, node.order.quantity) (fillGreedy _ _).1]
              rfl

/-- **`match` is the reference matcher**: its fuel never runs out, and the book's own order is the
sorted one. -/
theorem matchOrder_eq (engine : MatchingEngine) {arrivals : Nat}
    (wf : engine.book.WellFormed arrivals) (cmd : NewOrder) :
    engine.matchOrder cmd cmd.quantity =
      let reference := referenceFills cmd (engine.book.restingOrders (opposite cmd.side))
      (engine.afterTrades reference.1, reference.2,
        (tradesOf cmd engine.commandSeq engine.eventSeq reference.1).map .trade) := by
  have enough := Nat.lt_succ_of_le (wf.length_restingOrders (opposite cmd.side))
  rw [referenceFills_eq]
  unfold matchOrder
  rw [wf.insertionSort_restingOrders]
  exact matchLoop_eq wf cmd cmd.quantity enough rfl

end MatchingEngine

end Sententia
