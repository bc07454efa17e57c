/-
**What rests of an id, and what the operations of the book take from it.** Quantities are summed exactly,
over a walk of the levels and not through the id index.

* `restingQuantity_reduce`, `restingQuantity_rest`, `restingQuantity_cancel` — one operation.
* `restingQuantity_applyFills` — a whole sweep leaves what its fills do not take.
* `referenceFills_sound` — the fills of the matcher are of resting orders, positive and within them.
-/

import Sententia.Engine.EventGrammar
import Sententia.Engine.Likeness

namespace Sententia

open Library

/-! ### What rests of an id -/

/-- The exact quantity that a list of orders holds of an id. -/
def heldQuantity (orders : List RestingOrder) (id : OrderId) : Nat :=
  totalQuantity ((orders.filter fun order => order.id = id).map (·.quantity))

theorem heldQuantity_eq_zero {orders : List RestingOrder} {id : OrderId}
    (absent : ∀ order ∈ orders, order.id ≠ id) : heldQuantity orders id = 0 := by
  unfold heldQuantity
  rw [List.filter_eq_nil_iff.mpr fun order member => by simpa using absent order member]
  rfl

/-- Among different ids, one order holds all there is of its id. -/
theorem heldQuantity_of_mem {orders : List RestingOrder} {order : RestingOrder}
    (ids : orders.Pairwise fun first second => first.id ≠ second.id) (member : order ∈ orders) :
    heldQuantity orders order.id = order.quantity.toNat := by
  induction orders with
  | nil => cases member
  | cons first rest ih =>
    obtain ⟨different, ids'⟩ := List.pairwise_cons.mp ids
    rcases List.mem_cons.mp member with rfl | behind
    · have others := heldQuantity_eq_zero fun later laterMember => (different later laterMember).symm
      unfold heldQuantity at others ⊢
      rw [List.filter_cons_of_pos (by simp), List.map_cons, totalQuantity_cons, others]
      rfl
    · have later := ih ids' behind
      unfold heldQuantity at later ⊢
      rw [List.filter_cons_of_neg (by simpa using different order behind), later]

namespace OrderBook

/-- Every order of the book: bids first, then asks, each side in book order. -/
def walk (book : OrderBook) : List RestingOrder := book.restingOrders .buy ++ book.restingOrders .sell

theorem mem_walk {book : OrderBook} {order : RestingOrder} :
    order ∈ book.walk ↔ ∃ side price, order ∈ book.ordersAt side price := by
  unfold walk
  rw [List.mem_append, mem_restingOrders, mem_restingOrders]
  constructor
  · rintro (bid | ask)
    · exact ⟨.buy, bid⟩
    · exact ⟨.sell, ask⟩
  · rintro ⟨side, resting⟩
    cases side
    · exact Or.inl resting
    · exact Or.inr resting

/-- The quantity of an id that rests in the book. -/
def restingQuantity (book : OrderBook) (id : OrderId) : Nat := heldQuantity book.walk id

namespace WellFormed

variable {book : OrderBook} {arrivals : Nat}

theorem walk_ids (wf : WellFormed book arrivals) :
    book.walk.Pairwise fun first second => first.id ≠ second.id := by
  refine List.pairwise_append.mpr ⟨wf.restingOrders_ids .buy, wf.restingOrders_ids .sell, ?_⟩
  intro bid bidMember ask askMember same
  obtain ⟨_, bidAt⟩ := mem_restingOrders.mp bidMember
  obtain ⟨_, askAt⟩ := mem_restingOrders.mp askMember
  obtain ⟨_, member, rfl⟩ := List.mem_map.mp bidAt
  obtain ⟨_, member', rfl⟩ := List.mem_map.mp askAt
  cases (wf.eq_of_id member member' same).1

theorem restingQuantity_of_mem (wf : WellFormed book arrivals) {side : Side} {price : Price}
    {order : RestingOrder} (resting : order ∈ book.ordersAt side price) :
    book.restingQuantity order.id = order.quantity.toNat :=
  heldQuantity_of_mem wf.walk_ids (mem_walk.mpr ⟨side, price, resting⟩)

theorem restingQuantity_eq_zero (wf : WellFormed book arrivals) {id : OrderId}
    (unknown : book.index.find? id = none) : book.restingQuantity id = 0 := by
  refine heldQuantity_eq_zero fun order member => ?_
  rintro rfl
  obtain ⟨side, price, resting⟩ := mem_walk.mp member
  obtain ⟨node, inQueue, rfl⟩ := List.mem_map.mp resting
  rw [wf.find?_of_mem inQueue] at unknown
  cases unknown

/-- Two books in which the same orders of an id rest hold the same of it. -/
theorem restingQuantity_congr {other : OrderBook} {arrivals' : Nat} (wf : WellFormed book arrivals)
    (wf' : WellFormed other arrivals') {id : OrderId}
    (same : ∀ side price order, order.id = id →
      (order ∈ book.ordersAt side price ↔ order ∈ other.ordersAt side price)) :
    book.restingQuantity id = other.restingQuantity id := by
  by_cases rests : ∃ order ∈ book.walk, order.id = id
  · obtain ⟨order, member, rfl⟩ := rests
    obtain ⟨side, price, resting⟩ := mem_walk.mp member
    rw [wf.restingQuantity_of_mem resting,
      wf'.restingQuantity_of_mem ((same side price order rfl).mp resting)]
  · have absent : ∀ order ∈ book.walk, order.id ≠ id := fun order member sameId =>
      rests ⟨order, member, sameId⟩
    have absent' : ∀ order ∈ other.walk, order.id ≠ id := by
      intro order member sameId
      obtain ⟨side, price, resting⟩ := mem_walk.mp member
      exact absent order (mem_walk.mpr ⟨side, price, (same side price order sameId).mpr resting⟩) sameId
    exact (heldQuantity_eq_zero absent).trans (heldQuantity_eq_zero absent').symm

/-! ### The operations on the book -/

/-- An order other than the reduced one stays as it is. -/
theorem mem_reduce (wf : WellFormed book arrivals) {side : Side} {price : Price}
    {order reduced : RestingOrder} (amount : Quantity) (resting : order ∈ book.ordersAt side price)
    (known : reduced ∈ book.walk) (different : order.id ≠ reduced.id) :
    order ∈ (book.reduce reduced.id amount).ordersAt side price := by
  obtain ⟨side', price', resting'⟩ := mem_walk.mp known
  obtain ⟨node, inQueue, rfl⟩ := List.mem_map.mp resting'
  rw [wf.ordersAt_reduce (wf.find?_of_mem inQueue)]
  exact List.mem_filterMap.mpr ⟨order, resting, if_neg different⟩

/-- **A fill leaves what it does not take.** -/
theorem restingQuantity_reduce (wf : WellFormed book arrivals) {order : RestingOrder}
    (known : order ∈ book.walk) {amount : Quantity} (fits : amount ≤ order.quantity) (id : OrderId) :
    book.restingQuantity id = (if order.id = id then amount.toNat else 0) +
      (book.reduce order.id amount).restingQuantity id := by
  obtain ⟨side, price, resting⟩ := mem_walk.mp known
  obtain ⟨node, inQueue, rfl⟩ := List.mem_map.mp resting
  have found := wf.find?_of_mem inQueue
  have wf' := wf.reduce node.order.id amount
  by_cases same : node.order.id = id
  · subst same
    rw [if_pos rfl, wf.restingQuantity_of_mem resting]
    have subtracted := UInt64.toNat_sub_of_le _ _ fits
    have fits' := UInt64.le_iff_toNat_le.mp fits
    by_cases gone : node.order.quantity - amount = 0
    · have nothing : (book.reduce node.order.id amount).restingQuantity node.order.id = 0 := by
        refine heldQuantity_eq_zero fun left member sameId => ?_
        obtain ⟨side', price', resting'⟩ := mem_walk.mp member
        rw [wf.ordersAt_reduce found] at resting'
        obtain ⟨old, oldResting, taken⟩ := List.mem_filterMap.mp resting'
        obtain ⟨oldNode, oldMember, rfl⟩ := List.mem_map.mp oldResting
        have oldId := (takeFrom_frame taken).1.symm.trans sameId
        have sameNode := (wf.eq_of_id oldMember inQueue oldId).2.2
        rw [sameNode] at taken
        unfold takeFrom at taken
        rw [if_pos rfl, if_pos gone] at taken
        cases taken
      rw [gone, UInt64.toNat_zero] at subtracted
      rw [nothing]
      omega
    · have left : { node.order with quantity := node.order.quantity - amount } ∈
          (book.reduce node.order.id amount).ordersAt side price := by
        rw [wf.ordersAt_reduce found]
        refine List.mem_filterMap.mpr ⟨node.order, resting, ?_⟩
        unfold takeFrom
        rw [if_pos rfl, if_neg gone]
      have held : (book.reduce node.order.id amount).restingQuantity node.order.id =
          (node.order.quantity - amount).toNat := wf'.restingQuantity_of_mem left
      rw [held, subtracted]
      omega
  · rw [if_neg same, Nat.zero_add]
    refine wf.restingQuantity_congr wf' fun side' price' other otherId => ?_
    rw [wf.ordersAt_reduce found]
    constructor
    · intro member
      exact List.mem_filterMap.mpr ⟨other, member, if_neg (by rw [otherId]; exact Ne.symm same)⟩
    · intro member
      obtain ⟨old, oldMember, taken⟩ := List.mem_filterMap.mp member
      have oldId := (takeFrom_frame taken).1.symm.trans otherId
      unfold takeFrom at taken
      rw [if_neg (by rw [oldId]; exact Ne.symm same)] at taken
      cases taken
      exact oldMember

/-- A resting order adds its quantity to its id. -/
theorem restingQuantity_rest (wf : WellFormed book arrivals) {order : RestingOrder}
    (fresh : book.index.find? order.id = none) {arrivals' : Nat}
    (wf' : WellFormed (book.rest order) arrivals') (id : OrderId) :
    (book.rest order).restingQuantity id =
      book.restingQuantity id + if order.id = id then order.quantity.toNat else 0 := by
  by_cases same : order.id = id
  · subst same
    have resting : order ∈ (book.rest order).ordersAt order.side order.price := by
      rw [ordersAt_rest, if_pos ⟨rfl, rfl⟩]
      exact List.mem_append_right _ List.mem_cons_self
    rw [if_pos rfl, wf.restingQuantity_eq_zero fresh, Nat.zero_add, wf'.restingQuantity_of_mem resting]
  · rw [if_neg same, Nat.add_zero]
    refine wf'.restingQuantity_congr wf fun side price other otherId => ?_
    rw [ordersAt_rest, List.mem_append]
    refine or_iff_left ?_
    split_ifs
    · intro isNew
      rw [List.mem_singleton.mp isNew] at otherId
      exact same otherId
    · exact List.not_mem_nil

/-- A cancel takes all that rests of its id, and nothing else. -/
theorem restingQuantity_cancel (wf : WellFormed book arrivals) (target id : OrderId) :
    (book.cancel target).1.restingQuantity id = if target = id then 0 else book.restingQuantity id := by
  by_cases same : target = id
  · rw [if_pos same]
    refine heldQuantity_eq_zero fun order member => ?_
    obtain ⟨side, price, resting⟩ := mem_walk.mp member
    rw [wf.ordersAt_cancel] at resting
    rw [← same]
    exact of_decide_eq_true (List.mem_filter.mp resting).2
  · rw [if_neg same]
    refine (wf.cancel target).restingQuantity_congr wf fun side price order orderId => ?_
    rw [wf.ordersAt_cancel, List.mem_filter, orderId]
    simp [Ne.symm same]

/-- An order that no fill names stays as it is. -/
theorem mem_applyFills (wf : WellFormed book arrivals) {fills : List (RestingOrder × Quantity)}
    (known : ∀ fill ∈ fills, fill.1 ∈ book.walk)
    (ids : fills.Pairwise fun first second => second.1.id ≠ first.1.id) {side : Side} {price : Price}
    {order : RestingOrder} (resting : order ∈ book.ordersAt side price)
    (unnamed : ∀ fill ∈ fills, fill.1.id ≠ order.id) :
    order ∈ (book.applyFills fills).ordersAt side price := by
  rw [wf.ordersAt_applyFills fills (fun fill member => ?_) ids]
  · refine List.mem_filterMap.mpr ⟨order, resting, ?_⟩
    obtain ⟨node, inQueue, rfl⟩ := List.mem_map.mp resting
    have unfilled : filledQuantity fills node.order.id = 0 := by
      unfold filledQuantity
      rw [List.find?_eq_none.mpr fun fill member => by simpa using unnamed fill member]
      rfl
    have positive := UInt64.pos_iff_ne_zero.mp (wf.positive inQueue).1
    unfold afterFills
    rw [unfilled, UInt64.sub_zero]
    exact if_neg positive
  · obtain ⟨_, _, resting'⟩ := mem_walk.mp (known fill member)
    obtain ⟨node, inQueue, same⟩ := List.mem_map.mp resting'
    rw [← same]
    exact ⟨_, wf.find?_of_mem inQueue⟩

/-- **A sweep leaves what its fills do not take.** -/
theorem restingQuantity_applyFills (wf : WellFormed book arrivals)
    (fills : List (RestingOrder × Quantity)) (known : ∀ fill ∈ fills, fill.1 ∈ book.walk)
    (ids : fills.Pairwise fun first second => second.1.id ≠ first.1.id)
    (fits : ∀ fill ∈ fills, fill.2 ≤ fill.1.quantity) (id : OrderId) :
    book.restingQuantity id = totalQuantity ((fills.filter fun fill => fill.1.id = id).map Prod.snd) +
      (book.applyFills fills).restingQuantity id := by
  induction fills generalizing book with
  | nil => exact (Nat.zero_add _).symm
  | cons fill rest ih =>
    obtain ⟨different, ids'⟩ := List.pairwise_cons.mp ids
    have here := known fill List.mem_cons_self
    have known' : ∀ later ∈ rest, later.1 ∈ (book.reduce fill.1.id fill.2).walk := by
      intro later member
      obtain ⟨side, price, resting⟩ := mem_walk.mp (known later (List.mem_cons_of_mem _ member))
      exact mem_walk.mpr ⟨side, price, wf.mem_reduce fill.2 resting here (different later member)⟩
    have taken := wf.restingQuantity_reduce here (fits fill List.mem_cons_self) id
    have later := ih (wf.reduce fill.1.id fill.2) known' ids'
      (fun fill' member => fits fill' (List.mem_cons_of_mem _ member))
    show _ = _ + ((book.reduce fill.1.id fill.2).applyFills rest).restingQuantity id
    rw [taken, later]
    by_cases same : fill.1.id = id
    · simp [same, Nat.add_assoc]
    · simp [same]

end WellFormed

end OrderBook

/-! ### The fills of the reference matcher -/

theorem fillGreedy_fits (quantity : Quantity) (orders : List RestingOrder) :
    ∀ fill ∈ (fillGreedy quantity orders).1, fill.2 ≤ fill.1.quantity := by
  induction orders generalizing quantity with
  | nil => exact fun fill member => absurd member List.not_mem_nil
  | cons order rest ih =>
    unfold fillGreedy
    split_ifs
    · exact fun fill member => absurd member List.not_mem_nil
    · intro fill member
      rcases List.mem_cons.mp member with rfl | later
      · rcases min_quantity quantity order.quantity with ⟨fits, equal⟩ | ⟨_, equal⟩
        · show min quantity order.quantity ≤ order.quantity
          rwa [equal]
        · show min quantity order.quantity ≤ order.quantity
          rw [equal]
          exact UInt64.le_refl _
      · exact ih _ fill later

theorem fillGreedy_positive (quantity : Quantity) {orders : List RestingOrder}
    (positive : ∀ order ∈ orders, order.quantity ≠ 0) :
    ∀ fill ∈ (fillGreedy quantity orders).1, fill.2 ≠ 0 := by
  induction orders generalizing quantity with
  | nil => exact fun fill member => absurd member List.not_mem_nil
  | cons order rest ih =>
    unfold fillGreedy
    split_ifs with zero
    · exact fun fill member => absurd member List.not_mem_nil
    · intro fill member
      rcases List.mem_cons.mp member with rfl | later
      · show min quantity order.quantity ≠ 0
        rcases min_quantity quantity order.quantity with ⟨_, equal⟩ | ⟨_, equal⟩
        · rwa [equal]
        · rw [equal]
          exact positive order List.mem_cons_self
      · exact ih _ (fun order' member' => positive order' (List.mem_cons_of_mem _ member')) fill later

namespace OrderBook.WellFormed

variable {book : OrderBook} {arrivals : Nat}

/-- What a well-formed book gives the matcher: fills of resting orders, positive and within them. -/
theorem referenceFills_sound (wf : WellFormed book arrivals) (cmd : NewOrder) :
    ∀ fill ∈ (referenceFills cmd (book.restingOrders (opposite cmd.side))).1,
      fill.1 ∈ book.walk ∧ fill.2 ≤ fill.1.quantity ∧ fill.2 ≠ 0 := by
  intro fill member
  have resting := (wf.referenceFills_mem cmd).subset (List.mem_map_of_mem member)
  obtain ⟨price, orderAt⟩ := mem_restingOrders.mp resting
  refine ⟨mem_walk.mpr ⟨_, price, orderAt⟩, fillGreedy_fits _ _ fill member, ?_⟩
  rw [referenceFills_eq] at member
  refine fillGreedy_positive _ (fun order listed => ?_) fill member
  obtain ⟨sorted, _⟩ := List.mem_filter.mp listed
  rw [wf.insertionSort_restingOrders] at sorted
  obtain ⟨price', orderAt'⟩ := mem_restingOrders.mp sorted
  obtain ⟨node, inQueue, rfl⟩ := List.mem_map.mp orderAt'
  exact UInt64.pos_iff_ne_zero.mp (wf.positive inQueue).1

end OrderBook.WellFormed

end Sententia
