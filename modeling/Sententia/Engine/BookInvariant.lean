/-
**The book invariant.** What holds of the order book after every command sequence.

* `WellFormed` — the dozen linked facts: no empty level, every order in the level of its own side and
  price with positive quantity, FIFO by arrival, ids and arrivals unique, the id index exactly the
  resting orders, the book uncrossed.
* `WellFormed.rest`, `WellFormed.cancel`, `WellFormed.reduce` — each book operation keeps it, under
  the precondition its caller establishes.

The operations are read through `queueAt`: one equation per operation says what it does to every
queue of the book.
-/

import Mathlib.Data.List.Pairwise
import Sententia.Engine

namespace Sententia

open Library

namespace OrderBook

/-! ### The operations on queues -/

theorem queueAt_of_find? {book : OrderBook} {side : Side} {price : Price} {queue : OrderQueue}
    (found : (book.levels side).find? price = some queue) : book.queueAt side price = queue := by
  unfold queueAt
  rw [found]
  rfl

theorem find?_of_mem_queueAt {book : OrderBook} {side : Side} {price : Price} {node : OrderNode}
    (member : node ∈ book.queueAt side price) :
    (book.levels side).find? price = some (book.queueAt side price) := by
  unfold queueAt at member ⊢
  cases found : (book.levels side).find? price with
  | none => rw [found] at member; cases member
  | some queue => rfl

theorem levels_withIndex (book : OrderBook) (index : OrderedMap OrderId Locator (· < ·))
    (side : Side) : ({ book with index } : OrderBook).levels side = book.levels side := by
  cases side <;> rfl

theorem queueAt_withIndex (book : OrderBook) (index : OrderedMap OrderId Locator (· < ·))
    (side : Side) (price : Price) :
    ({ book with index } : OrderBook).queueAt side price = book.queueAt side price := by
  unfold queueAt
  rw [levels_withIndex]

theorem queueAt_setLevels_insert (book : OrderBook) (side other : Side) (price price' : Price)
    (queue : OrderQueue) :
    (book.setLevels side ((book.levels side).insert price queue)).queueAt other price' =
      if other = side ∧ price' = price then queue else book.queueAt other price' := by
  unfold queueAt
  by_cases sameSide : other = side
  · subst sameSide
    rw [levels_setLevels_self, OrderedMap.find?_insert]
    by_cases samePrice : price' = price <;> simp [samePrice]
  · rw [levels_setLevels_ne book sameSide, if_neg (fun both => sameSide both.1)]

theorem queueAt_setLevels_erase (book : OrderBook) (side other : Side) (price price' : Price) :
    (book.setLevels side ((book.levels side).erase price)).queueAt other price' =
      if other = side ∧ price' = price then [] else book.queueAt other price' := by
  unfold queueAt
  by_cases sameSide : other = side
  · subst sameSide
    rw [levels_setLevels_self, OrderedMap.find?_erase]
    by_cases samePrice : price' = price <;> simp [samePrice]
  · rw [levels_setLevels_ne book sameSide, if_neg (fun both => sameSide both.1)]

theorem queueAt_putQueue (book : OrderBook) (side other : Side) (price price' : Price)
    (queue : OrderQueue) :
    (book.putQueue side price queue).queueAt other price' =
      if other = side ∧ price' = price then queue else book.queueAt other price' := by
  unfold putQueue
  by_cases gone : queue.isEmpty
  · rw [if_pos gone, queueAt_setLevels_erase, List.isEmpty_iff.mp gone]
  · rw [if_neg gone, queueAt_setLevels_insert]

/-- What `rest` does to every queue: one order joins the back of its own. -/
theorem queueAt_rest (book : OrderBook) (order : RestingOrder) (side : Side) (price : Price) :
    (book.rest order).queueAt side price =
      if side = order.side ∧ price = order.price then
        book.queueAt side price ++ [{ address := book.nextAddress, order }]
      else book.queueAt side price := by
  have onQueues : (book.rest order).queueAt side price =
      (book.setLevels order.side ((book.levels order.side).insert order.price
        (book.queueAt order.side order.price ++ [{ address := book.nextAddress, order }]))).queueAt
          side price := by
    cases side <;> rfl
  rw [onQueues, queueAt_setLevels_insert]
  by_cases here : side = order.side ∧ price = order.price
  · rw [if_pos here, if_pos here, here.1, here.2]
  · rw [if_neg here, if_neg here]

/-- What `eraseLocated` does to every queue: the located node leaves its own. -/
theorem queueAt_eraseLocated (book : OrderBook) (loc : Locator) (id : OrderId) (side : Side)
    (price : Price) :
    (book.eraseLocated loc id).queueAt side price =
      if side = loc.side ∧ price = loc.price then
        (book.queueAt side price).filter fun node => node.address ≠ loc.it
      else book.queueAt side price := by
  unfold eraseLocated
  cases found : (book.levels loc.side).find? loc.price with
  | none =>
    simp only [queueAt_withIndex]
    by_cases here : side = loc.side ∧ price = loc.price
    · obtain ⟨rfl, rfl⟩ := here
      simp [queueAt, found]
    · rw [if_neg here]
  | some queue =>
    simp only [queueAt_withIndex, queueAt_putQueue]
    by_cases here : side = loc.side ∧ price = loc.price
    · rw [if_pos here, if_pos here, here.1, here.2, queueAt_of_find? found]
    · rw [if_neg here, if_neg here]

@[simp] theorem index_putQueue (book : OrderBook) (side : Side) (price : Price)
    (queue : OrderQueue) : (book.putQueue side price queue).index = book.index := by
  unfold putQueue
  split <;> rw [index_setLevels]

@[simp] theorem nextAddress_putQueue (book : OrderBook) (side : Side) (price : Price)
    (queue : OrderQueue) : (book.putQueue side price queue).nextAddress = book.nextAddress := by
  unfold putQueue
  split <;> rw [nextAddress_setLevels]

@[simp] theorem index_eraseLocated (book : OrderBook) (loc : Locator) (id : OrderId) :
    (book.eraseLocated loc id).index = book.index.erase id := by
  unfold eraseLocated
  cases (book.levels loc.side).find? loc.price with
  | none => rfl
  | some queue => simp only [index_putQueue]

@[simp] theorem nextAddress_eraseLocated (book : OrderBook) (loc : Locator) (id : OrderId) :
    (book.eraseLocated loc id).nextAddress = book.nextAddress := by
  unfold eraseLocated
  cases (book.levels loc.side).find? loc.price with
  | none => rfl
  | some queue => simp only [nextAddress_putQueue]

/-! ### No empty level -/

/-- Every level of the book holds at least one order. -/
def NoEmptyLevel (book : OrderBook) : Prop :=
  ∀ side price, (book.levels side).find? price ≠ some []

theorem NoEmptyLevel.setLevels_insert {book : OrderBook} (holds : book.NoEmptyLevel) (side : Side)
    (price : Price) {queue : OrderQueue} (notEmpty : queue ≠ []) :
    (book.setLevels side ((book.levels side).insert price queue)).NoEmptyLevel := by
  intro other price'
  by_cases sameSide : other = side
  · subst sameSide
    rw [levels_setLevels_self, OrderedMap.find?_insert]
    by_cases samePrice : price' = price
    · simpa [samePrice] using notEmpty
    · rw [if_neg samePrice]
      exact holds other price'
  · rw [levels_setLevels_ne book sameSide]
    exact holds other price'

theorem NoEmptyLevel.putQueue {book : OrderBook} (holds : book.NoEmptyLevel) (side : Side)
    (price : Price) (queue : OrderQueue) : (book.putQueue side price queue).NoEmptyLevel := by
  unfold OrderBook.putQueue
  by_cases gone : queue.isEmpty
  · rw [if_pos gone]
    intro other price'
    by_cases sameSide : other = side
    · subst sameSide
      rw [levels_setLevels_self, OrderedMap.find?_erase]
      by_cases samePrice : price' = price
      · simp [samePrice]
      · rw [if_neg samePrice]
        exact holds other price'
    · rw [levels_setLevels_ne book sameSide]
      exact holds other price'
  · rw [if_neg gone]
    exact holds.setLevels_insert side price (fun empty => gone (by rw [empty]; rfl))

theorem NoEmptyLevel.eraseLocated {book : OrderBook} (holds : book.NoEmptyLevel) (loc : Locator)
    (id : OrderId) : (book.eraseLocated loc id).NoEmptyLevel := by
  intro side price
  unfold OrderBook.eraseLocated
  cases found : (book.levels loc.side).find? loc.price with
  | none =>
    simp only [levels_withIndex]
    exact holds side price
  | some queue =>
    simp only [levels_withIndex]
    exact holds.putQueue _ _ _ side price

theorem NoEmptyLevel.rest {book : OrderBook} (holds : book.NoEmptyLevel) (order : RestingOrder) :
    (book.rest order).NoEmptyLevel := by
  intro side price
  have notEmpty : book.queueAt order.side order.price ++ [{ address := book.nextAddress, order }] ≠ [] :=
    by simp
  have inserted := holds.setLevels_insert order.side order.price notEmpty side price
  cases side <;> exact inserted

/-! ### The invariant -/

/-- The lists and the index fit together: no empty level, node addresses fresh and unique, and the index
exactly the nodes. -/
structure Linked (book : OrderBook) : Prop where
  noEmptyLevel : book.NoEmptyLevel
  allocated : ∀ {side price node}, node ∈ book.queueAt side price → node.address < book.nextAddress
  distinct : ∀ side price,
    (book.queueAt side price).Pairwise fun first second => first.address ≠ second.address
  indexed : ∀ id loc, book.index.find? id = some loc ↔
    ∃ node ∈ book.queueAt loc.side loc.price, node.address = loc.it ∧ node.order.id = id

/-- **The book invariant**, with `arrivals` the number of orders that have come to rest so far. -/
structure WellFormed (book : OrderBook) (arrivals : Nat) : Prop where
  noEmptyLevel : book.NoEmptyLevel
  placed : ∀ {side price node}, node ∈ book.queueAt side price →
    node.order.side = side ∧ node.order.price = price
  positive : ∀ {side price node}, node ∈ book.queueAt side price →
    0 < node.order.quantity ∧ 0 < price
  arrived : ∀ {side price node}, node ∈ book.queueAt side price → node.order.arrival ≤ arrivals
  fifo : ∀ side price,
    (book.queueAt side price).Pairwise fun first second => first.order.arrival < second.order.arrival
  allocated : ∀ {side price node}, node ∈ book.queueAt side price → node.address < book.nextAddress
  distinct : ∀ side price,
    (book.queueAt side price).Pairwise fun first second => first.address ≠ second.address
  indexed : ∀ id loc, book.index.find? id = some loc ↔
    ∃ node ∈ book.queueAt loc.side loc.price, node.address = loc.it ∧ node.order.id = id
  arrivalUnique : ∀ {side side' price price' node node'}, node ∈ book.queueAt side price →
    node' ∈ book.queueAt side' price' → node.order.arrival = node'.order.arrival →
      node.order.id = node'.order.id
  uncrossed : ∀ {bid ask}, book.queueAt .buy bid ≠ [] → book.queueAt .sell ask ≠ [] → bid < ask

theorem wellFormed_empty : WellFormed {} 0 := by
  have nothing : ∀ side price, ({} : OrderBook).queueAt side price = [] := by
    intro side price
    cases side <;> rfl
  refine ⟨fun side price => ?_, ?_, ?_, ?_, ?_, ?_, ?_, ?_, ?_, ?_⟩
  · cases side <;> exact fun found => nomatch found
  · intro side price node member; rw [nothing] at member; cases member
  · intro side price node member; rw [nothing] at member; cases member
  · intro side price node member; rw [nothing] at member; cases member
  · intro side price; rw [nothing]; exact List.Pairwise.nil
  · intro side price node member; rw [nothing] at member; cases member
  · intro side price; rw [nothing]; exact List.Pairwise.nil
  · intro id loc
    constructor
    · intro found; cases found
    · rintro ⟨node, member, _⟩; rw [nothing] at member; cases member
  · intro side side' price price' node node' member; rw [nothing] at member; cases member
  · intro bid ask notEmpty; exact absurd (nothing .buy bid) notEmpty

namespace WellFormed

variable {book : OrderBook} {arrivals : Nat}

/-- The locator of a resting order. -/
theorem find?_of_mem (wf : WellFormed book arrivals) {side : Side} {price : Price}
    {node : OrderNode} (member : node ∈ book.queueAt side price) :
    book.index.find? node.order.id = some { side, price, it := node.address } :=
  (wf.indexed _ _).mpr ⟨node, member, rfl, rfl⟩

theorem eq_of_address (wf : WellFormed book arrivals) {side : Side} {price : Price}
    {node node' : OrderNode} (member : node ∈ book.queueAt side price)
    (member' : node' ∈ book.queueAt side price) (same : node.address = node'.address) :
    node = node' := by
  have symmetric : Std.Symm fun first second : OrderNode => first.address ≠ second.address :=
    ⟨fun _ _ ne => ne.symm⟩
  by_contra different
  exact (wf.distinct side price).forall member member' different same

/-- **Ids are unique across the book**, and an id determines where its order rests. -/
theorem eq_of_id (wf : WellFormed book arrivals) {side side' : Side} {price price' : Price}
    {node node' : OrderNode} (member : node ∈ book.queueAt side price)
    (member' : node' ∈ book.queueAt side' price') (same : node.order.id = node'.order.id) :
    side = side' ∧ price = price' ∧ node = node' := by
  have first := wf.find?_of_mem member
  have second := wf.find?_of_mem member'
  rw [same, second] at first
  simp only [Option.some.injEq, Locator.mk.injEq] at first
  obtain ⟨rfl, rfl, sameAddress⟩ := first
  exact ⟨rfl, rfl, wf.eq_of_address member member' sameAddress.symm⟩

/-- The located node, its queue and its order. -/
theorem located (wf : WellFormed book arrivals) {id : OrderId} {loc : Locator}
    (found : book.index.find? id = some loc) :
    ∃ node ∈ book.queueAt loc.side loc.price, node.address = loc.it ∧ node.order.id = id ∧
      book.deref loc = some node.order := by
  obtain ⟨node, member, address, sameId⟩ := (wf.indexed id loc).mp found
  refine ⟨node, member, address, sameId, ?_⟩
  unfold deref
  cases search : (book.queueAt loc.side loc.price).find? fun node => node.address = loc.it with
  | none =>
    have missing := List.find?_eq_none.mp search node member
    simp [address] at missing
  | some other =>
    have otherMember := List.mem_of_find?_eq_some search
    have otherAddress := List.find?_some search
    simp only [decide_eq_true_eq] at otherAddress
    rw [wf.eq_of_address otherMember member (otherAddress.trans address.symm)]
    rfl

/-- In its own queue, the located node is the only one at its address. -/
theorem address_iff_id (wf : WellFormed book arrivals) {id : OrderId} {loc : Locator}
    (found : book.index.find? id = some loc) {node : OrderNode}
    (member : node ∈ book.queueAt loc.side loc.price) :
    node.address = loc.it ↔ node.order.id = id := by
  obtain ⟨target, targetMember, address, sameId, _⟩ := wf.located found
  constructor
  · intro same
    rw [wf.eq_of_address member targetMember (same.trans address.symm), sameId]
  · intro same
    rw [(wf.eq_of_id member targetMember (same.trans sameId.symm)).2.2, address]

/-! ### Removing a located order -/

theorem mem_eraseLocated (wf : WellFormed book arrivals) {id : OrderId} {loc : Locator}
    (found : book.index.find? id = some loc) {side : Side} {price : Price} {node : OrderNode} :
    node ∈ (book.eraseLocated loc id).queueAt side price ↔
      node ∈ book.queueAt side price ∧ node.order.id ≠ id := by
  rw [queueAt_eraseLocated]
  by_cases here : side = loc.side ∧ price = loc.price
  · obtain ⟨rfl, rfl⟩ := here
    rw [if_pos ⟨rfl, rfl⟩, List.mem_filter]
    simp only [decide_eq_true_eq]
    constructor
    · rintro ⟨member, other⟩
      exact ⟨member, fun same => other ((wf.address_iff_id found member).mpr same)⟩
    · rintro ⟨member, other⟩
      exact ⟨member, fun same => other ((wf.address_iff_id found member).mp same)⟩
  · rw [if_neg here]
    constructor
    · intro member
      refine ⟨member, fun same => here ?_⟩
      obtain ⟨target, targetMember, _, sameId, _⟩ := wf.located found
      obtain ⟨sideEq, priceEq, _⟩ := wf.eq_of_id member targetMember (same.trans sameId.symm)
      exact ⟨sideEq, priceEq⟩
    · exact fun both => both.1

theorem sublist_eraseLocated (book : OrderBook) (loc : Locator) (id : OrderId) (side : Side)
    (price : Price) :
    ((book.eraseLocated loc id).queueAt side price).Sublist (book.queueAt side price) := by
  rw [queueAt_eraseLocated]
  split
  · exact List.filter_sublist
  · exact List.Sublist.refl _

/-- **Removing a located order keeps the invariant.** -/
theorem eraseLocated (wf : WellFormed book arrivals) {id : OrderId} {loc : Locator}
    (found : book.index.find? id = some loc) :
    WellFormed (book.eraseLocated loc id) arrivals where
  noEmptyLevel := wf.noEmptyLevel.eraseLocated loc id
  placed member := wf.placed ((wf.mem_eraseLocated found).mp member).1
  positive member := wf.positive ((wf.mem_eraseLocated found).mp member).1
  arrived member := wf.arrived ((wf.mem_eraseLocated found).mp member).1
  fifo side price := (wf.fifo side price).sublist (sublist_eraseLocated book loc id side price)
  allocated member := by
    rw [nextAddress_eraseLocated]
    exact wf.allocated ((wf.mem_eraseLocated found).mp member).1
  distinct side price :=
    (wf.distinct side price).sublist (sublist_eraseLocated book loc id side price)
  indexed other loc' := by
    rw [index_eraseLocated, OrderedMap.find?_erase]
    by_cases same : other = id
    · rw [if_pos same]
      constructor
      · intro none; cases none
      · rintro ⟨node, member, _, sameId⟩
        exact absurd (sameId.trans same) ((wf.mem_eraseLocated found).mp member).2
    · rw [if_neg same, wf.indexed]
      constructor
      · rintro ⟨node, member, address, sameId⟩
        refine ⟨node, (wf.mem_eraseLocated found).mpr ⟨member, ?_⟩, address, sameId⟩
        rw [sameId]
        exact same
      · rintro ⟨node, member, address, sameId⟩
        exact ⟨node, ((wf.mem_eraseLocated found).mp member).1, address, sameId⟩
  arrivalUnique member member' := wf.arrivalUnique ((wf.mem_eraseLocated found).mp member).1
    ((wf.mem_eraseLocated found).mp member').1
  uncrossed notEmpty notEmpty' := by
    refine wf.uncrossed (fun empty => notEmpty ?_) (fun empty => notEmpty' ?_)
    · exact List.sublist_nil.mp (empty ▸ sublist_eraseLocated book loc id .buy _)
    · exact List.sublist_nil.mp (empty ▸ sublist_eraseLocated book loc id .sell _)

/-! ### Lowering a quantity -/

theorem lowerQuantity_frame (address : Nat) (amount : Quantity) (node : OrderNode) :
    (lowerQuantity address amount node).address = node.address ∧
      (lowerQuantity address amount node).order.id = node.order.id ∧
      (lowerQuantity address amount node).order.side = node.order.side ∧
      (lowerQuantity address amount node).order.price = node.order.price ∧
      (lowerQuantity address amount node).order.arrival = node.order.arrival := by
  unfold lowerQuantity
  split <;> exact ⟨rfl, rfl, rfl, rfl, rfl⟩

theorem queueAt_lowered (book : OrderBook) (loc : Locator) (amount : Quantity) (side : Side)
    (price : Price) :
    (lowered book loc amount).queueAt side price =
      (book.queueAt side price).map
        (if side = loc.side ∧ price = loc.price then lowerQuantity loc.it amount else id) := by
  unfold lowered
  rw [queueAt_setLevels_insert]
  by_cases here : side = loc.side ∧ price = loc.price
  · rw [if_pos here, if_pos here, here.1, here.2]
  · rw [if_neg here, if_neg here, List.map_id]

/-- Every node of the lowered book is a node of the old one, up to its quantity. -/
theorem mem_lowered {book : OrderBook} {loc : Locator} {amount : Quantity} {side : Side}
    {price : Price} {node : OrderNode} (member : node ∈ (lowered book loc amount).queueAt side price) :
    ∃ old ∈ book.queueAt side price, node.address = old.address ∧ node.order.id = old.order.id ∧
      node.order.side = old.order.side ∧ node.order.price = old.order.price ∧
      node.order.arrival = old.order.arrival ∧
      (node.order.quantity = old.order.quantity ∨ (old.address = loc.it ∧
        side = loc.side ∧ price = loc.price ∧
        node.order.quantity = old.order.quantity - amount)) := by
  rw [queueAt_lowered] at member
  obtain ⟨old, oldMember, rfl⟩ := List.mem_map.mp member
  refine ⟨old, oldMember, ?_⟩
  by_cases here : side = loc.side ∧ price = loc.price
  · rw [if_pos here]
    obtain ⟨address, sameId, sameSide, samePrice, sameArrival⟩ :=
      lowerQuantity_frame loc.it amount old
    refine ⟨address, sameId, sameSide, samePrice, sameArrival, ?_⟩
    unfold lowerQuantity
    by_cases target : old.address = loc.it
    · rw [if_pos target]
      exact Or.inr ⟨target, here.1, here.2, rfl⟩
    · rw [if_neg target]
      exact Or.inl rfl
  · rw [if_neg here]
    exact ⟨rfl, rfl, rfl, rfl, rfl, Or.inl rfl⟩

/-- And every node of the old book survives, up to its quantity. -/
theorem mem_lowered_of_mem {book : OrderBook} (loc : Locator) (amount : Quantity) {side : Side}
    {price : Price} {old : OrderNode} (oldMember : old ∈ book.queueAt side price) :
    ∃ node ∈ (lowered book loc amount).queueAt side price, node.address = old.address ∧
      node.order.id = old.order.id := by
  rw [queueAt_lowered]
  refine ⟨_, List.mem_map_of_mem oldMember, ?_⟩
  split
  · obtain ⟨address, sameId, _⟩ := lowerQuantity_frame loc.it amount old
    exact ⟨address, sameId⟩
  · exact ⟨rfl, rfl⟩

theorem lowered_eq_nil_iff (book : OrderBook) (loc : Locator) (amount : Quantity) (side : Side)
    (price : Price) :
    (lowered book loc amount).queueAt side price = [] ↔ book.queueAt side price = [] := by
  rw [queueAt_lowered, List.map_eq_nil_iff]

/-- Facts about two nodes that do not read the quantity carry over to the lowered queues. -/
theorem pairwise_lowered {relation : OrderNode → OrderNode → Prop} {book : OrderBook}
    (loc : Locator) (amount : Quantity) {side : Side} {price : Price}
    (blind : ∀ first second, relation first second →
      relation (lowerQuantity loc.it amount first) (lowerQuantity loc.it amount second))
    (pairwise : (book.queueAt side price).Pairwise relation) :
    ((lowered book loc amount).queueAt side price).Pairwise relation := by
  rw [queueAt_lowered, List.pairwise_map]
  refine pairwise.imp fun related => ?_
  split
  · exact blind _ _ related
  · exact related

/-- **Lowering a quantity that does not reach zero keeps the invariant.** -/
theorem lower (wf : WellFormed book arrivals) {id : OrderId} {loc : Locator} {order : RestingOrder}
    {amount : Quantity} (found : book.index.find? id = some loc) (target : book.deref loc = some order)
    (left : order.quantity - amount ≠ 0) : WellFormed (lowered book loc amount) arrivals where
  noEmptyLevel := by
    refine wf.noEmptyLevel.setLevels_insert _ _ ?_
    obtain ⟨node, member, _⟩ := wf.located found
    exact fun empty => List.ne_nil_of_mem member (List.map_eq_nil_iff.mp empty)
  placed member := by
    obtain ⟨old, oldMember, _, _, sameSide, samePrice, _⟩ := mem_lowered member
    rw [sameSide, samePrice]
    exact wf.placed oldMember
  positive member := by
    obtain ⟨old, oldMember, _, _, _, _, _, same | ⟨address, rfl, rfl, less⟩⟩ := mem_lowered member
    · rw [same]
      exact wf.positive oldMember
    · obtain ⟨node, nodeMember, nodeAddress, _, deref⟩ := wf.located found
      rw [target] at deref
      cases deref
      rw [wf.eq_of_address oldMember nodeMember (address.trans nodeAddress.symm)] at less
      rw [less]
      exact ⟨UInt64.pos_iff_ne_zero.mpr left, (wf.positive oldMember).2⟩
  arrived member := by
    obtain ⟨old, oldMember, _, _, _, _, sameArrival, _⟩ := mem_lowered member
    rw [sameArrival]
    exact wf.arrived oldMember
  fifo side price := by
    refine pairwise_lowered loc amount (fun first second less => ?_) (wf.fifo side price)
    rw [(lowerQuantity_frame loc.it amount first).2.2.2.2,
      (lowerQuantity_frame loc.it amount second).2.2.2.2]
    exact less
  allocated member := by
    obtain ⟨old, oldMember, sameAddress, _⟩ := mem_lowered member
    unfold lowered
    rw [sameAddress, nextAddress_setLevels]
    exact wf.allocated oldMember
  distinct side price := by
    refine pairwise_lowered loc amount (fun first second different => ?_) (wf.distinct side price)
    rw [(lowerQuantity_frame loc.it amount first).1, (lowerQuantity_frame loc.it amount second).1]
    exact different
  indexed other loc' := by
    have sameIndex : (lowered book loc amount).index = book.index := index_setLevels _ _ _
    rw [sameIndex, wf.indexed]
    constructor
    · rintro ⟨node, member, address, sameId⟩
      obtain ⟨new, newMember, newAddress, newId⟩ := mem_lowered_of_mem loc amount member
      exact ⟨new, newMember, newAddress.trans address, newId.trans sameId⟩
    · rintro ⟨node, member, address, sameId⟩
      obtain ⟨old, oldMember, oldAddress, oldId, _⟩ := mem_lowered member
      exact ⟨old, oldMember, oldAddress.symm.trans address, oldId.symm.trans sameId⟩
  arrivalUnique member member' same := by
    obtain ⟨old, oldMember, _, oldId, _, _, oldArrival, _⟩ := mem_lowered member
    obtain ⟨old', oldMember', _, oldId', _, _, oldArrival', _⟩ := mem_lowered member'
    rw [oldId, oldId']
    exact wf.arrivalUnique oldMember oldMember' (oldArrival.symm.trans (same.trans oldArrival'))
  uncrossed notEmpty notEmpty' := wf.uncrossed
    (fun empty => notEmpty ((lowered_eq_nil_iff book loc amount _ _).mpr empty))
    (fun empty => notEmpty' ((lowered_eq_nil_iff book loc amount _ _).mpr empty))

/-! ### Reducing and cancelling -/

theorem filter_map_lowerQuantity (address : Nat) (amount : Quantity) (queue : OrderQueue) :
    (queue.map (lowerQuantity address amount)).filter (fun node => node.address ≠ address) =
      queue.filter fun node => node.address ≠ address := by
  induction queue with
  | nil => rfl
  | cons node rest ih =>
    have frame := (lowerQuantity_frame address amount node).1
    by_cases target : node.address = address
    · rw [List.map_cons, List.filter_cons_of_neg (by simp [frame, target]),
        List.filter_cons_of_neg (by simp [target]), ih]
    · have same : lowerQuantity address amount node = node := by
        unfold lowerQuantity
        rw [if_neg target]
      rw [List.map_cons, same, List.filter_cons_of_pos (by simp [target]),
        List.filter_cons_of_pos (by simp [target]), ih]

/-- An exhausted order is removed as if it had not been lowered first. -/
theorem eraseLocated_lowered {book : OrderBook} {loc : Locator} {queue : OrderQueue} (id : OrderId)
    (amount : Quantity) (found : (book.levels loc.side).find? loc.price = some queue) :
    (lowered book loc amount).eraseLocated loc id = book.eraseLocated loc id := by
  have here : (lowered book loc amount).levels loc.side = (book.levels loc.side).insert loc.price
      (queue.map (lowerQuantity loc.it amount)) := by
    unfold lowered
    rw [levels_setLevels_self, queueAt_of_find? found]
  have put : ∀ queue', (lowered book loc amount).putQueue loc.side loc.price queue' =
      book.putQueue loc.side loc.price queue' := by
    intro queue'
    unfold putQueue
    rw [here, OrderedMap.erase_insert_self, OrderedMap.insert_insert_self]
    unfold lowered
    rw [setLevels_setLevels, setLevels_setLevels]
  unfold OrderBook.eraseLocated
  rw [here, OrderedMap.find?_insert_self, found]
  simp only [put, filter_map_lowerQuantity]

/-- What `reduce` does: nothing to an unknown id, a removal when the order is used up, else a lower
quantity. -/
theorem reduce_eq (wf : WellFormed book arrivals) {id : OrderId} {loc : Locator}
    {order : RestingOrder} (found : book.index.find? id = some loc)
    (target : book.deref loc = some order) (amount : Quantity) :
    book.reduce id amount = if order.quantity - amount = 0 then book.eraseLocated loc id
      else lowered book loc amount := by
  obtain ⟨node, member, _⟩ := wf.located found
  have level := find?_of_mem_queueAt member
  unfold OrderBook.reduce
  simp only [found, target]
  split
  · exact eraseLocated_lowered id amount level
  · rfl

/-- **`reduce` keeps the invariant.** -/
theorem reduce (wf : WellFormed book arrivals) (id : OrderId) (amount : Quantity) :
    WellFormed (book.reduce id amount) arrivals := by
  cases found : book.index.find? id with
  | none =>
    unfold OrderBook.reduce
    simp only [found]
    exact wf
  | some loc =>
    obtain ⟨node, _, _, _, target⟩ := wf.located found
    rw [wf.reduce_eq found target]
    split
    · exact wf.eraseLocated found
    · rename_i left
      exact wf.lower found target left

/-- What `cancel` does on a well-formed book. -/
theorem cancel_eq (wf : WellFormed book arrivals) {id : OrderId} {loc : Locator}
    (found : book.index.find? id = some loc) :
    ∃ node ∈ book.queueAt loc.side loc.price, node.order.id = id ∧
      book.cancel id = (book.eraseLocated loc id, some node.order) := by
  obtain ⟨node, member, _, sameId, target⟩ := wf.located found
  refine ⟨node, member, sameId, ?_⟩
  unfold OrderBook.cancel
  simp only [found, target]

/-- **`cancel` keeps the invariant.** -/
theorem cancel (wf : WellFormed book arrivals) (id : OrderId) :
    WellFormed (book.cancel id).1 arrivals := by
  cases found : book.index.find? id with
  | none =>
    rw [cancel_unknown found]
    exact wf
  | some loc =>
    obtain ⟨node, _, _, equation⟩ := wf.cancel_eq found
    rw [equation]
    exact wf.eraseLocated found

end WellFormed

/-! ### Resting an order -/

theorem mem_rest {book : OrderBook} {order : RestingOrder} {side : Side} {price : Price}
    {node : OrderNode} (member : node ∈ (book.rest order).queueAt side price) :
    node ∈ book.queueAt side price ∨
      (side = order.side ∧ price = order.price ∧ node = { address := book.nextAddress, order }) := by
  rw [queueAt_rest] at member
  by_cases here : side = order.side ∧ price = order.price
  · rw [if_pos here, List.mem_append, List.mem_singleton] at member
    rcases member with member | rfl
    · exact Or.inl member
    · exact Or.inr ⟨here.1, here.2, rfl⟩
  · rw [if_neg here] at member
    exact Or.inl member

theorem mem_rest_of_mem {book : OrderBook} (order : RestingOrder) {side : Side} {price : Price}
    {node : OrderNode} (member : node ∈ book.queueAt side price) :
    node ∈ (book.rest order).queueAt side price := by
  rw [queueAt_rest]
  split
  · exact List.mem_append_left _ member
  · exact member

theorem mem_rest_new (book : OrderBook) (order : RestingOrder) :
    { address := book.nextAddress, order } ∈ (book.rest order).queueAt order.side order.price := by
  rw [queueAt_rest, if_pos ⟨rfl, rfl⟩]
  exact List.mem_append_right _ (List.mem_singleton.mpr rfl)

/-- A level of the book after `rest`: an old one, or the level of the new order. -/
theorem rest_ne_nil {book : OrderBook} {order : RestingOrder} {side : Side} {price : Price}
    (notEmpty : (book.rest order).queueAt side price ≠ []) :
    book.queueAt side price ≠ [] ∨ (side = order.side ∧ price = order.price) := by
  obtain ⟨node, member⟩ := List.exists_mem_of_ne_nil _ notEmpty
  rcases mem_rest member with old | ⟨sameSide, samePrice, _⟩
  · exact Or.inl (List.ne_nil_of_mem old)
  · exact Or.inr ⟨sameSide, samePrice⟩

/-- A book whose lists and index fit together, after an order with a new id has come to rest. -/
theorem Linked.rest {book : OrderBook} (linked : book.Linked) {order : RestingOrder}
    (fresh : book.index.find? order.id = none) : (book.rest order).Linked where
  noEmptyLevel := linked.noEmptyLevel.rest order
  allocated member := by
    rcases mem_rest member with old | ⟨rfl, rfl, rfl⟩
    · exact Nat.lt_succ_of_lt (linked.allocated old)
    · exact Nat.lt_succ_self _
  distinct side price' := by
    rw [queueAt_rest]
    split
    · refine List.pairwise_append.mpr ⟨linked.distinct side price', List.pairwise_singleton _ _, ?_⟩
      intro node member new isNew
      rw [List.mem_singleton.mp isNew]
      exact Nat.ne_of_lt (linked.allocated member)
    · exact linked.distinct side price'
  indexed id loc := by
    have absent : book.index.contains order.id = false := by
      unfold OrderedMap.contains
      rw [fresh]
      rfl
    have newIndex : (book.rest order).index = book.index.insert order.id
        { side := order.side, price := order.price, it := book.nextAddress } := by
      unfold OrderBook.rest
      simp only [absent, Bool.false_eq_true, if_false]
    rw [newIndex, OrderedMap.find?_insert]
    by_cases same : id = order.id
    · subst same
      rw [if_pos rfl, Option.some.injEq]
      constructor
      · rintro rfl
        exact ⟨_, mem_rest_new book order, rfl, rfl⟩
      · rintro ⟨node, member, address, sameId⟩
        rcases mem_rest member with old | ⟨sideEq, priceEq, rfl⟩
        · have found := (linked.indexed order.id _).mpr ⟨node, old, address, sameId⟩
          rw [fresh] at found
          cases found
        · cases loc
          simp only at sideEq priceEq address
          rw [sideEq, priceEq, ← address]
    · rw [if_neg same, linked.indexed]
      constructor
      · rintro ⟨node, member, address, sameId⟩
        exact ⟨node, mem_rest_of_mem order member, address, sameId⟩
      · rintro ⟨node, member, address, sameId⟩
        rcases mem_rest member with old | ⟨_, _, rfl⟩
        · exact ⟨node, old, address, sameId⟩
        · exact absurd sameId.symm same

theorem WellFormed.linked {book : OrderBook} {arrivals : Nat} (wf : WellFormed book arrivals) :
    book.Linked :=
  ⟨wf.noEmptyLevel, wf.allocated, wf.distinct, wf.indexed⟩

/-- **`rest` keeps the invariant** when the order is new, positive, the next arrival, and its price
crosses no resting price. -/
theorem WellFormed.rest {book : OrderBook} {arrivals : Nat} (wf : WellFormed book arrivals)
    {order : RestingOrder}
    (fresh : book.index.find? order.id = none) (quantity : 0 < order.quantity)
    (price : 0 < order.price) (next : order.arrival = arrivals + 1)
    (outside : ∀ resting, book.queueAt (opposite order.side) resting ≠ [] →
      better (opposite order.side) order.price resting) :
    WellFormed (book.rest order) (arrivals + 1) where
  noEmptyLevel := wf.noEmptyLevel.rest order
  placed member := by
    rcases mem_rest member with old | ⟨rfl, rfl, rfl⟩
    · exact wf.placed old
    · exact ⟨rfl, rfl⟩
  positive member := by
    rcases mem_rest member with old | ⟨rfl, rfl, rfl⟩
    · exact wf.positive old
    · exact ⟨quantity, price⟩
  arrived member := by
    rcases mem_rest member with old | ⟨rfl, rfl, rfl⟩
    · exact Nat.le_succ_of_le (wf.arrived old)
    · exact Nat.le_of_eq next
  fifo side price' := by
    rw [queueAt_rest]
    split
    · refine List.pairwise_append.mpr ⟨wf.fifo side price', List.pairwise_singleton _ _, ?_⟩
      intro node member new isNew
      rw [List.mem_singleton.mp isNew, next]
      exact Nat.lt_succ_of_le (wf.arrived member)
    · exact wf.fifo side price'
  allocated := (wf.linked.rest fresh).allocated
  distinct := (wf.linked.rest fresh).distinct
  indexed := (wf.linked.rest fresh).indexed
  arrivalUnique member member' same := by
    rcases mem_rest member with old | ⟨_, _, rfl⟩ <;>
      rcases mem_rest member' with old' | ⟨_, _, rfl⟩
    · exact wf.arrivalUnique old old' same
    · have bound := wf.arrived old
      simp only [next] at same
      omega
    · have bound := wf.arrived old'
      simp only [next] at same
      omega
    · rfl
  uncrossed someBid someAsk := by
    rcases rest_ne_nil someBid with oldBid | ⟨bidSide, rfl⟩ <;>
      rcases rest_ne_nil someAsk with oldAsk | ⟨askSide, rfl⟩
    · exact wf.uncrossed oldBid oldAsk
    · rw [← askSide] at outside
      exact outside _ oldBid
    · rw [← bidSide] at outside
      exact outside _ oldAsk
    · rw [← bidSide] at askSide
      cases askSide

end OrderBook

end Sententia
