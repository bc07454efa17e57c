/-
**When a failed restore leaves the engine as it was.** `restore` checks the instrument and every order
before it touches anything, but it looks for repeated ids while it rests the orders in a new book. A
snapshot that repeats an id is refused with the orders in front of the repeat left in place of the book.

* `beforeRepeat` — the orders in front of the first repeated id.
* `restAll_holds` — the book a rebuild ends with holds exactly these.
* `restore_failed_unchanged_iff` — the engine is unchanged exactly if one of the early checks refused
  the snapshot, or if the engine's book holds just these orders already.
-/

import Sententia.Engine.Snapshot

namespace Sententia

open Library

/-- The orders in front of the first one whose id has been seen. -/
def beforeRepeat (seen : List RestingOrder) : List RestingOrder → List RestingOrder
  | [] => []
  | order :: rest =>
    if seen.any fun earlier => earlier.id = order.id then []
    else order :: beforeRepeat (seen ++ [order]) rest

theorem beforeRepeat_ids {seen orders : List RestingOrder}
    (ids : seen.Pairwise fun first second => first.id ≠ second.id) :
    (seen ++ beforeRepeat seen orders).Pairwise fun first second => first.id ≠ second.id := by
  induction orders generalizing seen with
  | nil => simpa [beforeRepeat] using ids
  | cons order rest ih =>
    unfold beforeRepeat
    split_ifs with repeated
    · simpa using ids
    · rw [List.append_cons]
      refine ih (List.pairwise_append.mpr ⟨ids, List.pairwise_singleton _ _, ?_⟩)
      intro earlier member last isLast same
      rw [List.mem_singleton.mp isLast] at same
      exact repeated (List.any_eq_true.mpr ⟨earlier, member, decide_eq_true same⟩)

namespace OrderBook

/-- A book that holds exactly the given orders: every level lists those at its price, in their order, and
the index leads to each of them. -/
structure Holds (book : OrderBook) (orders : List RestingOrder) : Prop where
  levels : ∀ side price, (book.ladder side).find? price =
    let queue := orders.filter fun order => order.side = side ∧ order.price = price
    if queue = [] then none else some queue
  index : ∀ id, book.lookup id =
    (orders.find? fun order => order.id = id).map fun order => (order.side, order.price, some order)

/-- What a book holds is all there is to see of it. -/
theorem Holds.iff_same {book other : OrderBook} {orders : List RestingOrder} (holds : book.Holds orders) :
    other.Holds orders ↔
      (∀ side, book.ladder side = other.ladder side) ∧ ∀ id, book.lookup id = other.lookup id := by
  constructor
  · intro holds'
    refine ⟨fun side => OrderedMap.ext_find? fun price => ?_, fun id => ?_⟩
    · rw [holds.levels, holds'.levels]
    · rw [holds.index, holds'.index]
  · rintro ⟨levels, index⟩
    refine ⟨fun side price => ?_, fun id => ?_⟩
    · rw [← levels, holds.levels]
    · rw [← index, holds.index]

/-- The order behind a locator of the index. -/
theorem Linked.deref_eq {book : OrderBook} (linked : book.Linked) {loc : Locator} {node : OrderNode}
    (member : node ∈ book.queueAt loc.side loc.price) (address : node.address = loc.it) :
    book.deref loc = some node.order := by
  have symmetric : Std.Symm fun first second : OrderNode => first.address ≠ second.address :=
    ⟨fun _ _ ne => ne.symm⟩
  unfold deref
  cases search : (book.queueAt loc.side loc.price).find? fun node => node.address = loc.it with
  | none =>
    have missing := List.find?_eq_none.mp search node member
    simp [address] at missing
  | some found =>
    have foundAddress := List.find?_some search
    simp only [decide_eq_true_eq] at foundAddress
    by_contra different
    have distinct := (linked.distinct loc.side loc.price).forall (List.mem_of_find?_eq_some search) member
      fun same => different (by rw [same]; rfl)
    exact distinct (foundAddress.trans address.symm)

/-- A linked book whose queues list the given orders holds them. -/
theorem Linked.holds {book : OrderBook} (linked : book.Linked) {orders : List RestingOrder}
    (ids : orders.Pairwise fun first second => first.id ≠ second.id)
    (queues : ∀ side price, book.ordersAt side price =
      orders.filter fun order => order.side = side ∧ order.price = price) : book.Holds orders where
  levels side price := by
    rw [find?_ladder linked.noEmptyLevel, queues]
  index id := by
    unfold lookup
    cases found : book.index.find? id with
    | none =>
      rw [List.find?_eq_none.mpr]
      · rfl
      intro order member same
      have resting : order ∈ book.ordersAt order.side order.price := by
        rw [queues]
        exact List.mem_filter.mpr ⟨member, by simp⟩
      obtain ⟨node, inQueue, rfl⟩ := List.mem_map.mp resting
      have known := (linked.indexed id ⟨node.order.side, node.order.price, node.address⟩).mpr
        ⟨node, inQueue, rfl, of_decide_eq_true same⟩
      rw [found] at known
      cases known
    | some loc =>
      obtain ⟨node, inQueue, address, sameId⟩ := (linked.indexed id loc).mp found
      have resting : node.order ∈ book.ordersAt loc.side loc.price := List.mem_map_of_mem inQueue
      rw [queues] at resting
      obtain ⟨member, place⟩ := List.mem_filter.mp resting
      obtain ⟨sameSide, samePrice⟩ := of_decide_eq_true place
      have first : (orders.find? fun order => order.id = id) = some node.order := by
        have symmetric : Std.Symm fun first second : RestingOrder => first.id ≠ second.id :=
          ⟨fun _ _ ne => ne.symm⟩
        cases search : orders.find? fun order => order.id = id with
        | none =>
          have missing := List.find?_eq_none.mp search node.order member
          simp [sameId] at missing
        | some other =>
          have otherId := List.find?_some search
          simp only [decide_eq_true_eq] at otherId
          by_contra different
          exact ids.forall (List.mem_of_find?_eq_some search) member
            (fun same => different (by rw [same])) (otherId.trans sameId.symm)
      rw [first, Option.map_some, Option.map_some, linked.deref_eq inQueue address, sameSide, samePrice]

theorem contains_rest (book : OrderBook) (order : RestingOrder) (id : OrderId) :
    (book.rest order).contains id = (book.contains id || order.id = id) := by
  unfold contains OrderedMap.contains rest
  simp only
  by_cases known : book.index.contains order.id
  · rw [if_pos known]
    by_cases same : order.id = id
    · subst same
      unfold OrderedMap.contains at known
      simp [known]
    · simp [same]
  · rw [if_neg known, OrderedMap.find?_insert]
    by_cases same : order.id = id
    · simp [same]
    · simp [same, Ne.symm same]

/-- A rebuild ends with the book of the orders in front of the first repeat. -/
theorem restAll_fst (book : OrderBook) (seen orders : List RestingOrder)
    (known : ∀ id, book.contains id = seen.any fun earlier => earlier.id = id) :
    (MatchingEngine.restAll book orders).1 =
      (MatchingEngine.restAll book (beforeRepeat seen orders)).1 := by
  induction orders generalizing book seen with
  | nil => rfl
  | cons order rest ih =>
    unfold beforeRepeat
    split_ifs with repeated
    · simp only [MatchingEngine.restAll, known, if_pos repeated]
    · simp only [MatchingEngine.restAll, known, if_neg repeated]
      refine ih (book.rest order) (seen ++ [order]) fun id => ?_
      rw [contains_rest, known, List.any_append]
      simp

/-- **What a rebuild ends with**, whether it succeeds or not. -/
theorem restAll_holds (orders : List RestingOrder) :
    (MatchingEngine.restAll {} orders).1.Holds (beforeRepeat [] orders) := by
  have vacuous : ([] : List RestingOrder).Pairwise fun first second => first.id ≠ second.id :=
    List.Pairwise.nil
  have ids : (beforeRepeat [] orders).Pairwise fun first second => first.id ≠ second.id :=
    beforeRepeat_ids vacuous
  obtain ⟨book, rested, linked, queues⟩ := restAll_eq linked_empty (beforeRepeat [] orders)
    (fun _ _ => rfl) ids
  rw [restAll_fst {} [] orders fun _ => rfl, rested]
  refine linked.holds ids fun side price => ?_
  rw [queues]
  cases side <;> rfl

end OrderBook

namespace MatchingEngine

/-- The states around a restore that replaced the book and nothing else. -/
theorem sameState_withBook (engine : MatchingEngine) (book : OrderBook) :
    SameState { engine with book } engine ↔
      (∀ side, book.ladder side = engine.book.ladder side) ∧
        ∀ id, book.lookup id = engine.book.lookup id := by
  constructor
  · exact fun same => ⟨same.levels, same.index⟩
  · exact fun ⟨levels, index⟩ => ⟨rfl, rfl, rfl, rfl, rfl, levels, index⟩

/-- **A failed restore leaves the engine as it was** exactly if the instrument or an order of the snapshot
was refused before the book was replaced, or the engine holds just the orders in front of the repeated
id. -/
theorem restore_failed_unchanged_iff (engine : MatchingEngine) (snap : EngineSnapshot)
    (failed : (engine.restore snap).2 = false) :
    (engine.restore snap).1.SameState engine ↔
      snap.instrument ≠ engine.instrument ∨
        (∃ order ∈ snap.orders, order.quantity = 0 ∨ order.price ≤ 0) ∨
          engine.book.Holds (beforeRepeat [] snap.orders) := by
  unfold restore at failed ⊢
  by_cases foreign : snap.instrument ≠ engine.instrument
  · rw [if_pos foreign]
    exact iff_of_true (SameState.refl engine) (Or.inl foreign)
  rw [if_neg foreign] at failed ⊢
  by_cases refused : snap.orders.any fun order => order.quantity = 0 ∨ order.price ≤ 0
  · rw [if_pos refused]
    refine iff_of_true (SameState.refl engine) (Or.inr (Or.inl ?_))
    obtain ⟨order, member, broken⟩ := List.any_eq_true.mp refused
    exact ⟨order, member, of_decide_eq_true broken⟩
  rw [if_neg refused] at failed ⊢
  have restable : ¬ ∃ order ∈ snap.orders, order.quantity = 0 ∨ order.price ≤ 0 := by
    rintro ⟨order, member, broken⟩
    exact refused (List.any_eq_true.mpr ⟨order, member, decide_eq_true broken⟩)
  have rebuilt := OrderBook.restAll_holds snap.orders
  generalize restAll {} snap.orders = result at failed rebuilt ⊢
  obtain ⟨book, accepted⟩ := result
  cases accepted with
  | true => cases failed
  | false => simp only [foreign, restable, false_or, sameState_withBook, rebuilt.iff_same]

/-- A snapshot of instrument 1 in which id 7 occurs twice. -/
def repeatedId : EngineSnapshot where
  instrument := 1
  commandSeq := 2
  eventSeq := 4
  arrivalCounter := 2
  lastTop := {}
  orders :=
    [{ id := 7, side := .buy, price := 99, quantity := 3, arrival := 1 },
      { id := 7, side := .buy, price := 98, quantity := 2, arrival := 2 }]

/-- The refused snapshot has replaced the book. -/
theorem restore_repeatedId_replaces_book :
    ((replay 1 restingAsks).restore repeatedId).2 = false ∧
      ¬ ((replay 1 restingAsks).restore repeatedId).1.SameState (replay 1 restingAsks) := by
  refine ⟨by decide +kernel, fun same => ?_⟩
  have asks := congrArg OrderedMap.entries (same.levels .sell)
  exact absurd asks (by decide +kernel)

/-- An engine with nothing but the first of the two orders. -/
def firstOfTwo : MatchingEngine :=
  replay 1 [.newOrder
    { id := 7, instrument := 1, side := .buy, type := .limit, tif := .goodTillCancel, price := 99, quantity := 3 }]

/-- The refused snapshot puts back the order that is there. -/
theorem restore_failed_unchanged_front :
    (firstOfTwo.restore repeatedId).2 = false ∧ (firstOfTwo.restore repeatedId).1.SameState firstOfTwo := by
  have failed : (firstOfTwo.restore repeatedId).2 = false := by decide +kernel
  have holds : firstOfTwo.book.Holds (beforeRepeat [] repeatedId.orders) :=
    OrderBook.restAll_holds repeatedId.orders
  exact ⟨failed, (restore_failed_unchanged_iff firstOfTwo repeatedId failed).mpr (Or.inr (Or.inr holds))⟩

end MatchingEngine

end Sententia
