/-
**Snapshot and restore.** A snapshot flattens the book into one list, best level first and FIFO within a
level; `restore` rests these orders one by one in a new book. Every level comes back with its queue in
order, because the walk visits the orders of a level together and `rest` appends.

`restore_snapshot`: whatever the target was before, it then mirrors the source, and so cannot be told
apart from it by any command.
-/

import Sententia.Engine.Likeness

namespace Sententia

open Library

namespace OrderBook

/-! ### The walk over a side -/

/-- The part of the walk over a side that lies at one price is the queue there. -/
theorem WellFormed.filter_restingOrders {book : OrderBook} {arrivals : Nat}
    (wf : book.WellFormed arrivals) (walked side : Side) (price : Price) :
    (book.restingOrders walked).filter (fun order => order.side = side ∧ order.price = price) =
      if walked = side then book.ordersAt walked price else [] := by
  have onLevel : ∀ level ∈ (book.levels walked).entries, ∀ node ∈ level.2,
      node.order.side = walked ∧ node.order.price = level.1 := by
    intro level stored node member
    have found : (book.levels walked).find? level.1 = some level.2 :=
      (book.levels walked).find?_eq_some_iff.mpr stored
    exact wf.placed (queueAt_of_find? found ▸ member)
  unfold restingOrders
  rw [List.filter_flatMap]
  by_cases here : walked = side
  · subst here
    have levelwise : ∀ level ∈ (book.levels walked).entries,
        (level.2.map (·.order)).filter (fun order => order.side = walked ∧ order.price = price) =
          if level.1 = price then level.2.map (·.order) else [] := by
      intro level stored
      split_ifs with same
      · refine List.filter_eq_self.mpr fun order member => ?_
        obtain ⟨node, nodeMember, rfl⟩ := List.mem_map.mp member
        simp [onLevel level stored node nodeMember, same]
      · refine List.filter_eq_nil_iff.mpr fun order member => ?_
        obtain ⟨node, nodeMember, rfl⟩ := List.mem_map.mp member
        simp [onLevel level stored node nodeMember, same]
    rw [if_pos rfl, List.flatMap_congr levelwise,
      (book.levels walked).flatMap_entries_at (fun queue => queue.map (·.order)) price]
    unfold ordersAt queueAt
    cases (book.levels walked).find? price <;> rfl
  · rw [if_neg here]
    refine List.flatMap_eq_nil_iff.mpr fun level stored => List.filter_eq_nil_iff.mpr fun order member => ?_
    obtain ⟨node, nodeMember, rfl⟩ := List.mem_map.mp member
    simp [onLevel level stored node nodeMember, here]

/-! ### Resting a list of orders -/

theorem linked_empty : Linked {} := wellFormed_empty.linked

/-- **`restAll`** of orders with new and different ids: each joins the back of its queue. -/
theorem restAll_eq {book : OrderBook} (linked : book.Linked) (orders : List RestingOrder)
    (fresh : ∀ order ∈ orders, book.index.find? order.id = none)
    (ids : orders.Pairwise fun first second => first.id ≠ second.id) :
    ∃ book', MatchingEngine.restAll book orders = (book', true) ∧ book'.Linked ∧
      ∀ side price, book'.ordersAt side price = book.ordersAt side price ++
        orders.filter fun order => order.side = side ∧ order.price = price := by
  induction orders generalizing book with
  | nil => exact ⟨book, rfl, linked, fun side price => by simp⟩
  | cons order rest ih =>
    obtain ⟨different, ids'⟩ := List.pairwise_cons.mp ids
    have new := fresh order List.mem_cons_self
    have absent : book.contains order.id = false := by
      unfold contains OrderedMap.contains
      rw [new]
      rfl
    have linked' := linked.rest new
    have fresh' : ∀ later ∈ rest, (book.rest order).index.find? later.id = none := by
      intro later member
      cases found : (book.rest order).index.find? later.id with
      | none => rfl
      | some loc =>
        obtain ⟨node, inQueue, address, sameId⟩ := (linked'.indexed later.id loc).mp found
        rcases mem_rest inQueue with old | ⟨_, _, rfl⟩
        · have known := (linked.indexed later.id loc).mpr ⟨node, old, address, sameId⟩
          rw [fresh later (List.mem_cons_of_mem _ member)] at known
          cases known
        · exact absurd sameId (different later member)
    obtain ⟨book', rested, linked'', queues⟩ := ih linked' fresh' ids'
    refine ⟨book', ?_, linked'', fun side price => ?_⟩
    · rw [MatchingEngine.restAll, absent]
      exact rested
    · rw [queues, ordersAt_rest, List.append_assoc, List.filter_cons]
      by_cases here : order.side = side ∧ order.price = price
      · simp [here]
      · have elsewhere : ¬ (side = order.side ∧ price = order.price) :=
          fun same => here ⟨same.1.symm, same.2.symm⟩
        simp [here, elsewhere]

/-- A book that mirrors a well-formed one, and whose lists and index fit together, is well formed. -/
theorem Linked.wellFormed {book source : OrderBook} {arrivals : Nat} (linked : book.Linked)
    (mirrors : book.Mirrors source) (wf : source.WellFormed arrivals) : book.WellFormed arrivals := by
  have original : ∀ {side price node}, node ∈ book.queueAt side price →
      ∃ node' ∈ source.queueAt side price, node'.order = node.order := by
    intro side price node member
    have resting : node.order ∈ source.ordersAt side price := by
      rw [← mirrors]
      exact List.mem_map_of_mem member
    exact List.mem_map.mp resting
  have nonempty : ∀ {side price}, book.queueAt side price ≠ [] → source.queueAt side price ≠ [] := by
    intro side price notEmpty
    obtain ⟨node, member⟩ := List.exists_mem_of_ne_nil _ notEmpty
    obtain ⟨node', member', _⟩ := original member
    exact List.ne_nil_of_mem member'
  exact
    { linked with
      placed := fun member => by
        obtain ⟨node', member', same⟩ := original member
        rw [← same]
        exact wf.placed member'
      positive := fun member => by
        obtain ⟨node', member', same⟩ := original member
        rw [← same]
        exact wf.positive member'
      arrived := fun member => by
        obtain ⟨node', member', same⟩ := original member
        rw [← same]
        exact wf.arrived member'
      fifo := fun side price => by
        have inOrder : (source.ordersAt side price).Pairwise
            fun first second => first.arrival < second.arrival :=
          List.pairwise_map.mpr (wf.fifo side price)
        rw [← mirrors] at inOrder
        unfold ordersAt at inOrder
        rw [List.pairwise_map] at inOrder
        exact inOrder
      arrivalUnique := fun member member' sameArrival => by
        obtain ⟨first, firstMember, same⟩ := original member
        obtain ⟨second, secondMember, same'⟩ := original member'
        rw [← same, ← same'] at sameArrival ⊢
        exact wf.arrivalUnique firstMember secondMember sameArrival
      uncrossed := fun someBid someAsk => wf.uncrossed (nonempty someBid) (nonempty someAsk) }

end OrderBook

namespace MatchingEngine

/-! ### Restoring a snapshot -/

/-- Everything an engine keeps, but for the addresses of its list nodes: counters, last top, levels with
their queues, and where the id index leads. -/
structure SameState (first second : MatchingEngine) : Prop where
  instrument : first.instrument = second.instrument
  commandSeq : first.commandSeq = second.commandSeq
  eventSeq : first.eventSeq = second.eventSeq
  arrivalCounter : first.arrivalCounter = second.arrivalCounter
  lastTop : first.lastTop = second.lastTop
  levels : ∀ side, first.book.ladder side = second.book.ladder side
  index : ∀ id, first.book.lookup id = second.book.lookup id

theorem SameState.refl (engine : MatchingEngine) : engine.SameState engine :=
  ⟨rfl, rfl, rfl, rfl, rfl, fun _ => rfl, fun _ => rfl⟩

theorem Mirrors.sameState {first second : MatchingEngine} (mirrors : first.Mirrors second)
    (consistent : first.Consistent) (consistent' : second.Consistent) : first.SameState second where
  instrument := mirrors.instrument
  commandSeq := mirrors.commandSeq
  eventSeq := mirrors.eventSeq
  arrivalCounter := mirrors.arrivalCounter
  lastTop := mirrors.lastTop
  levels := mirrors.ladder consistent.book consistent'.book
  index := mirrors.book.lookup consistent.book consistent'.book

/-- The orders of a snapshot, queue by queue. -/
theorem filter_orders_snapshot {source : MatchingEngine} (consistent : source.Consistent) (side : Side)
    (price : Price) :
    source.snapshot.orders.filter (fun order => order.side = side ∧ order.price = price) =
      source.book.ordersAt side price := by
  unfold snapshot
  rw [List.filter_append, consistent.book.filter_restingOrders, consistent.book.filter_restingOrders]
  cases side <;> simp

/-- **A target of the same instrument, in any state, mirrors the source after it has restored the
source's snapshot.** -/
theorem restore_mirrors {source target : MatchingEngine} (consistent : source.Consistent)
    (same : target.instrument = source.instrument) :
    ∃ restored, target.restore source.snapshot = (restored, true) ∧ restored.Consistent ∧
      restored.Mirrors source := by
  have accepted : ¬ source.snapshot.instrument ≠ target.instrument := fun differ => differ same.symm
  have valid : ¬ source.snapshot.orders.any (fun order => order.quantity = 0 ∨ order.price ≤ 0) := by
    rw [List.any_eq_true]
    rintro ⟨order, member, broken⟩
    obtain ⟨side, resting⟩ := mem_allOrders.mp (show order ∈ source.allOrders from member)
    obtain ⟨price, node, nodeMember, rfl⟩ := exists_node_of_mem resting
    obtain ⟨quantity, positive⟩ := consistent.book.positive nodeMember
    rw [← (consistent.book.placed nodeMember).2] at positive
    rcases of_decide_eq_true broken with zero | negative
    · rw [zero] at quantity
      exact absurd quantity (by decide)
    · exact Int64.not_le.mpr positive negative
  obtain ⟨book, rested, linked, queues⟩ := OrderBook.restAll_eq OrderBook.linked_empty
    source.snapshot.orders (fun _ _ => rfl) consistent.allOrders_ids
  have mirrors : book.Mirrors source.book := by
    intro side price
    rw [queues, filter_orders_snapshot consistent]
    cases side <;> rfl
  have wf := linked.wellFormed mirrors consistent.book
  have tops : book.top = source.book.top := by
    rw [OrderBook.top_eq, OrderBook.top_eq, mirrors.ladder wf.noEmptyLevel consistent.book.noEmptyLevel,
      mirrors.ladder wf.noEmptyLevel consistent.book.noEmptyLevel]
  unfold restore
  rw [if_neg accepted, if_neg valid, rested]
  refine ⟨_, rfl, ⟨wf, ?_⟩, ⟨same, rfl, rfl, rfl, rfl, mirrors⟩⟩
  exact consistent.lastTop.trans tops.symm

/-- **Snapshot and restore are a faithful copy**, of every engine a command sequence reaches and into
every engine of its instrument. -/
theorem restore_snapshot (instrument : InstrumentId) (cmds : List Command) (target : MatchingEngine)
    (same : target.instrument = instrument) :
    ∃ restored, target.restore (replay instrument cmds).snapshot = (restored, true) ∧
      restored.SameState (replay instrument cmds) ∧
        (∀ host, restored.stateChecksumOn host = (replay instrument cmds).stateChecksumOn host) ∧
          ∀ more, (restored.applyAll more).2 = ((replay instrument cmds).applyAll more).2 := by
  have consistent := replay_consistent instrument cmds
  obtain ⟨restored, accepted, consistent', mirrors⟩ :=
    restore_mirrors consistent (same.trans (instrument_replay instrument cmds).symm)
  exact ⟨restored, accepted, mirrors.sameState consistent' consistent,
    mirrors.stateChecksumOn consistent' consistent,
    fun more => (mirrors.applyAll consistent' consistent more).1⟩

/-- A target that has seen other orders before. -/
theorem restore_snapshot_asks :
    ∃ restored, (replay 1 [.newOrder sweepingBuy]).restore (replay 1 restingAsks).snapshot =
        (restored, true) ∧
      restored.SameState (replay 1 restingAsks) ∧
        (∀ host, restored.stateChecksumOn host = (replay 1 restingAsks).stateChecksumOn host) ∧
          ∀ more, (restored.applyAll more).2 = ((replay 1 restingAsks).applyAll more).2 :=
  restore_snapshot 1 restingAsks (replay 1 [.newOrder sweepingBuy]) (by decide +kernel)

end MatchingEngine

end Sententia
