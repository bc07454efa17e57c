/-
**How far the counters get.** After `n` commands an engine has seen `n` commands, at most `n` arrivals, and
a number of events that is at most quadratic in `n`; it holds at most as many orders as have arrived.
The fixed-width fields of a snapshot have room for all of this.
-/

import Mathlib.Tactic.Ring
import Sententia.Engine.Likeness

namespace Sententia

open Library

theorem afterFills_arrival {fills : List (RestingOrder × Quantity)} {order left : RestingOrder}
    (remains : afterFills fills order = some left) : left.arrival = order.arrival := by
  unfold afterFills at remains
  simp only at remains
  split_ifs at remains
  cases remains
  rfl

namespace MatchingEngine

/-! ### The pieces of a command -/

theorem emitTopOfBookIfChanged_frame (engine : MatchingEngine) :
    engine.emitTopOfBookIfChanged.1.commandSeq = engine.commandSeq ∧
      engine.emitTopOfBookIfChanged.1.eventSeq ≤ engine.eventSeq + 1 := by
  rcases engine.emitTopOfBookIfChanged_cases with ⟨_, quiet⟩ | published
  · rw [quiet]
    exact ⟨rfl, Nat.le_succ _⟩
  · rw [published]
    exact ⟨rfl, Nat.le_refl _⟩

theorem settleResidual_frame (engine : MatchingEngine) (cmd : NewOrder) (residual : Quantity) :
    (engine.settleResidual cmd residual).1.commandSeq = engine.commandSeq ∧
      (engine.settleResidual cmd residual).1.eventSeq ≤ engine.eventSeq + 1 := by
  unfold settleResidual
  split_ifs
  · exact ⟨rfl, Nat.le_succ _⟩
  · exact ⟨rfl, Nat.le_refl _⟩
  · exact ⟨rfl, Nat.le_refl _⟩

/-! ### The bound -/

/-- Every resting order has arrived. -/
def Arrived (engine : MatchingEngine) : Prop :=
  ∀ side price, ∀ order ∈ engine.book.ordersAt side price, 0 < order.arrival

/-- No more orders rest than have arrived. -/
theorem length_allOrders_le {engine : MatchingEngine} (consistent : engine.Consistent)
    (arrived : engine.Arrived) : engine.allOrders.length ≤ engine.arrivalCounter := by
  have unique : (engine.allOrders.map (·.arrival)).Nodup :=
    List.pairwise_map.mpr consistent.allOrders_arrivals
  have range : engine.allOrders.map (·.arrival) ⊆ List.range' 1 engine.arrivalCounter := by
    intro arrival member
    obtain ⟨order, resting, rfl⟩ := List.mem_map.mp member
    obtain ⟨side, onSide⟩ := mem_allOrders.mp resting
    obtain ⟨price, node, nodeMember, rfl⟩ := exists_node_of_mem onSide
    have positive := arrived side price node.order (List.mem_map_of_mem nodeMember)
    have bound := consistent.book.arrived nodeMember
    rw [List.mem_range'_1]
    omega
  have shorter := (List.subperm_of_subset unique range).length_le
  rwa [List.length_map, List.length_range'] at shorter

/-- What `count` commands can have done to the counters of an engine. -/
structure Grown (engine : MatchingEngine) (count : Nat) : Prop where
  commandSeq : engine.commandSeq = count
  arrivalCounter : engine.arrivalCounter ≤ count
  eventSeq : engine.eventSeq ≤ count * (count + 4)
  arrived : engine.Arrived

/-- The bound on the events leaves room for those of one more command. -/
theorem events_step {count events before : Nat} (bound : before ≤ count * (count + 4))
    (more : events ≤ before + (count + 3)) : events ≤ (count + 1) * (count + 1 + 4) := by
  have square : (count + 1) * (count + 1 + 4) = count * (count + 4) + 2 * count + 5 := by ring
  omega

theorem Grown.newOrder {engine : MatchingEngine} {count : Nat} (grown : engine.Grown count)
    (consistent : engine.Consistent) (cmd : NewOrder) :
    (engine.apply (.newOrder cmd)).1.Grown (count + 1) := by
  by_cases accepted : engine.rejectReason cmd = .none
  · have refines := consistent.apply_newOrder_refines accepted
    have wf := consistent.book
    have steps := applyNewOrder_eq { engine with commandSeq := engine.commandSeq + 1 } wf accepted
    have applied : engine.apply (.newOrder cmd) = _ := steps
    -- The fills name different resting orders, of which there are at most `count`.
    have fills : (referenceFills cmd (engine.book.restingOrders (opposite cmd.side))).1.length ≤ count := by
      have named := (wf.referenceFills_mem cmd).length_le
      have side : (engine.book.restingOrders (opposite cmd.side)).length ≤ engine.allOrders.length := by
        unfold allOrders
        rw [List.length_append]
        cases cmd.side
        · exact Nat.le_add_left _ _
        · exact Nat.le_add_right _ _
      rw [List.length_map] at named
      exact (named.trans side).trans
        ((length_allOrders_le consistent grown.arrived).trans grown.arrivalCounter)
    refine ⟨?_, ?_, ?_, ?_⟩
    · rw [applied]
      simp only [(emitTopOfBookIfChanged_frame _).1, (settleResidual_frame _ _ _).1]
      exact congrArg (· + 1) grown.commandSeq
    · rw [refines.arrivalCounter]
      have bound := grown.arrivalCounter
      split_ifs <;> omega
    · refine events_step grown.eventSeq ?_
      rw [applied]
      refine ((emitTopOfBookIfChanged_frame _).2.trans
        (Nat.succ_le_succ (settleResidual_frame _ _ _).2)).trans ?_
      show engine.eventSeq + 1 +
        (referenceFills cmd (engine.book.restingOrders (opposite cmd.side))).1.length + 1 + 1 ≤ _
      omega
    · intro side price order resting
      rcases eq_or_eq_opposite cmd.side side with rfl | rfl
      · rw [refines.own] at resting
        rcases List.mem_append.mp resting with old | new
        · exact grown.arrived _ _ order old
        · split_ifs at new
          · rw [List.mem_singleton.mp new]
            exact Nat.succ_pos _
          · cases new
      · rw [refines.swept] at resting
        obtain ⟨old, oldResting, remains⟩ := List.mem_filterMap.mp resting
        rw [afterFills_arrival remains]
        exact grown.arrived _ _ old oldResting
  · rw [apply_newOrder_rejected accepted]
    refine ⟨congrArg (· + 1) grown.commandSeq, Nat.le_succ_of_le grown.arrivalCounter,
      events_step grown.eventSeq ?_, grown.arrived⟩
    show engine.eventSeq + 1 ≤ _
    omega

theorem Grown.cancelOrder {engine : MatchingEngine} {count : Nat} (grown : engine.Grown count)
    (consistent : engine.Consistent) (cmd : CancelOrder) :
    (engine.apply (.cancelOrder cmd)).1.Grown (count + 1) := by
  have left : ∀ side price, ∀ order ∈ (engine.book.cancel cmd.id).1.ordersAt side price,
      0 < order.arrival := by
    intro side price order resting
    rw [consistent.book.ordersAt_cancel] at resting
    exact grown.arrived side price order (List.mem_filter.mp resting).1
  show (applyCancel _ cmd).1.Grown (count + 1)
  unfold applyCancel
  dsimp only
  generalize engine.book.cancel cmd.id = result at left
  obtain ⟨book, removed⟩ := result
  cases removed with
  | none =>
    refine ⟨congrArg (· + 1) grown.commandSeq, Nat.le_succ_of_le grown.arrivalCounter,
      events_step grown.eventSeq ?_, grown.arrived⟩
    show engine.eventSeq + 1 ≤ _
    omega
  | some order =>
    refine ⟨?_, ?_, events_step grown.eventSeq ?_, ?_⟩
    · refine (emitTopOfBookIfChanged_frame _).1.trans ?_
      exact congrArg (· + 1) grown.commandSeq
    · rw [emitTopOfBookIfChanged_arrivalCounter]
      exact Nat.le_succ_of_le grown.arrivalCounter
    · refine (emitTopOfBookIfChanged_frame _).2.trans ?_
      show engine.eventSeq + 1 + 1 ≤ _
      omega
    · unfold Arrived
      rw [emitTopOfBookIfChanged_book]
      exact left

theorem Grown.apply {engine : MatchingEngine} {count : Nat} (grown : engine.Grown count)
    (consistent : engine.Consistent) (cmd : Command) : (engine.apply cmd).1.Grown (count + 1) := by
  cases cmd with
  | newOrder order => exact grown.newOrder consistent order
  | cancelOrder cancel => exact grown.cancelOrder consistent cancel

/-- **The counters after a command sequence.** -/
theorem replay_grown (instrument : InstrumentId) (cmds : List Command) :
    (replay instrument cmds).Grown cmds.length := by
  have along : ∀ (cmds : List Command) {engine : MatchingEngine} {count : Nat}, engine.Consistent →
      engine.Grown count → (engine.applyAll cmds).1.Grown (count + cmds.length) := by
    intro cmds
    induction cmds with
    | nil => exact fun _ grown => grown
    | cons cmd rest ih =>
      intro engine count consistent grown
      have later := ih (apply_consistent consistent cmd) (grown.apply consistent cmd)
      rw [List.length_cons, Nat.add_comm rest.length 1, ← Nat.add_assoc]
      exact later
  have nothing : Grown { instrument } 0 := by
    refine ⟨rfl, Nat.le_refl _, Nat.le_refl _, fun side price order resting => ?_⟩
    cases side <;> cases resting
  have all := along cmds (consistent_fresh instrument) nothing
  rwa [Nat.zero_add] at all

end MatchingEngine

end Sententia
