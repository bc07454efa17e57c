/-
**Majorities.** Two counting facts behind every quorum protocol.

* `exists_common` — two duplicate-free lists of members that together outnumber the members share one.
* `le_sorted_iff` — the entry at position `k` of a list sorted from the largest down is at least `n`
  exactly when more than `k` entries are.
-/

import Mathlib.Data.Finset.Card
import Mathlib.Data.List.Sort

namespace Sententia.Library

variable {α : Type*}

/-- `ballot` names more than half of the members, each once. -/
structure Majority (members ballot : List α) : Prop where
  nodup : ballot.Nodup
  subset : ballot ⊆ members
  large : members.length / 2 + 1 ≤ ballot.length

/-- **Quorum intersection.** -/
theorem exists_common [DecidableEq α] {members first second : List α} (distinct : first.Nodup)
    (distinct' : second.Nodup) (inside : first ⊆ members) (inside' : second ⊆ members)
    (large : members.length < first.length + second.length) :
    ∃ member, member ∈ first ∧ member ∈ second := by
  by_contra disjoint
  have apart : List.Disjoint first second := fun member inFirst inSecond =>
    disjoint ⟨member, inFirst, inSecond⟩
  have together : (first ++ second).Nodup := List.nodup_append'.mpr ⟨distinct, distinct', apart⟩
  have fits := (List.subperm_of_subset together (List.append_subset.mpr ⟨inside, inside'⟩)).length_le
  rw [List.length_append] at fits
  omega

namespace Majority

theorem meets [DecidableEq α] {members first second : List α} (left : Majority members first)
    (right : Majority members second) : ∃ member, member ∈ first ∧ member ∈ second := by
  have largeLeft := left.large
  have largeRight := right.large
  exact exists_common left.nodup right.nodup left.subset right.subset (by omega)

end Majority

/-! ### The value a majority reaches -/

/-- In a list sorted from the largest down, position `k` reaches `n` exactly when more than `k`
entries do. -/
theorem le_getElem_iff_of_sorted {values : List Nat} (sorted : values.Pairwise (· ≥ ·)) (k n : Nat)
    (inside : k < values.length) :
    n ≤ values[k] ↔ k < values.countP fun value => n ≤ value := by
  induction values generalizing k with
  | nil => cases inside
  | cons head rest ih =>
    obtain ⟨below, sorted'⟩ := List.pairwise_cons.mp sorted
    cases k with
    | zero =>
      rw [List.getElem_cons_zero, List.countP_pos_iff]
      constructor
      · intro reached
        exact ⟨head, List.mem_cons_self, by simpa using reached⟩
      · rintro ⟨value, member, reached⟩
        have reached' : n ≤ value := by simpa using reached
        rcases List.mem_cons.mp member with rfl | inRest
        · exact reached'
        · exact reached'.trans (below value inRest)
    | succ k =>
      have inside' : k < rest.length := Nat.lt_of_succ_lt_succ inside
      rw [List.getElem_cons_succ, ih sorted' k inside']
      by_cases reached : n ≤ head
      · rw [List.countP_cons_of_pos (by simpa using reached)]
        omega
      · have none : rest.countP (fun value => n ≤ value) = 0 := by
          refine List.countP_eq_zero.mpr fun value member => ?_
          have smaller := below value member
          simp only [decide_eq_true_eq]
          omega
        rw [List.countP_cons_of_neg (by simpa using reached), none]
        omega

/-- **The `k`-th largest value.** -/
theorem le_sorted_iff (values : List Nat) (k n : Nat) (inside : k < values.length) :
    n ≤ ((values.insertionSort (· ≥ ·))[k]?).getD 0 ↔
      k < values.countP fun value => n ≤ value := by
  have sorted := List.pairwise_insertionSort (· ≥ ·) values
  have inside' : k < (values.insertionSort (· ≥ ·)).length := by
    rw [List.length_insertionSort]
    exact inside
  rw [List.getElem?_eq_getElem inside', Option.getD_some,
    le_getElem_iff_of_sorted sorted k n inside',
    (List.perm_insertionSort (· ≥ ·) values).countP_eq]

end Sententia.Library
