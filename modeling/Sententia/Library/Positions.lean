/-
**Tables.** Lists whose elements are changed in place, and properties that at most one of them has. That at
most one element has a property is said by counting: a change at one position then is arithmetic.
-/

import Mathlib.Data.List.Basic

namespace Sententia.Library

variable {α : Type*} {table : List α} {position other : Nat} {entry entry' : α}

/-! ### Changes in place -/

theorem mem_modify (change : α → α) (found : table[position]? = some entry)
    (member : entry' ∈ table.modify position change) : entry' ∈ table ∨ entry' = change entry := by
  obtain ⟨other, inside⟩ := List.mem_iff_getElem?.mp member
  rw [List.getElem?_modify] at inside
  obtain ⟨old, there, same⟩ := Option.map_eq_some_iff.mp inside
  by_cases equal : position = other
  · subst equal
    rw [found] at there
    cases there
    rw [if_pos rfl] at same
    exact Or.inr same.symm
  · rw [if_neg equal] at same
    exact Or.inl (same ▸ List.mem_of_getElem? there)

theorem change_mem_modify (change : α → α) (found : table[position]? = some entry) :
    change entry ∈ table.modify position change := by
  refine List.mem_of_getElem? (i := position) ?_
  rw [List.getElem?_modify_eq, found]
  rfl

theorem mem_modify_of_ne (change : α → α) (found : table[position]? = some entry) (member : entry' ∈ table)
    (different : entry' ≠ entry) : entry' ∈ table.modify position change := by
  obtain ⟨other, inside⟩ := List.mem_iff_getElem?.mp member
  have elsewhere : position ≠ other := by
    rintro rfl
    rw [found] at inside
    exact different (Option.some.inj inside).symm
  refine List.mem_of_getElem? (i := other) ?_
  rw [List.getElem?_modify_ne _ _ elsewhere, inside]

/-! ### Counting -/

theorem countP_modify (property : α → Bool) (change : α → α) (found : table[position]? = some entry) :
    (table.modify position change).countP property + (property entry).toNat =
      table.countP property + (property (change entry)).toNat := by
  induction table generalizing position with
  | nil => cases found
  | cons first rest ih =>
    cases position with
    | zero =>
      obtain rfl : first = entry := Option.some.inj found
      rw [List.modify_zero_cons, List.countP_cons, List.countP_cons]
      cases property first <;> cases property (change first) <;> simp
    | succ position =>
      have later : (rest.modify position change).countP property + _ = _ := ih found
      rw [List.modify_succ_cons, List.countP_cons, List.countP_cons]
      omega

/-- **At most one entry has the property after a change**, if the entry gains it only when none has it. -/
theorem countP_modify_le_one {property : α → Bool} {change : α → α} (one : table.countP property ≤ 1)
    (found : table[position]? = some entry)
    (gains : property (change entry) = true → property entry = true ∨ table.countP property = 0) :
    (table.modify position change).countP property ≤ 1 := by
  have counted := countP_modify property change found
  cases new : property (change entry) with
  | false =>
    rw [new] at counted
    exact Nat.le_trans (Nat.le_of_add_right_le (Nat.le_of_eq counted)) one
  | true =>
    rw [new] at counted
    rcases gains new with old | none
    · rw [old] at counted
      exact Nat.le_trans (Nat.le_of_eq (Nat.add_right_cancel counted)) one
    · rw [none] at counted
      exact Nat.le_of_add_right_le (Nat.le_of_eq counted)

/-- A property that at most one entry has is at one position. -/
theorem position_unique {property : α → Bool} (one : table.countP property ≤ 1)
    (found : table[position]? = some entry) (holds : property entry = true)
    (found' : table[other]? = some entry') (holds' : property entry' = true) : position = other := by
  induction table generalizing position other with
  | nil => cases found
  | cons first rest ih =>
    rw [List.countP_cons] at one
    have below : ∀ {position : Nat} {entry : α}, rest[position]? = some entry → property entry = true →
        0 < rest.countP property := fun there passes =>
      List.countP_pos_iff.mpr ⟨_, List.mem_of_getElem? there, passes⟩
    cases position with
    | zero =>
      obtain rfl : first = entry := Option.some.inj found
      rw [if_pos holds] at one
      cases other with
      | zero => rfl
      | succ other => exact absurd (below found' holds') (by omega)
    | succ position =>
      cases other with
      | zero =>
        obtain rfl : first = entry' := Option.some.inj found'
        rw [if_pos holds'] at one
        exact absurd (below found holds) (by omega)
      | succ other =>
        rw [ih (by omega) found found']

theorem entry_unique {property : α → Bool} (one : table.countP property ≤ 1) (member : entry ∈ table)
    (holds : property entry = true) (member' : entry' ∈ table) (holds' : property entry' = true) :
    entry = entry' := by
  obtain ⟨position, found⟩ := List.mem_iff_getElem?.mp member
  obtain ⟨other, found'⟩ := List.mem_iff_getElem?.mp member'
  rw [position_unique one found holds found' holds'] at found
  exact Option.some.inj (found.symm.trans found')

end Sententia.Library
