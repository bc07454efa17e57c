/-
**Parallel lists.** A list of flags and a list of values that belong to them by position; `selected` are the
values of the flags that are set. Adding to both ends and setting a value act on what is selected
(`selected_append`, `selected_set`). Erasing flags from the middle while the values are only cut off at the
end moves values to other flags (`selected_filter_le`).
-/

import Mathlib.Data.List.Forall2

namespace Sententia.Library

variable {α β : Type*}

/-- The values whose flag is set, in order. -/
def selected : List Bool → List α → List α
  | true :: flags, value :: values => value :: selected flags values
  | false :: flags, _ :: values => selected flags values
  | _, _ => []

/-- The flags that are set before a position. -/
def rank (flags : List Bool) (position : Nat) : Nat := (flags.take position).countP id

theorem rank_cons_succ (flag : Bool) (flags : List Bool) (position : Nat) :
    rank (flag :: flags) (position + 1) = rank flags position + flag.toNat := by
  unfold rank
  rw [List.take_succ_cons, List.countP_cons]
  cases flag <;> rfl

theorem selected_append {flags : List Bool} {values : List α} (parallel : flags.length = values.length)
    (flag : Bool) (value : α) :
    selected (flags ++ [flag]) (values ++ [value]) =
      selected flags values ++ if flag then [value] else [] := by
  induction flags generalizing values with
  | nil =>
    obtain rfl := List.length_eq_zero_iff.mp parallel.symm
    cases flag <;> rfl
  | cons first flags ih =>
    cases values with
    | nil => cases parallel
    | cons second values =>
      have later := ih (Nat.succ.inj parallel)
      cases first with
      | false => exact later
      | true => exact congrArg (second :: ·) later

theorem getElem?_selected {flags : List Bool} {values : List α} {position : Nat}
    (parallel : flags.length = values.length) (isSet : flags[position]? = some true) :
    (selected flags values)[rank flags position]? = values[position]? := by
  induction flags generalizing values position with
  | nil => cases isSet
  | cons first flags ih =>
    cases values with
    | nil => cases parallel
    | cons second values =>
      cases position with
      | zero =>
        obtain rfl := Option.some.inj isSet
        rfl
      | succ position =>
        have later := ih (Nat.succ.inj parallel) isSet
        rw [rank_cons_succ]
        cases first with
        | false => exact later
        | true => exact later

theorem selected_set {flags : List Bool} {values : List α} {position : Nat}
    (parallel : flags.length = values.length) (isSet : flags[position]? = some true) (value : α) :
    selected flags (values.set position value) = (selected flags values).set (rank flags position) value := by
  induction flags generalizing values position with
  | nil => cases isSet
  | cons first flags ih =>
    cases values with
    | nil => cases parallel
    | cons second values =>
      cases position with
      | zero =>
        obtain rfl := Option.some.inj isSet
        rfl
      | succ position =>
        have later := ih (Nat.succ.inj parallel) isSet
        rw [rank_cons_succ]
        cases first with
        | false => exact later
        | true => exact congrArg (second :: ·) later

/-- **Erasing from the middle of one list only.** What is selected moves no further down the order than
each value that a kept flag takes is above its own. Flags that are set are kept. -/
theorem selected_filter_le [LE β] {entries : List α} {flag kept : α → Bool}
    (keeps : ∀ entry, flag entry = true → kept entry = true) {values taken : List β}
    (parallel : entries.length = values.length) (long : (entries.filter kept).length ≤ taken.length)
    (above : ∀ position entry, entries[position]? = some entry → flag entry = true →
      ∀ own ∈ values[position]?, ∀ other ∈ taken[(entries.take position).countP kept]?, own ≤ other) :
    List.Forall₂ (· ≤ ·) (selected (entries.map flag) values)
      (selected ((entries.filter kept).map flag) (taken.take (entries.filter kept).length)) := by
  induction entries generalizing values taken with
  | nil => exact .nil
  | cons first entries ih =>
    cases values with
    | nil => cases parallel
    | cons second values =>
      by_cases isKept : kept first = true
      · rw [List.filter_cons_of_pos isKept] at long ⊢
        cases taken with
        | nil => cases long
        | cons third taken =>
          have later := ih (Nat.succ.inj parallel) (Nat.le_of_succ_le_succ long)
            fun position entry found isSet own isOwn other isOther =>
              above (position + 1) entry found isSet own isOwn other (by
                rw [List.take_succ_cons, List.countP_cons_of_pos isKept]
                exact isOther)
          cases isSet : flag first with
          | false =>
            rw [List.map_cons, List.map_cons, isSet]
            exact later
          | true =>
            rw [List.map_cons, List.map_cons, isSet]
            exact .cons (above 0 first rfl isSet second rfl third rfl) later
      · have unset : flag first = false := by
          cases isSet : flag first with
          | false => rfl
          | true => exact absurd (keeps first isSet) isKept
        rw [List.filter_cons_of_neg isKept] at long ⊢
        rw [List.map_cons, unset]
        refine ih (Nat.succ.inj parallel) long fun position entry found isSet own isOwn other isOther => ?_
        refine above (position + 1) entry found isSet own isOwn other ?_
        rw [List.take_succ_cons, List.countP_cons_of_neg isKept]
        exact isOther

end Sententia.Library
