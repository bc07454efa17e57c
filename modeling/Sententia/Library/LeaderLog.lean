/-
**Leader logs.** In a protocol with terms, the log that the leader of a term writes is one growing
object, `lead term`. A log *follows* the leaders when, at every entry, it agrees so far with the log of
the leader of that entry's term.

* `Follows.matching` — two such logs with the same term at a position agree up to it.
* `Follows.mono` — leaders' logs only grow, so following is stable.
* `Follows.append` — the leader of a term writes an entry.
* `Follows.take_eq` — the test of a follower: where the last terms agree, so do the fronts.
-/

import Mathlib.Data.List.Infix
import Mathlib.Logic.Function.Basic

namespace Sententia.Library

variable {Entry : Type*}

/-! ### Fronts of lists -/

theorem take_eq_of_front {short long : List Entry} (front : short <+: long) {count : Nat}
    (inside : count ≤ short.length) : long.take count = short.take count := by
  obtain ⟨rest, rfl⟩ := front
  exact List.take_append_of_le_length inside

theorem getElem_of_front {short long : List Entry} (front : short <+: long) {i : Nat}
    (inside : i < short.length) : long[i]? = some short[i] := by
  obtain ⟨rest, rfl⟩ := front
  rw [List.getElem?_append_left inside, List.getElem?_eq_getElem inside]

/-! ### Following the leaders -/

variable (termOf : Entry → Nat)

/-- At every entry the log agrees so far with the log of the leader of the entry's term. -/
def Follows (lead : Nat → List Entry) (log : List Entry) : Prop :=
  ∀ k (inside : k < log.length), log.take (k + 1) = (lead (termOf log[k])).take (k + 1)

/-- The term of the last entry, zero before the first. -/
def lastTerm (log : List Entry) : Nat := (log.getLast?.map termOf).getD 0

variable {termOf} {lead lead' : Nat → List Entry} {log other : List Entry}

variable (termOf) in
theorem lastTerm_take {k : Nat} (inside : k < log.length) :
    lastTerm termOf (log.take (k + 1)) = termOf log[k] := by
  unfold lastTerm
  rw [List.getLast?_eq_getElem?, List.length_take, Nat.min_eq_left inside]
  show (Option.map termOf (log.take (k + 1))[k]?).getD 0 = _
  rw [List.getElem?_take_of_succ, List.getElem?_eq_getElem inside]
  rfl

variable (termOf) in
theorem lastTerm_eq (nonempty : 0 < log.length) :
    lastTerm termOf log = termOf log[log.length - 1] := by
  have last := lastTerm_take termOf (show log.length - 1 < log.length by omega)
  rw [Nat.sub_add_cancel nonempty, List.take_length] at last
  exact last

namespace Follows

theorem nil : Follows termOf lead [] := fun _ inside => absurd inside (Nat.not_lt_zero _)

/-- Up to an entry, the log is a front of the leader's. -/
theorem length_le (follows : Follows termOf lead log) {k : Nat} (inside : k < log.length) :
    k < (lead (termOf log[k])).length := by
  have agree := congrArg List.length (follows k inside)
  rw [List.length_take, List.length_take] at agree
  omega

theorem of_front (follows : Follows termOf lead log) (front : other <+: log) :
    Follows termOf lead other := by
  obtain ⟨rest, rfl⟩ := front
  intro k inside
  have agree := follows k (by rw [List.length_append]; omega)
  rw [List.getElem_append_left inside, List.take_append_of_le_length inside] at agree
  exact agree

/-- **Log matching.** -/
theorem matching (follows : Follows termOf lead log) (follows' : Follows termOf lead other) {k : Nat}
    (inside : k < log.length) (inside' : k < other.length)
    (sameTerm : termOf log[k] = termOf other[k]) : log.take (k + 1) = other.take (k + 1) := by
  rw [follows k inside, follows' k inside', sameTerm]

/-- **The predecessor test**: fronts of one length with the same last term are the same. -/
theorem take_eq (follows : Follows termOf lead log) (follows' : Follows termOf lead other)
    {count : Nat} (inside : count ≤ log.length) (inside' : count ≤ other.length)
    (sameTerm : lastTerm termOf (log.take count) = lastTerm termOf (other.take count)) :
    log.take count = other.take count := by
  cases count with
  | zero => rw [List.take_zero, List.take_zero]
  | succ k =>
    rw [lastTerm_take termOf inside, lastTerm_take termOf inside'] at sameTerm
    exact follows.matching follows' inside inside' sameTerm

/-- A log is a front of the log of the leader of its last term. -/
theorem front_lastTerm (follows : Follows termOf lead log) (nonempty : 0 < log.length) :
    log <+: lead (lastTerm termOf log) := by
  have agree := follows (log.length - 1) (by omega)
  rw [Nat.sub_add_cancel nonempty, List.take_length] at agree
  rw [List.prefix_iff_eq_take, lastTerm_eq termOf nonempty]
  exact agree

/-- Leaders' logs only grow. -/
theorem mono (follows : Follows termOf lead log) (grows : ∀ term, lead term <+: lead' term) :
    Follows termOf lead' log := by
  intro k inside
  rw [follows k inside]
  exact (take_eq_of_front (grows _) (follows.length_le inside)).symm

/-- A log has no entry of a term whose leader has written nothing. -/
theorem term_ne (follows : Follows termOf lead log) {term : Nat} (silent : lead term = [])
    {entry : Entry} (member : entry ∈ log) : termOf entry ≠ term := by
  obtain ⟨k, inside, rfl⟩ := List.mem_iff_getElem.mp member
  intro isTerm
  have longer := follows.length_le inside
  rw [isTerm, silent] at longer
  exact Nat.not_lt_zero _ longer

/-- **The leader of a term writes an entry.** -/
theorem append (follows : Follows termOf lead log) {entry : Entry}
    (writes : lead (termOf entry) = log ++ [entry]) : Follows termOf lead (log ++ [entry]) := by
  intro k inside
  rw [List.length_append, List.length_singleton] at inside
  by_cases old : k < log.length
  · rw [List.getElem_append_left old, List.take_append_of_le_length old]
    exact follows k old
  · have last : k = log.length := by omega
    subst last
    rw [List.getElem_append_right (Nat.le_refl _)]
    simp only [Nat.sub_self, List.getElem_singleton]
    rw [writes]

end Follows

/-- The leader's log of one term grows. -/
theorem grows_update {term : Nat} (front : lead term <+: log) (any : Nat) :
    lead any <+: Function.update lead term log any := by
  by_cases same : any = term
  · subst same
    rw [Function.update_self]
    exact front
  · rw [Function.update_of_ne same]

end Sententia.Library
