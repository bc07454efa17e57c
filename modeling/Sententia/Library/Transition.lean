/-
**Runs of a deterministic transition system.** All nondeterminism is in the labels: a run is a list of
labels, a moment of a run is a shorter list that starts it.

* `run_invariant` — what every step keeps, every run keeps.
* `always_iff_guarded` — the same, where the guard is also necessary.
* `run_weight`, `exists_run_done` — where every step takes a weight down, runs are short and lead to a
  state that has no step left.
-/

import Mathlib.Data.List.Basic

namespace Sententia.Library

variable {State Label : Type*}

/-- The state a list of labels leads to, `none` when a label is not enabled. -/
def run (step : State → Label → Option State) : State → List Label → Option State
  | state, [] => some state
  | state, label :: rest => (step state label).bind fun next => run step next rest

/-- Every step of the run, for as long as it is enabled, meets the guard. -/
def Guarded (step : State → Label → Option State) (guard : State → Label → Prop) :
    State → List Label → Prop
  | _, [] => True
  | state, label :: rest =>
    guard state label ∧ ∀ next, step state label = some next → Guarded step guard next rest

variable {step : State → Label → Option State} {guard : State → Label → Prop}

instance decidableGuarded [∀ state label, Decidable (guard state label)] :
    ∀ state labels, Decidable (Guarded step guard state labels)
  | _, [] => isTrue trivial
  | state, label :: rest =>
    match result : step state label with
    | none => decidable_of_iff (guard state label)
        ⟨fun holds => ⟨holds, fun next enabled => by rw [result] at enabled; cases enabled⟩,
          fun holds => holds.1⟩
    | some next =>
      have := decidableGuarded next rest
      decidable_of_iff (guard state label ∧ Guarded step guard next rest)
        ⟨fun holds => ⟨holds.1, fun next' enabled => by
            rw [result] at enabled; cases enabled; exact holds.2⟩,
          fun holds => ⟨holds.1, holds.2 next result⟩⟩

/-- A guard that asks nothing. -/
theorem guarded_true (state : State) (labels : List Label) :
    Guarded step (fun _ _ => True) state labels := by
  induction labels generalizing state with
  | nil => trivial
  | cons label rest ih => exact ⟨trivial, fun next _ => ih next⟩

/-- A guard that only asks about the label. -/
theorem guarded_of_mem {allowed : Label → Prop} {labels : List Label}
    (all : ∀ label ∈ labels, allowed label) (state : State) :
    Guarded step (fun _ label => allowed label) state labels := by
  induction labels generalizing state with
  | nil => trivial
  | cons label rest ih =>
    exact ⟨all label List.mem_cons_self, fun next _ =>
      ih (fun other member => all other (List.mem_cons_of_mem _ member)) next⟩

/-- Guards that ask the same. -/
theorem guarded_congr {guard' : State → Label → Prop}
    (same : ∀ state label, guard state label ↔ guard' state label) (state : State)
    (labels : List Label) : Guarded step guard state labels ↔ Guarded step guard' state labels := by
  have equal : guard = guard' := by
    ext state label
    exact same state label
  rw [equal]

theorem run_cons {state final : State} {label : Label} {rest : List Label}
    (ran : run step state (label :: rest) = some final) :
    ∃ next, step state label = some next ∧ run step next rest = some final :=
  Option.bind_eq_some_iff.mp ran

/-- **The invariant rule.** -/
theorem run_invariant (inv : State → Prop)
    (keep : ∀ {state label next}, inv state → guard state label →
      step state label = some next → inv next)
    {state final : State} {labels : List Label} (holds : inv state)
    (guarded : Guarded step guard state labels) (ran : run step state labels = some final) :
    inv final := by
  induction labels generalizing state with
  | nil =>
    cases ran
    exact holds
  | cons label rest ih =>
    obtain ⟨next, enabled, ran'⟩ := run_cons ran
    exact ih (keep holds guarded.1 enabled) (guarded.2 next enabled) ran'

/-- Every moment of the run, its beginning and its end included, satisfies `holds`. -/
def Always (step : State → Label → Option State) (holds : State → Prop) (state : State)
    (labels : List Label) : Prop :=
  ∀ earlier moment, earlier <+: labels → run step state earlier = some moment → holds moment

theorem always_nil {holds : State → Prop} {state : State} :
    Always step holds state [] ↔ holds state := by
  constructor
  · intro always
    exact always [] state List.nil_prefix rfl
  · intro now earlier moment short reached
    rw [List.prefix_nil.mp short] at reached
    cases reached
    exact now

theorem always_cons {holds : State → Prop} {state : State} {label : Label} {rest : List Label} :
    Always step holds state (label :: rest) ↔
      holds state ∧ ∀ next, step state label = some next → Always step holds next rest := by
  constructor
  · intro always
    refine ⟨always [] state List.nil_prefix rfl, fun next enabled earlier moment short reached => ?_⟩
    refine always (label :: earlier) moment (List.cons_prefix_cons.mpr ⟨rfl, short⟩) ?_
    exact Option.bind_eq_some_iff.mpr ⟨next, enabled, reached⟩
  · rintro ⟨now, later⟩ earlier moment short reached
    cases earlier with
    | nil =>
      cases reached
      exact now
    | cons first others =>
      obtain ⟨rfl, short'⟩ := List.cons_prefix_cons.mp short
      obtain ⟨next, enabled, reached'⟩ := run_cons reached
      exact later next enabled others moment short' reached'

/-- Holding at every moment, as a guard. -/
theorem always_iff {holds : State → Prop} {state : State} {labels : List Label} :
    Always step holds state labels ↔
      holds state ∧ Guarded step (fun state label => ∀ next ∈ step state label, holds next) state labels := by
  induction labels generalizing state with
  | nil => exact always_nil.trans (and_iff_left trivial).symm
  | cons label rest ih =>
    rw [always_cons]
    refine and_congr_right fun _ => ⟨fun later => ⟨fun next enabled => ?_, fun next enabled => ?_⟩,
      fun guarded next enabled => ?_⟩
    · exact (ih.mp (later next enabled)).1
    · exact (ih.mp (later next enabled)).2
    · exact ih.mpr ⟨guarded.1 next enabled, guarded.2 next enabled⟩

instance {holds : State → Prop} [DecidablePred holds] (state : State) (labels : List Label) :
    Decidable (Always step holds state labels) :=
  have (state : State) (label : Label) : Decidable (∀ next ∈ step state label, holds next) :=
    Option.decidableForallMem _
  decidable_of_iff _ always_iff.symm

/-- Two guards at once. -/
theorem guarded_and {guard' : State → Label → Prop} {state : State} {labels : List Label}
    (first : Guarded step guard state labels) (second : Guarded step guard' state labels) :
    Guarded step (fun state label => guard state label ∧ guard' state label) state labels := by
  induction labels generalizing state with
  | nil => trivial
  | cons label rest ih =>
    exact ⟨⟨first.1, second.1⟩, fun next enabled => ih (first.2 next enabled) (second.2 next enabled)⟩

/-- What an invariant gives holds at every moment of a guarded run. -/
theorem always_of_guarded (inv : State → Prop) {holds : State → Prop} {state : State}
    {labels : List Label}
    (keep : ∀ {state label next}, inv state → guard state label →
      step state label = some next → inv next)
    (gives : ∀ {state}, inv state → holds state) (base : inv state)
    (guarded : Guarded step guard state labels) : Always step holds state labels := by
  induction labels generalizing state with
  | nil => exact always_nil.mpr (gives base)
  | cons label rest ih =>
    refine always_cons.mpr ⟨gives base, fun next enabled => ?_⟩
    exact ih (keep base guarded.1 enabled) (guarded.2 next enabled)

/-- What every step can only grow, later moments of a run have grown. -/
theorem run_grows (inv : State → Prop) (grows : State → State → Prop)
    (refl : ∀ state, grows state state)
    (trans : ∀ {first second third}, grows first second → grows second third → grows first third)
    (keep : ∀ {state label next}, inv state → guard state label →
      step state label = some next → inv next ∧ grows state next)
    {state before after : State} {labels earlier later : List Label} (base : inv state)
    (guarded : Guarded step guard state labels) (first : earlier <+: later) (second : later <+: labels)
    (reached : run step state earlier = some before) (reached' : run step state later = some after) :
    grows before after := by
  induction labels generalizing state earlier later before with
  | nil =>
    rw [List.prefix_nil.mp second] at first reached'
    rw [List.prefix_nil.mp first] at reached
    cases reached
    cases reached'
    exact refl _
  | cons label rest ih =>
    cases later with
    | nil =>
      rw [List.prefix_nil.mp first] at reached
      cases reached
      cases reached'
      exact refl _
    | cons label' others =>
      obtain ⟨rfl, second'⟩ := List.cons_prefix_cons.mp second
      obtain ⟨next, enabled, ran⟩ := run_cons reached'
      obtain ⟨base', grown⟩ := keep base guarded.1 enabled
      cases earlier with
      | nil =>
        cases reached
        exact trans grown (ih base' (guarded.2 next enabled) List.nil_prefix second' rfl ran)
      | cons label'' others' =>
        obtain ⟨rfl, first'⟩ := List.cons_prefix_cons.mp first
        obtain ⟨next', enabled', ran'⟩ := run_cons reached
        rw [enabled] at enabled'
        cases enabled'
        exact ih base' (guarded.2 next enabled) first' second' ran' ran

/-- **The exact rule.** Where, under an invariant, a step keeps what held exactly if it meets the guard,
a run keeps it throughout exactly if it is guarded. -/
theorem always_iff_guarded (inv : State → Prop) {holds : State → Prop} {state : State}
    (labels : List Label)
    (keep : ∀ {state label next}, inv state → holds state → step state label = some next → inv next)
    (guards : ∀ {state} label, inv state → holds state →
      (guard state label ↔ ∀ next, step state label = some next → holds next))
    (base : inv state) (start : holds state) :
    Always step holds state labels ↔ Guarded step guard state labels := by
  induction labels generalizing state with
  | nil => exact always_nil.trans (iff_of_true start trivial)
  | cons label rest ih =>
    rw [always_cons]
    constructor
    · rintro ⟨_, later⟩
      have kept : ∀ next, step state label = some next → holds next := fun next enabled =>
        later next enabled [] next List.nil_prefix rfl
      exact ⟨(guards label base start).mpr kept, fun next enabled =>
        (ih (keep base start enabled) (kept next enabled)).mp (later next enabled)⟩
    · rintro ⟨met, later⟩
      refine ⟨start, fun next enabled => ?_⟩
      have kept := (guards label base start).mp met next enabled
      exact (ih (keep base start enabled) kept).mpr (later next enabled)

/-! ### Termination -/

section Weight

variable (stage : State → Nat → Prop)
  (keep : ∀ {state weight label next}, stage state weight → step state label = some next →
    ∃ less < weight, stage next less)

include keep

/-- **The termination rule.** Where every step takes the weight down, no run has more steps than the weight
it starts with. -/
theorem run_weight {state final : State} {labels : List Label} {weight : Nat}
    (start : stage state weight) (ran : run step state labels = some final) :
    ∃ left, labels.length + left ≤ weight ∧ stage final left := by
  induction labels generalizing state weight with
  | nil =>
    cases ran
    exact ⟨weight, Nat.le_of_eq (Nat.zero_add weight), start⟩
  | cons label rest ih =>
    obtain ⟨next, enabled, ran'⟩ := run_cons ran
    obtain ⟨less, smaller, start'⟩ := keep start enabled
    obtain ⟨left, within, reached⟩ := ih start' ran'
    rw [List.length_cons]
    exact ⟨left, by omega, reached⟩

/-- If moreover every state that is not done has a step, every state leads to one that is. -/
theorem exists_run_done (done : State → Prop)
    (progress : ∀ {state weight}, stage state weight →
      done state ∨ ∃ label next, step state label = some next)
    {state : State} {weight : Nat} (start : stage state weight) :
    ∃ labels final, run step state labels = some final ∧ done final := by
  -- Induction on the weight.
  induction weight using Nat.strongRecOn generalizing state with
  | _ weight ih =>
    rcases progress start with ended | ⟨label, next, enabled⟩
    · exact ⟨[], state, rfl, ended⟩
    · obtain ⟨less, smaller, start'⟩ := keep start enabled
      obtain ⟨labels, final, ran, ended⟩ := ih less smaller start'
      exact ⟨label :: labels, final, Option.bind_eq_some_iff.mpr ⟨next, enabled, ran⟩, ended⟩

end Weight

end Sententia.Library
