/-
**What a command log says of itself**, over every order of its operations, on 64-bit sequence numbers.

The retained entries, `lastSeq`, the snapshot boundary and `truncatedThrough` are moved by six operations
that do not look at each other. `setSnapshotBoundary` moves `lastSeq` past entries that stay, `clear`
leaves the boundary behind, and `truncateFrom` falls back on whichever of the two is higher.

* `Represents` — the entries and the answers of `at`, `termAt`, `range` and `canServeFrom` fit together.
* `represents_iff_consistent` — the same, in the fields of the log.
* `consistent_perform_iff` — which calls keep it.
* `represents_iff` — the runs in which it holds throughout.
-/

import Mathlib.Algebra.Group.Nat.Defs
import Sententia.Library.Transition
import Sententia.Replication.LogSpec

namespace Sententia

open Library

namespace CommandLog

/-- The operations, at 64-bit sequence numbers. -/
inductive Call
  | append (cmd : Command) (term : Nat)
  | appendAt (seq : UInt64) (term : Nat) (cmd : Command)
  | truncateFrom (seq : UInt64)
  | truncateThrough (seq : UInt64)
  | setSnapshotBoundary (seq : UInt64) (term : Nat)
  | clear

def perform (log : CommandLog) : Call → CommandLog
  | .append cmd term => (log.append cmd term).1
  -- A refused append leaves the log as it is.
  | .appendAt seq term cmd => (log.appendAt seq.toNat term cmd).getD log
  | .truncateFrom seq => log.truncateFrom seq.toNat
  | .truncateThrough seq => log.truncateThrough seq.toNat
  | .setSnapshotBoundary seq term => log.setSnapshotBoundary seq.toNat term
  | .clear => log.clear

def step (log : CommandLog) (call : Call) : Option CommandLog := some (log.perform call)

/-- Where `at` reads in the deque, once its guard has let it. -/
def offsetOf (log : CommandLog) (seq : Nat) : Option Nat :=
  if log.entries.isEmpty ∨ seq < log.firstSeq ∨ seq > log.lastSeq then none
  else some (seq - log.firstSeq)

/-- `canServeFrom` on 64 bits: `lastSeq + 1` and, in an empty log, `firstSeq` wrap. -/
def servesFrom (log : CommandLog) (fromSeq : Nat) : Bool :=
  fromSeq = (log.lastSeq + 1) % 2 ^ 64 ∨ (fromSeq ≥ log.firstSeq % 2 ^ 64 ∧ fromSeq ≤ log.lastSeq)

theorem at?_eq_offsetOf (log : CommandLog) (seq : Nat) :
    log.at? seq = (log.offsetOf seq).bind (log.entries[·]?) := by
  unfold at? offsetOf
  split <;> rfl

/-- The entries are numbered one by one, up to `lastSeq`. -/
def EndAt (entries : List LogEntry) (lastSeq : Nat) : Prop :=
  ∀ i entry, entries[i]? = some entry → entry.seq + (entries.length - 1 - i) = lastSeq

/-- The retained entries are consecutive and end at the log's `lastSeq`. -/
def Consecutive (log : CommandLog) : Prop := EndAt log.entries log.lastSeq

/-- The entries and the answers of a log fit together. -/
structure Represents (log : CommandLog) : Prop where
  consecutive : log.Consecutive
  /-- `at` never reads outside the deque. -/
  inside : ∀ seq offset, log.offsetOf seq = some offset → offset < log.entries.length
  held : ∀ seq entry, log.at? seq = some entry → entry.seq = seq
  termAt : ∀ seq entry, log.at? seq = some entry → log.termAt seq = some entry.term
  range : ∀ fromSeq count i entry, (log.range fromSeq count)[i]? = some entry → entry.seq = fromSeq + i
  canServeFrom : ∀ fromSeq < 2 ^ 64, log.servesFrom fromSeq = true ↔
    fromSeq = log.lastSeq + 1 ∨ (log.at? fromSeq).isSome

/-- The same, in the fields of the log. -/
structure Consistent (log : CommandLog) : Prop where
  consecutive : log.Consecutive
  fits : log.lastSeq + 1 < 2 ^ 64
  served : log.entries = [] → log.lastSeq ≤ log.truncatedThrough ∧ log.truncatedThrough + 1 < 2 ^ 64
  boundary : ∀ entry ∈ log.entries, entry.seq = log.snapshotSeq → entry.term = log.snapshotTerm

/-- What 64-bit counters that start from one give. -/
structure Bounded (log : CommandLog) : Prop where
  positive : ∀ entry ∈ log.entries, 0 < entry.seq
  lastSeq : log.lastSeq < 2 ^ 64
  snapshotSeq : log.snapshotSeq < 2 ^ 64
  truncated : log.truncatedThrough < 2 ^ 64

/-- The calls after which the log still fits together. -/
def Keeps (log : CommandLog) : Call → Prop
  | .append _ term =>
    log.lastSeq + 2 < 2 ^ 64 ∧ (log.lastSeq + 1 = log.snapshotSeq → term = log.snapshotTerm)
  | .appendAt seq term _ => seq.toNat = log.lastSeq + 1 →
    log.lastSeq + 2 < 2 ^ 64 ∧ (log.lastSeq + 1 = log.snapshotSeq → term = log.snapshotTerm)
  | .truncateFrom seq => (∀ entry ∈ log.entries, seq.toNat ≤ entry.seq) →
    log.snapshotSeq ≤ log.truncatedThrough ∧ log.truncatedThrough + 1 < 2 ^ 64
  | .truncateThrough _ => True
  | .setSnapshotBoundary seq term =>
    seq.toNat + 1 < 2 ^ 64 ∧ (log.entries ≠ [] → seq.toNat ≤ log.lastSeq) ∧
      ∀ entry ∈ log.entries, entry.seq = seq.toNat → entry.term = term
  | .clear => True

variable {log : CommandLog}

/-! ### The answers, from the fields -/

theorem offsetOf_eq_some {seq offset : Nat} :
    log.offsetOf seq = some offset ↔
      log.entries ≠ [] ∧ log.firstSeq ≤ seq ∧ seq ≤ log.lastSeq ∧ offset = seq - log.firstSeq := by
  unfold offsetOf
  simp only [List.isEmpty_iff]
  split_ifs with outside
  · refine iff_of_false (fun absent => nomatch absent) ?_
    rintro ⟨notEmpty, above, below, _⟩
    rcases outside with empty | less | more
    · exact notEmpty empty
    · omega
    · omega
  · rw [Option.some.injEq]
    push Not at outside
    obtain ⟨notEmpty, above, below⟩ := outside
    constructor
    · rintro rfl
      exact ⟨notEmpty, above, below, rfl⟩
    · rintro ⟨_, _, _, rfl⟩
      rfl

namespace EndAt

variable {entries kept : List LogEntry} {lastSeq : Nat}

theorem nil : EndAt [] lastSeq := fun _ _ found => nomatch found

theorem getLast? (endAt : EndAt entries lastSeq) {entry : LogEntry}
    (last : entries.getLast? = some entry) : entry.seq = lastSeq := by
  rw [List.getLast?_eq_getElem?] at last
  have inside := (List.getElem?_eq_some_iff.mp last).1
  have here := endAt _ entry last
  omega

theorem concat (endAt : EndAt entries lastSeq) {entry : LogEntry} (next : entry.seq = lastSeq + 1) :
    EndAt (entries ++ [entry]) (lastSeq + 1) := by
  intro i other found
  rw [List.length_append, List.length_singleton]
  by_cases old : i < entries.length
  · rw [List.getElem?_append_left old] at found
    have here := endAt i other found
    omega
  · rw [List.getElem?_append_right (by omega)] at found
    have inside := (List.getElem?_eq_some_iff.mp found).1
    obtain rfl := List.mem_singleton.mp (List.mem_of_getElem? found)
    rw [List.length_singleton] at inside
    omega

/-- Cut from the back, the entries end where the last of the rest does. -/
theorem of_prefix (endAt : EndAt entries lastSeq) (short : kept <+: entries) {entry : LogEntry}
    (last : kept.getLast? = some entry) : EndAt kept entry.seq ∧ entry.seq ≤ lastSeq := by
  obtain ⟨gone, rfl⟩ := short
  have stays : ∀ {i other}, kept[i]? = some other →
      i < kept.length ∧ other.seq + (kept.length + gone.length - 1 - i) = lastSeq := by
    intro i other found
    have inside := (List.getElem?_eq_some_iff.mp found).1
    rw [← List.length_append]
    exact ⟨inside, endAt i other ((List.getElem?_append_left inside).trans found)⟩
  rw [List.getLast?_eq_getElem?] at last
  obtain ⟨_, final⟩ := stays last
  refine ⟨fun i other found => ?_, by omega⟩
  obtain ⟨inside, here⟩ := stays found
  omega

/-- Cut from the front, they end where they did. -/
theorem of_suffix (endAt : EndAt entries lastSeq) (short : kept <:+ entries) :
    EndAt kept lastSeq := by
  obtain ⟨gone, rfl⟩ := short
  intro i entry found
  have here := endAt (gone.length + i) entry (by
    rw [List.getElem?_append_right (Nat.le_add_right _ _), Nat.add_sub_cancel_left]
    exact found)
  rw [List.length_append] at here
  omega

end EndAt

namespace Consecutive

/-- The first entry of a log that has one. -/
theorem firstSeq (consecutive : log.Consecutive) (notEmpty : log.entries ≠ []) :
    log.firstSeq + (log.entries.length - 1) = log.lastSeq := by
  unfold Consecutive at consecutive
  unfold CommandLog.firstSeq
  cases kept : log.entries with
  | nil => exact absurd kept notEmpty
  | cons entry rest =>
    rw [kept] at consecutive
    exact consecutive 0 entry rfl

theorem inside (consecutive : log.Consecutive) {seq offset : Nat}
    (reads : log.offsetOf seq = some offset) : offset < log.entries.length := by
  obtain ⟨notEmpty, above, below, rfl⟩ := offsetOf_eq_some.mp reads
  have first := consecutive.firstSeq notEmpty
  have nonempty := List.length_pos_iff.mpr notEmpty
  omega

theorem seq_of_getElem? (consecutive : log.Consecutive) {i : Nat} {entry : LogEntry}
    (found : log.entries[i]? = some entry) :
    i < log.entries.length ∧ entry.seq = log.firstSeq + i := by
  have inside := (List.getElem?_eq_some_iff.mp found).1
  have here := consecutive i entry found
  have first := consecutive.firstSeq (List.length_pos_iff.mp (Nat.zero_lt_of_lt inside))
  exact ⟨inside, by omega⟩

theorem at?_eq_some (consecutive : log.Consecutive) {seq : Nat} {entry : LogEntry}
    (found : log.at? seq = some entry) : entry ∈ log.entries ∧ entry.seq = seq := by
  rw [at?_eq_offsetOf] at found
  obtain ⟨offset, reads, here⟩ := Option.bind_eq_some_iff.mp found
  obtain ⟨_, above, _, rfl⟩ := offsetOf_eq_some.mp reads
  refine ⟨List.mem_of_getElem? here, ?_⟩
  rw [(consecutive.seq_of_getElem? here).2]
  omega

/-- A retained entry is found under its number. -/
theorem at?_of_mem (consecutive : log.Consecutive) {entry : LogEntry} (member : entry ∈ log.entries) :
    log.at? entry.seq = some entry := by
  obtain ⟨i, found⟩ := List.mem_iff_getElem?.mp member
  obtain ⟨inside, here⟩ := consecutive.seq_of_getElem? found
  have notEmpty := List.ne_nil_of_mem member
  have first := consecutive.firstSeq notEmpty
  have reads : log.offsetOf entry.seq = some i := by
    rw [offsetOf_eq_some]
    exact ⟨notEmpty, by omega, by omega, by omega⟩
  rw [at?_eq_offsetOf, reads]
  exact found

theorem at?_isSome_iff (consecutive : log.Consecutive) (seq : Nat) :
    (log.at? seq).isSome ↔ log.entries ≠ [] ∧ log.firstSeq ≤ seq ∧ seq ≤ log.lastSeq := by
  constructor
  · intro held
    obtain ⟨entry, found⟩ := Option.isSome_iff_exists.mp held
    rw [at?_eq_offsetOf] at found
    obtain ⟨offset, reads, _⟩ := Option.bind_eq_some_iff.mp found
    obtain ⟨notEmpty, above, below, _⟩ := offsetOf_eq_some.mp reads
    exact ⟨notEmpty, above, below⟩
  · rintro ⟨notEmpty, above, below⟩
    have reads := offsetOf_eq_some.mpr ⟨notEmpty, above, below, rfl⟩
    rw [at?_eq_offsetOf, reads, Option.bind_some,
      List.getElem?_eq_getElem (consecutive.inside reads)]
    rfl

theorem range (consecutive : log.Consecutive) {fromSeq count i : Nat} {entry : LogEntry}
    (found : (log.range fromSeq count)[i]? = some entry) : entry.seq = fromSeq + i := by
  unfold CommandLog.range at found
  split_ifs at found with nothing before
  · cases found
  · cases found
  · rw [List.getElem?_take] at found
    split_ifs at found
    rw [List.getElem?_drop] at found
    rw [(consecutive.seq_of_getElem? found).2]
    omega

end Consecutive

/-- **The answers of a log fit together exactly if its fields do.** -/
theorem represents_iff_consistent (bounded : log.Bounded) : log.Represents ↔ log.Consistent := by
  constructor
  · intro represents
    have consecutive := represents.consecutive
    have none_zero : ¬ (log.at? 0).isSome := by
      intro held
      obtain ⟨entry, found⟩ := Option.isSome_iff_exists.mp held
      obtain ⟨member, zero⟩ := consecutive.at?_eq_some found
      have positive := bounded.positive entry member
      omega
    have fits : log.lastSeq + 1 < 2 ^ 64 := by
      by_contra wraps
      -- `lastSeq + 1` has wrapped to zero, which the log says it serves.
      have below := bounded.lastSeq
      have zero : (log.lastSeq + 1) % 2 ^ 64 = 0 := by omega
      rcases (represents.canServeFrom 0 (by omega)).mp
        (decide_eq_true (Or.inl zero.symm)) with next | held
      · omega
      · exact none_zero held
    refine ⟨consecutive, fits, fun empty => ?_, fun entry member same => ?_⟩
    · have first : log.firstSeq = log.truncatedThrough + 1 := by
        unfold firstSeq
        rw [empty]
      have nothing : ∀ seq, ¬ (log.at? seq).isSome := fun seq held =>
        ((consecutive.at?_isSome_iff seq).mp held).1 empty
      have below := bounded.truncated
      have fits' : log.truncatedThrough + 1 < 2 ^ 64 := by
        by_contra wraps
        have zero : log.firstSeq % 2 ^ 64 = 0 := by omega
        rcases (represents.canServeFrom 0 (by omega)).mp
          (decide_eq_true (Or.inr ⟨by omega, Nat.zero_le _⟩)) with next | held
        · omega
        · exact nothing 0 held
      refine ⟨?_, fits'⟩
      by_contra more
      rcases (represents.canServeFrom (log.truncatedThrough + 1) fits').mp
        (decide_eq_true (Or.inr ⟨by rw [first]; exact Nat.mod_le _ _, by omega⟩)) with next | held
      · omega
      · exact nothing _ held
    · have known := represents.termAt entry.seq entry (consecutive.at?_of_mem member)
      have positive := bounded.positive entry member
      unfold CommandLog.termAt at known
      rw [if_neg (by omega), if_pos ⟨same, by omega⟩] at known
      exact (Option.some.inj known).symm
  · intro consistent
    have consecutive := consistent.consecutive
    have fits := consistent.fits
    refine ⟨consecutive, fun _ _ => consecutive.inside,
      fun _ _ found => (consecutive.at?_eq_some found).2, fun seq entry found => ?_,
      fun _ _ _ _ => consecutive.range, fun fromSeq _ => ?_⟩
    · obtain ⟨member, rfl⟩ := consecutive.at?_eq_some found
      have positive := bounded.positive entry member
      unfold CommandLog.termAt
      rw [if_neg (by omega)]
      split_ifs with boundary
      · rw [consistent.boundary entry member boundary.1]
      · rw [found]
        rfl
    · unfold servesFrom
      rw [decide_eq_true_eq, consecutive.at?_isSome_iff, Nat.mod_eq_of_lt fits]
      by_cases empty : log.entries = []
      · have first : log.firstSeq = log.truncatedThrough + 1 := by
          unfold firstSeq
          rw [empty]
        obtain ⟨below, fits'⟩ := consistent.served empty
        rw [first, Nat.mod_eq_of_lt fits']
        simp only [empty, ne_eq, not_true_eq_false, false_and, or_false]
        omega
      · have first := consecutive.firstSeq empty
        rw [Nat.mod_eq_of_lt (show log.firstSeq < 2 ^ 64 by omega)]
        simp only [ne_eq, empty, not_false_eq_true, true_and]

/-! ### The calls -/

theorem popBackFrom_front (seq : Nat) (entries : List LogEntry) :
    popBackFrom seq entries <+: entries :=
  List.rdropWhile_prefix _ entries

theorem popBackFrom_eq_nil_iff (seq : Nat) (entries : List LogEntry) :
    popBackFrom seq entries = [] ↔ ∀ entry ∈ entries, seq ≤ entry.seq := by
  refine List.rdropWhile_eq_nil_iff.trans (forall₂_congr fun entry _ => ?_)
  exact decide_eq_true_iff

/-- Popping from the front leaves a suffix, and the number of the last entry popped. -/
theorem popFrontThrough_suffix (seq truncated : Nat) (entries : List LogEntry) :
    (popFrontThrough seq truncated entries).2 <:+ entries ∧
      ((popFrontThrough seq truncated entries).2 = [] →
        (popFrontThrough seq truncated entries).1 = (entries.getLast?.map (·.seq)).getD truncated) := by
  induction entries generalizing truncated with
  | nil => exact ⟨List.suffix_rfl, fun _ => rfl⟩
  | cons first rest ih =>
    unfold popFrontThrough
    by_cases gone : first.seq ≤ seq
    · rw [if_pos gone]
      obtain ⟨suffix, all⟩ := ih first.seq
      refine ⟨suffix.trans (List.suffix_cons first rest), fun empty => ?_⟩
      rw [all empty]
      cases rest with
      | nil => rfl
      | cons second others => rw [List.getLast?_cons_cons, List.getLast?_cons]; rfl
    · rw [if_neg gone]
      exact ⟨List.suffix_rfl, fun empty => absurd empty (List.cons_ne_nil _ _)⟩

theorem popFrontThrough_le (seq truncated : Nat) (entries : List LogEntry) :
    (popFrontThrough seq truncated entries).1 ≤ max truncated seq := by
  induction entries generalizing truncated with
  | nil => exact Nat.le_max_left _ _
  | cons first rest ih =>
    unfold popFrontThrough
    by_cases gone : first.seq ≤ seq
    · rw [if_pos gone]
      have later := ih first.seq
      omega
    · rw [if_neg gone]
      exact Nat.le_max_left _ _

namespace Consecutive

theorem append (consecutive : log.Consecutive) (cmd : Command) (term : Nat) :
    (log.append cmd term).1.Consecutive := EndAt.concat consecutive rfl

theorem appendAt (consecutive : log.Consecutive) {seq term : Nat} {cmd : Command} {log' : CommandLog}
    (grown : log.appendAt seq term cmd = some log') : log'.Consecutive := by
  unfold CommandLog.appendAt at grown
  split_ifs at grown with refused
  obtain rfl := Option.some.inj grown
  show EndAt _ seq
  rw [not_not.mp refused]
  exact EndAt.concat consecutive rfl

theorem truncateFrom (consecutive : log.Consecutive) (seq : Nat) :
    (log.truncateFrom seq).Consecutive := by
  simp only [Consecutive, CommandLog.truncateFrom]
  cases last : (popBackFrom seq log.entries).getLast? with
  | none =>
    rw [List.getLast?_eq_none_iff.mp last]
    exact EndAt.nil
  | some entry => exact (EndAt.of_prefix consecutive (popBackFrom_front seq log.entries) last).1

theorem truncateThrough (consecutive : log.Consecutive) (seq : Nat) :
    (log.truncateThrough seq).Consecutive :=
  EndAt.of_suffix consecutive (popFrontThrough_suffix seq log.truncatedThrough log.entries).1

end Consecutive

theorem consistent_append_iff (consistent : log.Consistent) (cmd : Command) (term : Nat) :
    (log.append cmd term).1.Consistent ↔
      log.lastSeq + 2 < 2 ^ 64 ∧ (log.lastSeq + 1 = log.snapshotSeq → term = log.snapshotTerm) := by
  constructor
  · intro appended
    exact ⟨appended.fits, appended.boundary _ (List.mem_append_right _ List.mem_cons_self)⟩
  · rintro ⟨fits, agrees⟩
    refine ⟨consistent.consecutive.append cmd term, fits, fun empty => ?_, fun entry member => ?_⟩
    · exact absurd empty (List.append_ne_nil_of_right_ne_nil _ (List.cons_ne_nil _ _))
    · rcases List.mem_append.mp member with old | new
      · exact consistent.boundary entry old
      · obtain rfl := List.mem_singleton.mp new
        exact agrees

theorem consistent_truncateFrom_iff (consistent : log.Consistent) (seq : Nat) :
    (log.truncateFrom seq).Consistent ↔ ((∀ entry ∈ log.entries, seq ≤ entry.seq) →
      log.snapshotSeq ≤ log.truncatedThrough ∧ log.truncatedThrough + 1 < 2 ^ 64) := by
  have short := popBackFrom_front seq log.entries
  have consecutive := consistent.consecutive.truncateFrom seq
  rw [← popBackFrom_eq_nil_iff]
  unfold truncateFrom at consecutive ⊢
  generalize popBackFrom seq log.entries = kept at short consecutive ⊢
  cases last : kept.getLast? with
  | none =>
    obtain rfl := List.getLast?_eq_none_iff.mp last
    constructor
    · intro truncated _
      have served := truncated.served rfl
      simp only [List.getLast?_nil] at served
      split_ifs at served with above
      · omega
      · omega
    · intro kept
      obtain ⟨below, fits⟩ := kept rfl
      refine ⟨consecutive, ?_, fun _ => ⟨?_, fits⟩,
        fun entry member => absurd member List.not_mem_nil⟩
      · simp only [if_neg (Nat.not_lt.mpr below)]
        exact fits
      · simp only [if_neg (Nat.not_lt.mpr below)]
        exact Nat.le_refl _
  | some entry =>
    have notEmpty : kept ≠ [] := by
      rintro rfl
      cases last
    refine iff_of_true ?_ fun empty => absurd empty notEmpty
    -- The last entry that stays carries the new `lastSeq`.
    have below := (EndAt.of_prefix consistent.consecutive short last).2
    have fits := consistent.fits
    refine ⟨consecutive, ?_, fun empty => absurd empty notEmpty, fun other member => ?_⟩
    · simp only [last]
      omega
    · exact consistent.boundary other (short.subset member)

theorem Consistent.truncateThrough (consistent : log.Consistent) (seq : Nat) :
    (log.truncateThrough seq).Consistent := by
  obtain ⟨suffix, all⟩ := popFrontThrough_suffix seq log.truncatedThrough log.entries
  refine ⟨consistent.consecutive.truncateThrough seq, consistent.fits, fun empty => ?_,
    fun entry member => consistent.boundary entry (suffix.subset member)⟩
  unfold CommandLog.truncateThrough at empty ⊢
  generalize popFrontThrough seq log.truncatedThrough log.entries = popped at all empty ⊢
  show log.lastSeq ≤ popped.1 ∧ popped.1 + 1 < 2 ^ 64
  rw [all empty]
  cases last : log.entries.getLast? with
  | none => exact consistent.served (List.getLast?_eq_none_iff.mp last)
  | some entry =>
    have fits := consistent.fits
    have same := EndAt.getLast? consistent.consecutive last
    simp only [Option.map_some, Option.getD_some]
    omega

theorem consistent_setSnapshotBoundary_iff (consistent : log.Consistent) (seq term : Nat) :
    (log.setSnapshotBoundary seq term).Consistent ↔
      seq + 1 < 2 ^ 64 ∧ (log.entries ≠ [] → seq ≤ log.lastSeq) ∧
        ∀ entry ∈ log.entries, entry.seq = seq → entry.term = term := by
  have highest : (log.setSnapshotBoundary seq term).lastSeq = max log.lastSeq seq := by
    unfold setSnapshotBoundary
    simp only
    split_ifs <;> omega
  have dropped :
      (log.setSnapshotBoundary seq term).truncatedThrough = max log.truncatedThrough seq := by
    unfold setSnapshotBoundary
    simp only
    split_ifs <;> omega
  have fits := consistent.fits
  constructor
  · intro moved
    have fits' := moved.fits
    refine ⟨by omega, fun notEmpty => ?_, moved.boundary⟩
    obtain ⟨entry, rest, kept⟩ := List.exists_cons_of_ne_nil notEmpty
    have head : log.entries[0]? = some entry := by rw [kept]; rfl
    have same := (moved.consecutive 0 entry head).symm.trans (consistent.consecutive 0 entry head)
    omega
  · rintro ⟨fits', inside, agrees⟩
    refine ⟨fun i entry found => ?_, by omega, fun empty => ?_, agrees⟩
    · have here := consistent.consecutive i entry found
      have below := inside (List.ne_nil_of_mem (List.mem_of_getElem? found))
      rw [highest]
      exact here.trans (by omega)
    · obtain ⟨below, fits''⟩ := consistent.served empty
      rw [highest, dropped]
      omega

theorem consistent_clear (log : CommandLog) : log.clear.Consistent :=
  ⟨EndAt.nil, Nat.one_lt_two_pow (by decide),
    fun _ => ⟨Nat.le_refl 0, Nat.one_lt_two_pow (by decide)⟩,
    fun _ member => absurd member List.not_mem_nil⟩

/-- **One call** leaves a log that fits together exactly if it is one of the calls that keep it. -/
theorem consistent_perform_iff (consistent : log.Consistent) (call : Call) :
    (log.perform call).Consistent ↔ log.Keeps call := by
  cases call with
  | append cmd term => exact consistent_append_iff consistent cmd term
  | appendAt seq term cmd =>
    simp only [perform, CommandLog.appendAt, Keeps]
    split_ifs with refused
    · exact iff_of_true consistent fun next => absurd next refused
    · have next := not_not.mp refused
      simp only [Option.getD_some, next, true_implies]
      exact consistent_append_iff consistent cmd term
  | truncateFrom seq => exact consistent_truncateFrom_iff consistent seq.toNat
  | truncateThrough seq => exact iff_of_true (consistent.truncateThrough seq.toNat) trivial
  | setSnapshotBoundary seq term =>
    exact consistent_setSnapshotBoundary_iff consistent seq.toNat term
  | clear => exact iff_of_true (consistent_clear log) trivial

/-- The counters stay in 64 bits for as long as the log fits together. -/
theorem Bounded.perform (bounded : log.Bounded) (consistent : log.Consistent) (call : Call) :
    (log.perform call).Bounded := by
  have appended : ∀ cmd term, (log.append cmd term).1.Bounded := fun cmd term => by
    refine ⟨fun entry member => ?_, consistent.fits, bounded.snapshotSeq, bounded.truncated⟩
    rcases List.mem_append.mp member with old | new
    · exact bounded.positive entry old
    · obtain rfl := List.mem_singleton.mp new
      exact Nat.succ_pos _
  have lastSeq := bounded.lastSeq
  have snapshotSeq := bounded.snapshotSeq
  have truncated := bounded.truncated
  cases call with
  | append cmd term => exact appended cmd term
  | appendAt seq term cmd =>
    simp only [CommandLog.perform, CommandLog.appendAt]
    split_ifs with refused
    · exact bounded
    · have next := not_not.mp refused
      simp only [Option.getD_some, next]
      exact appended cmd term
  | truncateFrom seq =>
    have short := popBackFrom_front seq.toNat log.entries
    refine ⟨fun entry member => bounded.positive entry (short.subset member), ?_, snapshotSeq,
      truncated⟩
    simp only [CommandLog.perform, CommandLog.truncateFrom]
    cases last : (popBackFrom seq.toNat log.entries).getLast? with
    | none =>
      simp only
      split_ifs
      · exact snapshotSeq
      · exact truncated
    | some entry => exact Nat.lt_of_le_of_lt (EndAt.of_prefix consistent.consecutive short last).2 lastSeq
  | truncateThrough seq =>
    have short := (popFrontThrough_suffix seq.toNat log.truncatedThrough log.entries).1
    refine ⟨fun entry member => bounded.positive entry (short.subset member), lastSeq, snapshotSeq, ?_⟩
    have dropped := popFrontThrough_le seq.toNat log.truncatedThrough log.entries
    exact Nat.lt_of_le_of_lt dropped (Nat.max_lt.mpr ⟨truncated, seq.toNat_lt⟩)
  | setSnapshotBoundary seq term =>
    refine ⟨bounded.positive, ?_, seq.toNat_lt, ?_⟩
    · simp only [CommandLog.perform, CommandLog.setSnapshotBoundary]
      split_ifs
      · exact seq.toNat_lt
      · exact lastSeq
    · simp only [CommandLog.perform, CommandLog.setSnapshotBoundary]
      split_ifs
      · exact seq.toNat_lt
      · exact truncated
  | clear =>
    exact ⟨fun _ member => absurd member List.not_mem_nil, Nat.two_pow_pos 64, snapshotSeq,
      Nat.two_pow_pos 64⟩

theorem bounded_empty : Bounded {} :=
  ⟨fun _ member => absurd member List.not_mem_nil, Nat.two_pow_pos 64, Nat.two_pow_pos 64,
    Nat.two_pow_pos 64⟩

/-- **A log represents what was appended to it** throughout exactly those runs in which every call
keeps its counters together. -/
theorem represents_iff (calls : List Call) :
    Always step Represents {} calls ↔ Guarded step Keeps {} calls := by
  refine always_iff_guarded Bounded calls ?_ ?_ bounded_empty ?_
  · intro log call next bounded represents enabled
    obtain rfl := Option.some.inj enabled
    exact bounded.perform ((represents_iff_consistent bounded).mp represents) call
  · intro log call bounded represents
    have consistent := (represents_iff_consistent bounded).mp represents
    have kept := bounded.perform consistent call
    rw [← consistent_perform_iff consistent call, ← represents_iff_consistent kept]
    constructor
    · intro holds next enabled
      obtain rfl := Option.some.inj enabled
      exact holds
    · intro holds
      exact holds _ rfl
  · exact (represents_iff_consistent bounded_empty).mpr (consistent_clear {})

/-- One entry, and a snapshot boundary past it. -/
def boundaryPast : List Call :=
  [.append (.cancelOrder { id := 1 }) 0, .setSnapshotBoundary 5 0]

/-- The log then says it holds entries up to 5, and `at(3)` reads behind the only one there is. -/
theorem boundary_past_entries :
    (∃ log, run step {} boundaryPast = some log ∧ log.lastSeq = 5 ∧ log.entries.length = 1 ∧
      log.offsetOf 3 = some 2) ∧
      ¬ Always step Represents {} boundaryPast := by
  have reads : ∃ log, run step {} boundaryPast = some log ∧ log.lastSeq = 5 ∧
      log.entries.length = 1 ∧ log.offsetOf 3 = some 2 := ⟨_, rfl, by decide, by decide, by decide⟩
  refine ⟨reads, fun always => ?_⟩
  obtain ⟨log, reached, _, single, outside⟩ := reads
  have inside := (always boundaryPast log List.prefix_rfl reached).inside 3 2 outside
  omega

end CommandLog

end Sententia
