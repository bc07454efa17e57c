/-
**What a command log stands for.** `Retains log history` reads a log as the numbered list of everything
ever appended and not truncated from the back, less a compacted front. Every operation of the log is
stated once against this list; a log that was never compacted is `Whole`.
-/

import Mathlib.Data.List.TakeDrop
import Mathlib.Data.List.DropRight
import Sententia.Library.LeaderLog
import Sententia.Replication.CommandLog

namespace Sententia

open Library

/-- Sequence numbers are positions, counted from one. -/
def Numbered (history : List LogEntry) : Prop :=
  ∀ i (inside : i < history.length), history[i].seq = i + 1

namespace Numbered

theorem nil : Numbered [] := fun _ inside => absurd inside (Nat.not_lt_zero _)

theorem take {history : List LogEntry} (numbered : Numbered history) (count : Nat) :
    Numbered (history.take count) := by
  intro i inside
  rw [List.getElem_take]
  exact numbered i _

theorem append {history : List LogEntry} (numbered : Numbered history) {entry : LogEntry}
    (next : entry.seq = history.length + 1) : Numbered (history ++ [entry]) := by
  intro i inside
  by_cases old : i < history.length
  · rw [List.getElem_append_left old]
    exact numbered i old
  · have last : i = history.length := by
      rw [List.length_append, List.length_singleton] at inside
      omega
    subst last
    rw [List.getElem_append_right (Nat.le_refl _)]
    simpa using next

theorem seq_of_getElem? {history : List LogEntry} (numbered : Numbered history) {i : Nat}
    {entry : LogEntry} (found : history[i]? = some entry) : entry.seq = i + 1 := by
  obtain ⟨inside, rfl⟩ := List.getElem?_eq_some_iff.mp found
  exact numbered i inside

end Numbered

namespace CommandLog

/-- The log stands for `history`, of which it has dropped the first `truncatedThrough` entries. -/
structure Retains (log : CommandLog) (history : List LogEntry) : Prop where
  numbered : Numbered history
  noSnapshot : log.snapshotSeq = 0
  compacted : log.truncatedThrough ≤ history.length
  entries : log.entries = history.drop log.truncatedThrough
  lastSeq : log.lastSeq = history.length

theorem retains_empty : Retains {} [] :=
  ⟨Numbered.nil, rfl, Nat.le_refl _, rfl, rfl⟩

namespace Retains

variable {log : CommandLog} {history : List LogEntry}

theorem entries_eq_nil_iff (retains : Retains log history) :
    log.entries = [] ↔ history.length = log.truncatedThrough := by
  have compacted := retains.compacted
  rw [retains.entries, List.drop_eq_nil_iff]
  omega

theorem firstSeq (retains : Retains log history) : log.firstSeq = log.truncatedThrough + 1 := by
  unfold CommandLog.firstSeq
  cases kept : log.entries with
  | nil => rfl
  | cons first rest =>
    have found : history[log.truncatedThrough]? = some first := by
      rw [retains.entries] at kept
      have head := congrArg (fun entries => entries[0]?) kept
      simpa using head
    exact retains.numbered.seq_of_getElem? found

/-- **`at`**: the entry of the history, unless it has been dropped. -/
theorem at?_eq (retains : Retains log history) (seq : Nat) :
    log.at? seq = if log.truncatedThrough < seq then history[seq - 1]? else none := by
  have compacted := retains.compacted
  unfold CommandLog.at?
  simp only [retains.firstSeq, retains.lastSeq, List.isEmpty_iff, retains.entries_eq_nil_iff]
  by_cases dropped : log.truncatedThrough < seq
  · rw [if_pos dropped]
    by_cases outside : history.length < seq
    · rw [if_pos (Or.inr (Or.inr outside)), List.getElem?_eq_none (by omega)]
    · rw [if_neg (by omega), retains.entries, List.getElem?_drop]
      congr 1
      omega
  · rw [if_pos (by omega), if_neg dropped]

/-- **`termAt`**: zero before the log, the term of the entry, nothing for a dropped one. -/
theorem termAt_eq (retains : Retains log history) (seq : Nat) :
    log.termAt seq = if seq = 0 then some 0 else (log.at? seq).map (·.term) := by
  unfold CommandLog.termAt
  have noSnapshot := retains.noSnapshot
  by_cases zero : seq = 0
  · rw [if_pos zero, if_pos zero]
  · rw [if_neg zero, if_neg zero, if_neg (by omega)]

/-- A log that knows the term of a position reaches it. -/
theorem le_of_termAt (retains : Retains log history) {seq term : Nat}
    (known : log.termAt seq = some term) : seq ≤ history.length := by
  rw [retains.termAt_eq, retains.at?_eq] at known
  by_contra outside
  rw [if_neg (by omega), List.getElem?_eq_none (by omega)] at known
  split at known <;> cases known

/-- **`range`**: a slice of the history. -/
theorem range_eq (retains : Retains log history) {fromSeq count : Nat} (positive : 0 < count)
    (kept : log.truncatedThrough < fromSeq) (inside : fromSeq ≤ history.length) :
    log.range fromSeq count = (history.drop (fromSeq - 1)).take count := by
  unfold CommandLog.range
  simp only [retains.firstSeq, retains.lastSeq, List.isEmpty_iff, retains.entries_eq_nil_iff]
  rw [if_neg (by omega), if_neg (by omega), retains.entries, List.drop_drop]
  congr 2
  omega

theorem canServeFrom_iff (retains : Retains log history) (fromSeq : Nat) :
    log.canServeFrom fromSeq = true ↔
      fromSeq = history.length + 1 ∨ (log.truncatedThrough < fromSeq ∧ fromSeq ≤ history.length) := by
  unfold CommandLog.canServeFrom
  rw [decide_eq_true_eq, retains.firstSeq, retains.lastSeq]
  omega

/-- What the log serves up to its head has not been dropped. -/
theorem kept_of_served (retains : Retains log history) {fromSeq : Nat} (inside : fromSeq ≤ log.lastSeq)
    (served : log.canServeFrom fromSeq = true) : log.truncatedThrough < fromSeq := by
  rw [retains.lastSeq] at inside
  rcases (retains.canServeFrom_iff fromSeq).mp served with past | ⟨kept, _⟩
  · omega
  · exact kept

/-- **`append`** extends the history. -/
theorem append (retains : Retains log history) (cmd : Command) (term : Nat) :
    Retains (log.append cmd term).1
      (history ++ [{ seq := history.length + 1, term, command := cmd }]) where
  numbered := retains.numbered.append rfl
  noSnapshot := retains.noSnapshot
  compacted := by
    have compacted := retains.compacted
    rw [List.length_append]
    exact Nat.le_add_right_of_le compacted
  entries := by
    show log.entries ++ _ = _
    rw [retains.entries, retains.lastSeq]
    exact (List.drop_append_of_le_length retains.compacted).symm
  lastSeq := by
    show log.lastSeq + 1 = _
    rw [retains.lastSeq, List.length_append, List.length_singleton]

/-- **`appendAt`** extends the history by its next entry and nothing else. -/
theorem appendAt (retains : Retains log history) (seq term : Nat) (cmd : Command) :
    (seq = history.length + 1 ∧ ∃ log', log.appendAt seq term cmd = some log' ∧
        Retains log' (history ++ [{ seq, term, command := cmd }]) ∧
          log'.truncatedThrough = log.truncatedThrough) ∨
      (seq ≠ history.length + 1 ∧ log.appendAt seq term cmd = none) := by
  unfold CommandLog.appendAt
  rw [retains.lastSeq]
  by_cases next : seq = history.length + 1
  · refine Or.inl ⟨next, _, if_neg (not_not.mpr next), ?_, rfl⟩
    subst next
    have appended := retains.append cmd term
    unfold CommandLog.append at appended
    rw [retains.lastSeq] at appended
    exact appended
  · exact Or.inr ⟨next, if_pos next⟩

/-- Popping from the back removes exactly the entries at or after `seq`. -/
theorem popBackFrom_append {seq : Nat} {kept gone : List LogEntry}
    (before : ∀ entry ∈ kept, entry.seq < seq) (after : ∀ entry ∈ gone, seq ≤ entry.seq) :
    popBackFrom seq (kept ++ gone) = kept := by
  unfold popBackFrom
  rw [List.reverse_append, List.dropWhile_append_of_pos, List.dropWhile_eq_self_iff.mpr,
    List.reverse_reverse]
  · intro notEmpty
    have member : kept.reverse[0] ∈ kept := List.mem_reverse.mp (List.getElem_mem notEmpty)
    have less := before _ member
    simp only [decide_eq_true_eq]
    omega
  · intro entry member
    exact decide_eq_true (after entry (List.mem_reverse.mp member))

/-- **`truncateFrom`** cuts the history. -/
theorem truncateFrom (retains : Retains log history) {seq : Nat}
    (kept : log.truncatedThrough < seq) :
    Retains (log.truncateFrom seq) (history.take (seq - 1)) := by
  have compacted := retains.compacted
  have numbered := retains.numbered
  have split : log.entries = (history.take (seq - 1)).drop log.truncatedThrough ++
      history.drop (seq - 1) := by
    rw [retains.entries, ← List.drop_append_of_le_length (by rw [List.length_take]; omega),
      List.take_append_drop]
  have popped : popBackFrom seq log.entries = (history.take (seq - 1)).drop log.truncatedThrough := by
    rw [split]
    refine popBackFrom_append (fun entry member => ?_) (fun entry member => ?_)
    · obtain ⟨i, found⟩ := List.mem_iff_getElem?.mp (List.mem_of_mem_drop member)
      have inside : i < (history.take (seq - 1)).length := (List.getElem?_eq_some_iff.mp found).1
      rw [(numbered.take (seq - 1)).seq_of_getElem? found]
      rw [List.length_take] at inside
      omega
    · obtain ⟨i, found⟩ := List.mem_iff_getElem?.mp member
      rw [List.getElem?_drop] at found
      rw [numbered.seq_of_getElem? found]
      omega
  refine ⟨numbered.take _, retains.noSnapshot, ?_, popped, ?_⟩
  · show log.truncatedThrough ≤ _
    rw [List.length_take]
    omega
  · simp only [CommandLog.truncateFrom, popped]
    cases last : ((history.take (seq - 1)).drop log.truncatedThrough).getLast? with
    | none =>
      have empty := List.getLast?_eq_none_iff.mp last
      rw [List.drop_eq_nil_iff, List.length_take] at empty
      have noSnapshot := retains.noSnapshot
      simp only
      rw [if_neg (by omega), List.length_take]
      omega
    | some entry =>
      have found := last
      rw [List.getLast?_eq_getElem?, List.getElem?_drop] at found
      have inside := (List.getElem?_eq_some_iff.mp found).1
      simp only
      rw [(numbered.take (seq - 1)).seq_of_getElem? found]
      rw [List.length_drop] at inside ⊢
      omega

theorem popFrontThrough_drop (numbered : Numbered history) (seq : Nat) (k : Nat)
    (inside : k ≤ history.length) :
    popFrontThrough seq k (history.drop k) =
      (max k (min seq history.length), history.drop (max k (min seq history.length))) := by
  -- Induction on the number of entries left.
  induction left : history.length - k generalizing k with
  | zero =>
    have all : k = history.length := by omega
    have same : max k (min seq history.length) = k := by omega
    rw [same, all, List.drop_length]
    rfl
  | succ left ih =>
    have more : k < history.length := by omega
    rw [List.drop_eq_getElem_cons more, popFrontThrough, numbered k more]
    by_cases gone : k + 1 ≤ seq
    · rw [if_pos gone, ih (k + 1) more (by omega)]
      have same : max (k + 1) (min seq history.length) = max k (min seq history.length) := by omega
      rw [same]
    · have same : max k (min seq history.length) = k := by omega
      rw [if_neg gone, same, ← List.drop_eq_getElem_cons more]

/-- **`truncateThrough`** keeps the history and drops more of its front. -/
theorem truncateThrough (retains : Retains log history) (seq : Nat) :
    Retains (log.truncateThrough seq) history ∧
      (log.truncateThrough seq).truncatedThrough =
        max log.truncatedThrough (min seq history.length) := by
  have compacted := retains.compacted
  have popped := popFrontThrough_drop retains.numbered seq log.truncatedThrough compacted
  unfold CommandLog.truncateThrough
  rw [retains.entries, popped]
  refine ⟨⟨retains.numbered, retains.noSnapshot, ?_, rfl, retains.lastSeq⟩, rfl⟩
  show max log.truncatedThrough (min seq history.length) ≤ history.length
  omega

end Retains

/-! ### Logs that were never compacted -/

/-- The log holds everything it ever appended and did not truncate from the back. -/
structure Whole (log : CommandLog) : Prop where
  retains : Retains log log.entries
  uncompacted : log.truncatedThrough = 0

theorem whole_empty : Whole {} := ⟨retains_empty, rfl⟩

namespace Whole

variable {log : CommandLog}

theorem lastSeq (whole : Whole log) : log.lastSeq = log.entries.length := whole.retains.lastSeq

theorem at?_eq (whole : Whole log) {seq : Nat} (positive : 0 < seq) :
    log.at? seq = log.entries[seq - 1]? := by
  rw [whole.retains.at?_eq, whole.uncompacted, if_pos positive]

theorem at?_zero (whole : Whole log) : log.at? 0 = none := by
  rw [whole.retains.at?_eq, if_neg (Nat.not_lt_zero _)]

theorem at?_succ (whole : Whole log) (i : Nat) : log.at? (i + 1) = log.entries[i]? :=
  whole.at?_eq (Nat.succ_pos i)

theorem termAt_eq_none (whole : Whole log) {i : Nat} (outside : log.entries.length ≤ i) :
    log.termAt (i + 1) = none := by
  rw [whole.retains.termAt_eq, if_neg (Nat.succ_ne_zero i), whole.at?_succ,
    List.getElem?_eq_none outside]
  rfl

theorem termAt_eq (whole : Whole log) {i : Nat} (inside : i < log.entries.length) :
    log.termAt (i + 1) = some log.entries[i].term := by
  rw [whole.retains.termAt_eq, if_neg (Nat.succ_ne_zero i), whole.at?_succ,
    List.getElem?_eq_getElem inside]
  rfl

theorem termAt_eq_lastTerm (whole : Whole log) {seq : Nat} (inside : seq ≤ log.entries.length) :
    log.termAt seq = some (lastTerm LogEntry.term (log.entries.take seq)) := by
  cases seq with
  | zero => rfl
  | succ i => rw [whole.termAt_eq inside, lastTerm_take LogEntry.term inside]

/-- The entries of a log that stands for `history` and was never compacted. -/
theorem of_retains {history : List LogEntry} (retains : Retains log history)
    (uncompacted : log.truncatedThrough = 0) : Whole log ∧ log.entries = history := by
  have all : log.entries = history := by
    rw [retains.entries, uncompacted, List.drop_zero]
  exact ⟨⟨all ▸ retains, uncompacted⟩, all⟩

theorem append (whole : Whole log) (cmd : Command) (term : Nat) : Whole (log.append cmd term).1 :=
  (of_retains (whole.retains.append cmd term) whole.uncompacted).1

theorem entries_append (whole : Whole log) (cmd : Command) (term : Nat) :
    (log.append cmd term).1.entries =
      log.entries ++ [{ seq := log.entries.length + 1, term, command := cmd }] :=
  (of_retains (whole.retains.append cmd term) whole.uncompacted).2

theorem truncateFrom (whole : Whole log) {seq : Nat} (positive : 0 < seq) :
    Whole (log.truncateFrom seq) ∧
      (log.truncateFrom seq).entries = log.entries.take (seq - 1) :=
  of_retains (whole.retains.truncateFrom (by rw [whole.uncompacted]; exact positive))
    whole.uncompacted

end Whole

end CommandLog

end Sententia
