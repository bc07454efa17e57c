/-
**Compaction forgets the term in front of the log.** A log that drops its front keeps the number of the
entry it dropped last, but not its term: `termAt` looks for it in the snapshot boundary, which only
`setSnapshotBoundary` moves. `sendAppend` then sends zero for the predecessor's term.

* `Compacted` — a log, and the entry that compaction dropped last.
* `TermKept`, `Continues` — the log still knows that entry's term; what is sent next carries it, and a
  backup that holds the entry accepts it.
* `compaction_iff` — the first holds while nothing has been dropped, the second as long as its term is
  zero.
-/

import Sententia.Replication.AppendFor
import Sententia.Replication.LogRepresentation
import Sententia.Replication.SharedCommit

namespace Sententia

open Library

namespace CommandLog

variable {log : CommandLog} {history : List LogEntry}

/-- **`truncateFrom`** at a dropped entry leaves nothing but what was dropped. -/
theorem Retains.truncateFrom_dropped (retains : Retains log history) {seq : Nat}
    (dropped : seq ≤ log.truncatedThrough) :
    Retains (log.truncateFrom seq) (history.take log.truncatedThrough) := by
  have compacted := retains.compacted
  have length : (history.take log.truncatedThrough).length = log.truncatedThrough := by
    rw [List.length_take]
    omega
  have nothing : popBackFrom seq log.entries = [] := by
    refine (popBackFrom_eq_nil_iff seq log.entries).mpr fun entry member => ?_
    rw [retains.entries] at member
    obtain ⟨i, found⟩ := List.mem_iff_getElem?.mp member
    rw [List.getElem?_drop] at found
    rw [retains.numbered.seq_of_getElem? found]
    omega
  refine ⟨retains.numbered.take _, retains.noSnapshot, Nat.le_of_eq length.symm, ?_, ?_⟩
  · show popBackFrom seq log.entries = _
    rw [nothing]
    exact (List.drop_eq_nil_of_le (Nat.le_of_eq length)).symm
  · have noSnapshot := retains.noSnapshot
    simp only [CommandLog.truncateFrom, nothing, List.getLast?_nil]
    rw [if_neg (by omega), length]

/-- The entries that `truncateThrough` pops. -/
theorem takeWhile_drop (numbered : Numbered history) (seq k : Nat) :
    (history.drop k).takeWhile (fun entry => entry.seq ≤ seq) =
      (history.drop k).take (min seq history.length - k) := by
  have seqs : ∀ i entry, (history.drop k)[i]? = some entry → entry.seq = k + i + 1 := by
    intro i entry found
    rw [List.getElem?_drop] at found
    exact numbered.seq_of_getElem? found
  have length : (history.drop k).length = history.length - k := List.length_drop
  generalize history.drop k = rest at seqs length
  conv => lhs; rw [← List.take_append_drop (min seq history.length - k) rest]
  rw [List.takeWhile_append_of_pos]
  · cases next : rest.drop (min seq history.length - k) with
    | nil => rw [List.takeWhile_nil, List.append_nil]
    | cons entry others =>
      have found : rest[min seq history.length - k]? = some entry := by
        rw [← List.head?_drop, next]
        rfl
      have inside := (List.getElem?_eq_some_iff.mp found).1
      have here := seqs _ entry found
      rw [List.takeWhile_cons_of_neg (by rw [decide_eq_true_eq]; omega), List.append_nil]
  · intro entry member
    obtain ⟨i, found⟩ := List.mem_iff_getElem?.mp member
    rw [List.getElem?_take] at found
    split_ifs at found with inside
    rw [decide_eq_true_eq, seqs i entry found]
    omega

/-- The last of them is the entry the log then has in front of it. -/
theorem getLast?_take_drop {k m : Nat} (more : k < m) (inside : m ≤ history.length) :
    ((history.drop k).take (m - k)).getLast? = history[m - 1]? := by
  have length : ((history.drop k).take (m - k)).length = m - k := by
    rw [List.length_take, List.length_drop]
    omega
  rw [List.getLast?_eq_getElem?, length, List.getElem?_take_of_lt (by omega), List.getElem?_drop]
  congr 1
  omega

end CommandLog

/-- A log, and the entry that compaction dropped last. -/
structure Compacted where
  log : CommandLog := {}
  dropped : Option LogEntry := none

namespace Compacted

/-- The operations of a log that continues from no snapshot. -/
def step (compacted : Compacted) : CommandLog.Call → Option Compacted
  | .truncateThrough seq =>
    let gone := compacted.log.entries.takeWhile fun entry => entry.seq ≤ seq.toNat
    some { log := compacted.log.truncateThrough seq.toNat
           dropped := gone.getLast? <|> compacted.dropped }
  | .setSnapshotBoundary .. | .clear => none
  | call => some { compacted with log := compacted.log.perform call }

/-- The log stands for `history`, and the entry dropped last is the one in front of it. -/
structure Stands (compacted : Compacted) (history : List LogEntry) : Prop where
  retains : compacted.log.Retains history
  dropped : compacted.dropped =
    if compacted.log.truncatedThrough = 0 then none
    else history[compacted.log.truncatedThrough - 1]?

variable {compacted next : Compacted} {history : List LogEntry}

/-- A step that drops nothing. -/
theorem Stands.of_front (stands : compacted.Stands history) {log : CommandLog}
    {history' : List LogEntry} (retains : log.Retains history')
    (same : log.truncatedThrough = compacted.log.truncatedThrough)
    (front : history'.take compacted.log.truncatedThrough =
      history.take compacted.log.truncatedThrough) :
    Stands { compacted with log } history' := by
  refine ⟨retains, stands.dropped.trans ?_⟩
  show _ = if log.truncatedThrough = 0 then none else history'[log.truncatedThrough - 1]?
  rw [same]
  by_cases zero : compacted.log.truncatedThrough = 0
  · rw [if_pos zero, if_pos zero]
  · rw [if_neg zero, if_neg zero]
    have inside : compacted.log.truncatedThrough - 1 < compacted.log.truncatedThrough := by omega
    rw [← List.getElem?_take_of_lt inside, ← front, List.getElem?_take_of_lt inside]

theorem Stands.step (stands : compacted.Stands history) {call : CommandLog.Call}
    (enabled : compacted.step call = some next) : ∃ history', next.Stands history' := by
  have retains := stands.retains
  have kept := retains.compacted
  have appended : ∀ cmd term, ∃ history',
      Stands { compacted with log := (compacted.log.append cmd term).1 } history' :=
    fun cmd term => ⟨_, stands.of_front (retains.append cmd term) rfl
      (List.take_append_of_le_length kept)⟩
  cases call with
  | append cmd term =>
    obtain rfl := Option.some.inj enabled
    exact appended cmd term
  | appendAt seq term cmd =>
    obtain rfl := Option.some.inj enabled
    simp only [CommandLog.perform]
    rcases retains.appendAt seq.toNat term cmd with ⟨_, log, grown, retains', same⟩ | ⟨_, refused⟩
    · rw [grown]
      refine ⟨_, stands.of_front retains' same ?_⟩
      exact List.take_append_of_le_length kept
    · rw [refused]
      exact ⟨history, stands⟩
  | truncateFrom seq =>
    obtain rfl := Option.some.inj enabled
    by_cases below : compacted.log.truncatedThrough < seq.toNat
    · refine ⟨_, stands.of_front (retains.truncateFrom below) rfl ?_⟩
      rw [List.take_take]
      congr 1
      exact Nat.min_eq_left (by omega)
    · refine ⟨_, stands.of_front (retains.truncateFrom_dropped (Nat.le_of_not_lt below)) rfl ?_⟩
      rw [List.take_take]
      congr 1
      exact Nat.min_self _
  | truncateThrough seq =>
    obtain rfl := Option.some.inj enabled
    obtain ⟨retains', dropped⟩ := retains.truncateThrough seq.toNat
    refine ⟨history, retains', ?_⟩
    simp only [dropped]
    rw [retains.entries, CommandLog.takeWhile_drop retains.numbered, stands.dropped]
    by_cases more : compacted.log.truncatedThrough < min seq.toNat history.length
    · have inside : min seq.toNat history.length - 1 < history.length := by omega
      have notZero : min seq.toNat history.length ≠ 0 := by omega
      rw [CommandLog.getLast?_take_drop more (Nat.min_le_right _ _), Nat.max_eq_right (by omega),
        if_neg notZero, List.getElem?_eq_getElem inside]
      rfl
    · rw [Nat.sub_eq_zero_of_le (by omega), List.take_zero, Nat.max_eq_left (by omega)]
      rfl
  | setSnapshotBoundary seq term => cases enabled
  | clear => cases enabled

theorem stands_of_run {calls : List CommandLog.Call} (ran : run step {} calls = some compacted) :
    ∃ history, compacted.Stands history :=
  run_invariant (fun compacted : Compacted => ∃ history, compacted.Stands history)
    (fun stands _ enabled => stands.elim fun _ stands => stands.step enabled)
    ⟨[], CommandLog.retains_empty, rfl⟩ (guarded_true _ _) ran

/-! ### What is left of the dropped entry -/

/-- The log still knows the term of the entry it dropped last. -/
def TermKept (compacted : Compacted) : Prop :=
  ∀ entry, compacted.dropped = some entry →
    compacted.log.termAt (compacted.log.firstSeq - 1) = some entry.term

/-- What a leader sends next to a backup that has the dropped entry carries the entry's term, and a
backup that holds it accepts, unless it refuses to give up a committed entry. -/
def Continues (compacted : Compacted) : Prop :=
  ∀ entry, compacted.dropped = some entry →
    ∀ (leader : Replicator) (backup : BackupState) (link : Link) (msg : AppendEntries),
      leader.log = compacted.log → backup.nextSeq = entry.seq + 1 →
        (backup.id, .appendEntries msg) ∈ (leader.sendAppend { link } backup).2.1.sent →
          msg.prevSeq = entry.seq ∧ msg.prevTerm = entry.term ∧
            ∀ follower : Replicator, follower.log.Represents →
              follower.log.at? entry.seq = some entry → follower.term ≤ leader.term →
                (follower.appendRecords msg.entries).2 = true → follower.Accepts leader.self msg

/-- The log begins after the entry dropped last, and has no term for it. -/
theorem Stands.of_dropped (stands : compacted.Stands history) {entry : LogEntry}
    (dropped : compacted.dropped = some entry) :
    entry.seq = compacted.log.truncatedThrough ∧ compacted.log.firstSeq = entry.seq + 1 ∧
      compacted.log.termAt entry.seq = none := by
  have front := stands.dropped
  rw [dropped] at front
  split_ifs at front with zero
  have here := stands.retains.numbered.seq_of_getElem? front.symm
  have same : entry.seq = compacted.log.truncatedThrough := by omega
  refine ⟨same, by rw [stands.retains.firstSeq, same], ?_⟩
  rw [stands.retains.termAt_eq, stands.retains.at?_eq, if_neg (by omega), if_neg (by omega)]
  rfl

theorem Stands.not_termKept (stands : compacted.Stands history) {entry : LogEntry}
    (dropped : compacted.dropped = some entry) : ¬ compacted.TermKept := by
  intro kept
  obtain ⟨_, first, forgotten⟩ := stands.of_dropped dropped
  have known := kept entry dropped
  rw [first, Nat.add_sub_cancel, forgotten] at known
  cases known

/-- A leader that still has to tell its backup of a commit point. -/
def leaderOf (log : CommandLog) : Replicator where
  self := 1
  role := .primary
  mode := .asynchronous
  engine := { instrument := 1 }
  log := log
  commitIndex := 1

theorem Stands.continues_iff (stands : compacted.Stands history) :
    compacted.Continues ↔ ∀ entry, compacted.dropped = some entry →
      entry.term = 0 ∨ entry.seq = 2 ^ 64 - 1 := by
  have retains := stands.retains
  have kept := retains.compacted
  constructor
  · intro continues entry dropped
    obtain ⟨same, _, forgotten⟩ := stands.of_dropped dropped
    refine or_iff_not_imp_right.mpr fun below => ?_
    let backup : BackupState := { matchSeq := entry.seq }
    have next : backup.nextSeq = entry.seq + 1 := by
      have known : max backup.matchSeq backup.lastSent = entry.seq := Nat.max_zero entry.seq
      rw [BackupState.nextSeq_of_ne (known ▸ below), known]
    obtain ⟨msg, isFor⟩ : ∃ msg, (leaderOf compacted.log).appendFor backup = some msg := by
      unfold Replicator.appendFor
      rw [next]
      by_cases all : entry.seq + 1 > (leaderOf compacted.log).log.lastSeq
      · exact ⟨_, (if_pos all).trans (if_pos Nat.zero_lt_one)⟩
      · have inside : entry.seq + 1 ≤ history.length := by
          rw [← retains.lastSeq]
          exact Nat.le_of_not_lt all
        refine ⟨_, (if_neg all).trans (if_pos ⟨?_, ?_⟩)⟩
        · exact (retains.canServeFrom_iff _).mpr (Or.inr ⟨by omega, inside⟩)
        · show ((compacted.log.range (entry.seq + 1) kMaxEntriesPerAppend).map _) ≠ []
          rw [retains.range_eq (by decide) (by omega) inside]
          refine List.ne_nil_of_length_pos ?_
          rw [List.length_map, List.length_take, List.length_drop]
          have batch : 0 < kMaxEntriesPerAppend := by decide
          omega
    have isSent : (backup.id, .appendEntries msg) ∈
        ((leaderOf compacted.log).sendAppend { link := {} } backup).2.1.sent := by
      rcases (leaderOf compacted.log).sendAppend_eq { link := {} } backup with
        ⟨nothing, _⟩ | ⟨built, _, _, isFor', sends⟩
      · rw [isFor] at nothing
        cases nothing
      · rw [isFor] at isFor'
        cases isFor'
        rw [sends]
        exact List.mem_singleton.mpr rfl
    obtain ⟨prev, carried, _⟩ := continues entry dropped _ backup {} msg rfl next isSent
    have built := (Replicator.appendFor_prev isFor (next ▸ Nat.succ_pos _) (by
      rw [next, show (leaderOf compacted.log).log.lastSeq = _ from retains.lastSeq]
      omega)).2.1
    rw [prev, show (leaderOf compacted.log).log.termAt entry.seq = none from forgotten] at built
    exact carried.symm.trans built
  · intro zero entry dropped leader backup link msg sameLog next isSent
    obtain ⟨same, _, forgotten⟩ := stands.of_dropped dropped
    have zero : entry.term = 0 := by
      refine (zero entry dropped).resolve_right fun last => ?_
      -- The sum would have wrapped around.
      unfold BackupState.nextSeq at next
      split_ifs at next with wraps
      omega
    obtain ⟨prev, carried, term, _⟩ := Replicator.appendFor_prev
      (Replicator.mem_sent_sendAppend isSent) (Nat.lt_of_lt_of_eq (Nat.succ_pos _) next.symm) (by
        rw [next, sameLog, retains.lastSeq]
        omega)
    have prev' : msg.prevSeq = entry.seq := by omega
    rw [sameLog, prev', forgotten] at carried
    have carried' : msg.prevTerm = entry.term := carried.trans zero.symm
    refine ⟨prev', carried', fun follower represents holds current absorbed => ?_⟩
    refine Replicator.accepts_iff.mpr ⟨term ▸ current, ?_, absorbed⟩
    rw [prev', carried']
    exact represents.termAt _ entry holds

/-- **Compaction and log matching**: over all sequences of operations, the log knows the term in front
of it only while it has dropped nothing; what is sent next matches as long as that term is zero, or the number
after the entry wraps around, with which nothing is sent. -/
theorem compaction_iff {calls : List CommandLog.Call} (ran : run step {} calls = some compacted) :
    (compacted.TermKept ∧ compacted.Continues ↔ compacted.dropped = none) ∧
      (compacted.Continues ↔ ∀ entry, compacted.dropped = some entry →
        entry.term = 0 ∨ entry.seq = 2 ^ 64 - 1) := by
  obtain ⟨history, stands⟩ := stands_of_run ran
  refine ⟨⟨fun survives => ?_, fun nothing => ?_⟩, stands.continues_iff⟩
  · by_contra dropped
    obtain ⟨entry, isDropped⟩ := Option.ne_none_iff_exists'.mp dropped
    exact stands.not_termKept isDropped survives.1
  · refine ⟨fun entry dropped => ?_, fun entry dropped => ?_⟩
    · rw [nothing] at dropped
      cases dropped
    · rw [nothing] at dropped
      cases dropped

/-- Two entries of term 3, the first of which is compacted away. -/
def compactedOnce : List CommandLog.Call :=
  [.append (.cancelOrder { id := 1 }) 3, .append (.cancelOrder { id := 2 }) 3, .truncateThrough 1]

/-- What they leave behind. -/
def forgetful : Compacted where
  log := (({} : CommandLog).append (.cancelOrder { id := 1 }) 3).1.append (.cancelOrder { id := 2 }) 3
    |>.1.truncateThrough 1
  dropped := some { seq := 1, term := 3, command := .cancelOrder { id := 1 } }

theorem compaction_iff_once :
    run step {} compactedOnce = some forgetful ∧
      (forgetful.TermKept ∧ forgetful.Continues ↔ forgetful.dropped = none) ∧
      (forgetful.Continues ↔ ∀ entry, forgetful.dropped = some entry →
        entry.term = 0 ∨ entry.seq = 2 ^ 64 - 1) := by
  have ran : run step {} compactedOnce = some forgetful := rfl
  exact ⟨ran, compaction_iff ran⟩

/-- A backup that holds both entries. -/
def holder : Replicator where
  self := 2
  role := .backup
  mode := .asynchronous
  engine := { instrument := 1 }
  log := (({} : CommandLog).append (.cancelOrder { id := 1 }) 3).1.append (.cancelOrder { id := 2 }) 3
    |>.1

/-- `termAt` does not know the compacted entry, the next message says its term was zero, and a backup
that holds it says no. -/
theorem compaction_forgets_term :
    run step {} compactedOnce = some forgetful ∧ ¬ forgetful.TermKept ∧
      ∃ msg, (leaderOf forgetful.log).appendFor { matchSeq := 1 } = some msg ∧
        msg.prevSeq = 1 ∧ msg.prevTerm = 0 ∧ holder.log.termAt 1 = some 3 ∧ ¬ holder.Accepts 1 msg := by
  refine ⟨rfl, fun kept => ?_, (leaderOf forgetful.log).batchAppend 2, by decide, rfl, by decide,
    by decide, fun accepted => ?_⟩
  · have known := kept _ rfl
    revert known
    decide
  · have matching := (Replicator.accepts_iff.mp accepted).2.1
    revert matching
    decide

end Compacted

end Sententia
