/-
**What a follower makes of an `AppendEntries`.** When the message is a slice of a log `leader` that the
follower's own log matches wherever their terms agree, handling it leaves the follower's log as it was,
or makes it that slice's log: extended where it was short, replaced where it conflicted above the
commit point.

The engine is rebuilt only in the last case, from everything that survives the truncation.
-/

import Sententia.Library.LogHistory
import Sententia.Replication.ReplicatorSpec

namespace Sententia

open Library

namespace Replicator

/-! ### Rebuilding -/

/-- The replay loop runs to the log head. -/
theorem rebuildLoop_eq (rep : Replicator) (whole : rep.log.Whole) (fuel seq : Nat)
    (left : fuel + seq = rep.log.lastSeq + 1) (behind : rep.lastApplied + 1 = seq) :
    rebuildLoop fuel rep seq =
      { rep with
        engine := (rep.engine.applyAll ((rep.log.entries.drop rep.lastApplied).map (·.command))).1
        lastApplied := rep.log.lastSeq } := by
  induction fuel generalizing rep seq with
  | zero =>
    have done : rep.lastApplied = rep.log.lastSeq := by omega
    rw [done, whole.lastSeq, List.drop_length, ← whole.lastSeq, ← done]
    rfl
  | succ fuel ih =>
    have inside : seq ≤ rep.log.lastSeq := by omega
    have bound : rep.lastApplied < rep.log.entries.length := by
      rw [← whole.lastSeq]
      omega
    have next : seq - 1 = rep.lastApplied := by omega
    unfold rebuildLoop
    rw [if_pos inside, whole.at?_eq (by omega), next, List.getElem?_eq_getElem bound,
      List.drop_eq_getElem_cons bound, behind]
    have left' : fuel + (seq + 1) = rep.log.lastSeq + 1 := by omega
    exact ih { rep with
      engine := (rep.engine.apply rep.log.entries[rep.lastApplied].command).1
      lastApplied := seq } whole (seq + 1) left' rfl

/-- **`rebuildFromLog`** applies the whole log, committed or not. -/
theorem rebuildFromLog_eq {rep : Replicator} (whole : rep.log.Whole) :
    rep.rebuildFromLog =
      { rep with
        engine := (rep.rebuildBase.applyAll (rep.log.entries.map (·.command))).1
        lastApplied := rep.log.lastSeq
        commitIndex := min rep.commitIndex rep.log.lastSeq } := by
  have replayed := rebuildLoop_eq { rep with engine := rep.rebuildBase, lastApplied := 0 } whole
    (rep.log.lastSeq - 0) (0 + 1) (by simp) rfl
  unfold rebuildFromLog
  rw [whole.retains.noSnapshot, replayed]
  simp only [List.drop_zero]
  split_ifs with above
  · rw [Nat.min_eq_right (Nat.le_of_lt above)]
  · rw [Nat.min_eq_left (Nat.le_of_not_lt above)]

/-! ### The entry loop -/

/-- What the entry loop may make of a follower, given the log the message is a slice of. -/
inductive Absorbs (rep : Replicator) (leader : List LogEntry) : Replicator → Prop
  | kept (held : leader <+: rep.log.entries) : Absorbs rep leader rep
  | extended {log : CommandLog} {stats : ReplicationStats} (short : rep.log.entries <+: leader)
      (whole : log.Whole) (all : log.entries = leader)
      (same : stats.checksumMismatches = rep.stats.checksumMismatches) :
      Absorbs rep leader { rep with log, stats }
  | replaced {log : CommandLog} {stats : ReplicationStats} {engine : MatchingEngine} {i : Nat}
      (inside : i < leader.length) (agree : rep.log.entries.take i = leader.take i)
      (differ : rep.log.entries[i]? ≠ leader[i]?) (above : rep.commitIndex ≤ i)
      (held : i < rep.log.entries.length) (whole : log.Whole) (all : log.entries = leader)
      (same : stats.checksumMismatches = rep.stats.checksumMismatches) :
      Absorbs rep leader { rep with log, stats, engine, lastApplied := i }

/-- Once the log ends where the records begin, they are all appended. -/
theorem appendRecords_rest {leader : List LogEntry} (numbered : Numbered leader) (i : Nat)
    (inside : i ≤ leader.length) (rep : Replicator) (whole : rep.log.Whole)
    (ends : rep.log.entries = leader.take i) :
    ∃ log stats, rep.appendRecords ((leader.drop i).map LogEntry.record) =
        ({ rep with log, stats }, true) ∧ log.Whole ∧ log.entries = leader ∧
          stats.checksumMismatches = rep.stats.checksumMismatches := by
  induction left : leader.length - i generalizing i rep with
  | zero =>
    have all : i = leader.length := by omega
    refine ⟨rep.log, rep.stats, ?_, whole, ?_, rfl⟩
    · rw [all, List.drop_length]
      rfl
    · rw [ends, all, List.take_length]
  | succ left ih =>
    have more : i < leader.length := by omega
    have long : rep.log.entries.length = i := by rw [ends, List.length_take]; omega
    have seq : leader[i].record.seq = i + 1 := numbered i more
    have unknown : rep.log.termAt leader[i].record.seq = none :=
      seq ▸ whole.termAt_eq_none (by omega)
    rw [List.drop_eq_getElem_cons more, List.map_cons, appendRecords]
    simp only [unknown]
    rcases whole.retains.appendAt leader[i].record.seq leader[i].record.term
      leader[i].record.command with ⟨_, log', appended, retains, uncompacted⟩ | ⟨gap, _⟩
    · rw [appended]
      obtain ⟨whole', entries⟩ := CommandLog.Whole.of_retains retains
        (uncompacted.trans whole.uncompacted)
      have ends' : log'.entries = leader.take (i + 1) := by
        rw [entries, ends, ← List.take_append_getElem more]
        rfl
      obtain ⟨log, stats, equation, whole'', all, same⟩ := ih (i + 1) more
        { rep with
          log := log'
          stats := { rep.stats with entriesReceived := rep.stats.entriesReceived + 1 } }
        whole' ends' (by omega)
      exact ⟨log, stats, equation, whole'', all, same⟩
    · rw [seq, long] at gap
      exact absurd rfl gap

/-- The loop from a record on that is to be stored. -/
def storeFrom (rep : Replicator) (record : LogRecord) (rest : List LogRecord) : Replicator × Bool :=
  match rep.log.appendAt record.seq record.term record.command with
  | none =>
    ({ rep with stats := { rep.stats with gapsDetected := rep.stats.gapsDetected + 1 } }, true)
  | some log =>
    { rep with
      log
      stats := { rep.stats with
        entriesReceived := rep.stats.entriesReceived + 1 } }.appendRecords rest

/-- Storing a record that the log has no entry for. -/
theorem appendRecords_unknown {rep : Replicator} {record : LogRecord} {rest : List LogRecord}
    (unknown : rep.log.termAt record.seq = none) :
    rep.appendRecords (record :: rest) = rep.storeFrom record rest := by
  rw [appendRecords]
  simp only [unknown]
  rfl

/-- **A conflict above the commit point**: the log is cut there, the engine rebuilt from what is left,
and the records appended. -/
theorem replaceFrom {leader : List LogEntry} (numbered : Numbered leader) {rep : Replicator}
    (whole : rep.log.Whole) {i : Nat} (inside : i < leader.length)
    (held : i < rep.log.entries.length) (agree : rep.log.entries.take i = leader.take i)
    (differ : rep.log.entries[i]? ≠ leader[i]?) (above : rep.commitIndex ≤ i) :
    ∃ rep', ({ rep with
        log := rep.log.truncateFrom leader[i].record.seq
        stats := { rep.stats with
          conflictingEntriesTruncated :=
            rep.stats.conflictingEntriesTruncated + 1 } } : Replicator).rebuildFromLog.storeFrom
          leader[i].record ((leader.drop (i + 1)).map LogEntry.record) = (rep', true) ∧
      Absorbs rep leader rep' := by
  have seq : leader[i].record.seq = i + 1 := numbered i inside
  obtain ⟨cut, kept⟩ := whole.truncateFrom (Nat.succ_pos i)
  have short : (rep.log.truncateFrom (i + 1)).entries = leader.take i := kept.trans agree
  have length : (rep.log.truncateFrom (i + 1)).entries.length = i := by
    rw [short, List.length_take]
    omega
  rw [seq]
  generalize stats : ({ rep.stats with
    conflictingEntriesTruncated := rep.stats.conflictingEntriesTruncated + 1 } :
      ReplicationStats) = counted
  have sameCount : counted.checksumMismatches = rep.stats.checksumMismatches := by rw [← stats]
  have folded := rebuildFromLog_eq
    (show ({ rep with log := rep.log.truncateFrom (i + 1), stats := counted } :
      Replicator).log.Whole from cut)
  rw [folded]
  generalize (MatchingEngine.applyAll _ _).1 = engine
  have head : (rep.log.truncateFrom (i + 1)).lastSeq = i := cut.lastSeq.trans length
  simp only [head, Nat.min_eq_left above]
  have unknown : (rep.log.truncateFrom (i + 1)).termAt leader[i].record.seq = none := by
    rw [seq]
    exact cut.termAt_eq_none (Nat.le_of_eq length)
  -- The truncated log ends where the records begin, so the loop goes on as if it began there.
  obtain ⟨log, stats', equation, whole', all, same⟩ :=
    appendRecords_rest numbered i (Nat.le_of_lt inside)
      { rep with
        engine
        log := rep.log.truncateFrom (i + 1)
        lastApplied := i
        stats := counted } cut short
  rw [List.drop_eq_getElem_cons inside, List.map_cons, appendRecords_unknown unknown] at equation
  exact ⟨_, equation, .replaced inside agree differ above held whole' all (same.trans sameCount)⟩

/-- Two logs agree up to every position at which their terms agree. -/
def Matches (log leader : List LogEntry) : Prop :=
  ∀ k (held : k < log.length) (inside : k < leader.length), log[k].term = leader[k].term →
    log.take (k + 1) = leader.take (k + 1)

/-- **The entry loop** over the slice of `leader` from position `i` on, up to which the logs agree. -/
theorem appendRecords_cases {leader : List LogEntry} (numbered : Numbered leader)
    {rep : Replicator} (whole : rep.log.Whole) (matching : Matches rep.log.entries leader) (i : Nat)
    (inside : i ≤ leader.length) (held : i ≤ rep.log.entries.length)
    (agree : rep.log.entries.take i = leader.take i) :
    (rep.appendRecords ((leader.drop i).map LogEntry.record) = (rep, false) ∧
        ∃ k < rep.commitIndex, rep.log.entries[k]? ≠ leader[k]?) ∨
      ∃ rep', rep.appendRecords ((leader.drop i).map LogEntry.record) = (rep', true) ∧
        Absorbs rep leader rep' := by
  -- Induction on the number of records left; the log ends, conflicts, or has the next one.
  induction left : leader.length - i generalizing i with
  | zero =>
    have all : i = leader.length := by omega
    refine Or.inr ⟨rep, ?_, .kept ?_⟩
    · rw [all, List.drop_length]
      rfl
    · rw [all, List.take_length] at agree
      rw [← agree]
      exact List.take_prefix _ _
  | succ left ih =>
    have more : i < leader.length := by omega
    have seq : leader[i].record.seq = i + 1 := numbered i more
    by_cases ends : rep.log.entries.length = i
    · have short : rep.log.entries = leader.take i := by
        rw [← agree, ← ends, List.take_length]
      obtain ⟨log, stats, equation, whole', all, same⟩ :=
        appendRecords_rest numbered i inside rep whole short
      exact Or.inr ⟨_, equation, .extended (short ▸ List.take_prefix _ _) whole' all same⟩
    · have more' : i < rep.log.entries.length := by omega
      have known : rep.log.termAt leader[i].record.seq = some rep.log.entries[i].term :=
        seq ▸ whole.termAt_eq more'
      have below : leader[i].record.seq ≤ rep.log.lastSeq := by
        rw [seq, whole.lastSeq]
        exact more'
      rw [List.drop_eq_getElem_cons more, List.map_cons, appendRecords]
      simp only [known, if_pos below]
      by_cases sameTerm : rep.log.entries[i].term = leader[i].record.term
      · rw [if_pos sameTerm]
        exact ih (i + 1) more more' (matching i more' more sameTerm) (by omega)
      · have differ : rep.log.entries[i]? ≠ leader[i]? := by
          rw [List.getElem?_eq_getElem more', List.getElem?_eq_getElem more]
          intro equal
          exact sameTerm (congrArg LogEntry.term (Option.some.inj equal))
        rw [if_neg sameTerm]
        by_cases committed : leader[i].record.seq ≤ rep.commitIndex
        · rw [if_pos committed]
          exact Or.inl ⟨rfl, i, by omega, differ⟩
        · rw [if_neg committed]
          exact Or.inr (replaceFrom numbered whole more more' agree differ (by omega))

/-! ### The handler -/

/-- What handling an `AppendEntries` may make of a follower, and the response it sends. -/
inductive Answers (rep : Replicator) (leader : List LogEntry) (msg : AppendEntries) :
    Replicator → AppendResponse → Prop
  | rejected {stats : ReplicationStats}
      (same : stats.checksumMismatches = rep.stats.checksumMismatches) :
      Answers rep leader msg { rep with stats } (rep.response false)
  /-- The refusal leaves the log head out of the response. -/
  | refused {k : Nat} (committed : k < rep.commitIndex)
      (differ : rep.log.entries[k]? ≠ leader[k]?) :
      Answers rep leader msg rep { rep.response false with lastLogSeq := 0 }
  | accepted {absorbed : Replicator} (current : rep.term ≤ msg.term)
      (known : rep.log.termAt msg.prevSeq = some msg.prevTerm)
      (appended : rep.appendRecords msg.entries = (absorbed, true))
      (absorbs : Absorbs rep leader absorbed) :
      Answers rep leader msg (absorbed.adoptCommit msg.commitSeq).applyCommitted
        ((absorbed.adoptCommit msg.commitSeq).applyCommitted.response true)

/-- **`handleAppendEntries`**, for a message that carries `leader` from `prevSeq` on. -/
theorem handleAppendEntries_answers {leader : List LogEntry} (numbered : Numbered leader)
    {rep : Replicator} (whole : rep.log.Whole) (matching : Matches rep.log.entries leader)
    {msg : AppendEntries} (carries : msg.Carries leader)
    (follows : rep.log.termAt msg.prevSeq = some msg.prevTerm →
      rep.log.entries.take msg.prevSeq = leader.take msg.prevSeq)
    (net : Transport) (source : NodeId) :
    ∃ answer, Answers rep leader msg (rep.handleAppendEntries net source msg).1 answer ∧
      (rep.handleAppendEntries net source msg).2 =
        (net.send source (.appendResponse answer)).1 := by
  unfold handleAppendEntries
  by_cases stale : msg.term < rep.term
  · rw [if_pos stale]
    exact ⟨_, .rejected rfl, rfl⟩
  · rw [if_neg stale]
    cases known : rep.log.termAt msg.prevSeq with
    | none => exact ⟨_, .rejected rfl, rfl⟩
    | some prevTerm =>
      by_cases mismatch : prevTerm ≠ msg.prevTerm
      · simp only [if_pos mismatch]
        exact ⟨_, .rejected rfl, rfl⟩
      · simp only [if_neg mismatch]
        rw [not_not] at mismatch
        subst mismatch
        have agree := follows known
        have held := whole.retains.le_of_termAt known
        rcases appendRecords_cases numbered whole matching msg.prevSeq carries.inside held agree with
          ⟨equation, k, committed, differ⟩ | ⟨absorbed, equation, absorbs⟩
        · rw [← carries.entries] at equation
          rw [equation]
          exact ⟨_, .refused committed differ, rfl⟩
        · rw [← carries.entries] at equation
          rw [equation]
          exact ⟨_, .accepted (Nat.le_of_not_lt stale) known equation absorbs, rfl⟩

/-- The test of the predecessor does its work on logs that follow the leaders. -/
theorem answers_of_follows {lead : Nat → List LogEntry} {leader : List LogEntry}
    (numbered : Numbered leader) (leaderFollows : Follows LogEntry.term lead leader)
    {rep : Replicator} (whole : rep.log.Whole)
    (follows : Follows LogEntry.term lead rep.log.entries) {msg : AppendEntries}
    (carries : msg.Carries leader)
    (prevTerm : msg.prevTerm = lastTerm LogEntry.term (leader.take msg.prevSeq)) (net : Transport)
    (source : NodeId) :
    ∃ answer, Answers rep leader msg (rep.handleAppendEntries net source msg).1 answer ∧
      (rep.handleAppendEntries net source msg).2 =
        (net.send source (.appendResponse answer)).1 := by
  refine handleAppendEntries_answers numbered whole ?_ carries (fun known => ?_) net source
  · intro k held inside sameTerm
    exact follows.matching leaderFollows held inside sameTerm
  · have held := whole.retains.le_of_termAt known
    rw [whole.termAt_eq_lastTerm held, Option.some_inj] at known
    exact follows.take_eq leaderFollows held carries.inside (known.trans prevTerm)

/-- The entry loop keeps a log that has all of the leader's, or puts the leader's in its place. -/
theorem Absorbs.log_cases {rep absorbed : Replicator} {leader : List LogEntry}
    (absorbs : Absorbs rep leader absorbed) :
    (absorbed = rep ∧ leader <+: rep.log.entries) ∨
      (absorbed.log.Whole ∧ absorbed.log.entries = leader ∧
        LogHistory.Yields rep.log.entries leader) := by
  cases absorbs with
  | kept held => exact Or.inl ⟨rfl, held⟩
  | extended short whole all same => exact Or.inr ⟨whole, all, Or.inl short⟩
  | replaced inside agree differ above held whole all same =>
    exact Or.inr ⟨whole, all, Or.inr ⟨_, inside, held, agree, differ⟩⟩

/-! ### Tails that no message vouches for -/

/-- If the message passes the follower's checks, its log has nothing beyond what the message covers, or
conflicts with it, or ends in an entry of the message's term. -/
def NoTail (rep : Replicator) (msg : AppendEntries) : Prop :=
  rep.term ≤ msg.term → rep.log.termAt msg.prevSeq = some msg.prevTerm →
    rep.log.lastSeq ≤ msg.prevSeq + msg.entries.length ∨
      (∃ record ∈ msg.entries, rep.log.termAt record.seq ≠ none ∧
        rep.log.termAt record.seq ≠ some record.term) ∨
      rep.log.termAt rep.log.lastSeq = some msg.term

instance (rep : Replicator) (msg : AppendEntries) : Decidable (rep.NoTail msg) :=
  inferInstanceAs (Decidable (_ → _))

/-- A log that was kept, and has no tail, is a front of the log of the message's term. -/
theorem NoTail.front {rep : Replicator} {msg : AppendEntries} (noTail : rep.NoTail msg)
    {lead : Nat → List LogEntry} {leader : List LogEntry} (whole : rep.log.Whole)
    (follows : Follows LogEntry.term lead rep.log.entries) (current : rep.term ≤ msg.term)
    (known : rep.log.termAt msg.prevSeq = some msg.prevTerm) (carries : msg.Carries leader)
    (front : leader <+: lead msg.term) (held : leader <+: rep.log.entries) :
    rep.log.entries <+: lead msg.term := by
  have numbered := whole.retains.numbered
  rcases noTail current known with covered | ⟨record, member, isKnown, conflict⟩ | ownTerm
  · have length : msg.prevSeq + msg.entries.length = leader.length := by
      have inside := carries.inside
      rw [carries.entries, List.length_map, List.length_drop]
      omega
    rw [whole.lastSeq, length] at covered
    rw [← held.eq_of_length_le covered]
    exact front
  · -- A record of a log that the node has cannot conflict with it.
    rw [carries.entries] at member
    obtain ⟨entry, inDrop, rfl⟩ := List.mem_map.mp member
    obtain ⟨i, inside, rfl⟩ := List.mem_iff_getElem.mp (held.subset (List.mem_of_mem_drop inDrop))
    have seq : rep.log.entries[i].record.seq = i + 1 := numbered i inside
    rw [seq, whole.termAt_eq inside] at conflict
    exact absurd rfl conflict
  · rw [whole.lastSeq, whole.termAt_eq_lastTerm (Nat.le_refl _), List.take_length,
      Option.some_inj] at ownTerm
    by_cases nonempty : 0 < rep.log.entries.length
    · rw [← ownTerm]
      exact follows.front_lastTerm nonempty
    · have isNil : rep.log.entries = [] := List.length_eq_zero_iff.mp (by omega)
      rw [isNil]
      exact List.nil_prefix

/-! ### What stays as it was -/

theorem settle_frame (rep : Replicator) (commitSeq : Nat) :
    ∃ engine lastApplied commitIndex applied stats,
      (rep.adoptCommit commitSeq).applyCommitted =
        { rep with engine, lastApplied, commitIndex, applied, stats } := by
  obtain ⟨engine, lastApplied, applied, stats, _, equation⟩ :=
    applyLoop_frame ((rep.adoptCommit commitSeq).commitIndex -
      (rep.adoptCommit commitSeq).lastApplied) (rep.adoptCommit commitSeq)
  have applies : (rep.adoptCommit commitSeq).applyCommitted = _ := equation
  rw [applies]
  unfold adoptCommit
  split_ifs
  · exact ⟨engine, lastApplied, _, applied, stats, rfl⟩
  · exact ⟨engine, lastApplied, _, applied, stats, rfl⟩

/-- Only the engine, the log, the points and the counters change. -/
def Touches (rep rep' : Replicator) : Prop :=
  ∃ engine log lastApplied commitIndex applied stats,
    rep' = { rep with engine, log, lastApplied, commitIndex, applied, stats }

theorem Touches.refl (rep : Replicator) : rep.Touches rep := ⟨_, _, _, _, _, _, rfl⟩

theorem Touches.trans {rep rep' rep'' : Replicator} (first : rep.Touches rep')
    (second : rep'.Touches rep'') : rep.Touches rep'' := by
  obtain ⟨_, _, _, _, _, _, rfl⟩ := first
  obtain ⟨_, _, _, _, _, _, rfl⟩ := second
  exact ⟨_, _, _, _, _, _, rfl⟩

theorem rebuildLoop_touches (fuel : Nat) (rep : Replicator) (seq : Nat) :
    rep.Touches (rebuildLoop fuel rep seq) := by
  induction fuel generalizing rep seq with
  | zero => exact .refl rep
  | succ fuel ih =>
    unfold rebuildLoop
    split_ifs
    · cases rep.log.at? seq with
      | none => exact .refl rep
      | some entry => exact Touches.trans ⟨_, _, _, _, _, _, rfl⟩ (ih _ (seq + 1))
    · exact .refl rep

theorem rebuildFromLog_touches (rep : Replicator) : rep.Touches rep.rebuildFromLog := by
  have replayed : rep.Touches (rebuildLoop (rep.log.lastSeq - rep.log.snapshotSeq)
      { rep with engine := rep.rebuildBase, lastApplied := rep.log.snapshotSeq }
      (rep.log.snapshotSeq + 1)) := Touches.trans ⟨_, _, _, _, _, _, rfl⟩ (rebuildLoop_touches _ _ _)
  unfold rebuildFromLog
  simp only
  split_ifs
  · exact replayed.trans ⟨_, _, _, _, _, _, rfl⟩
  · exact replayed

/-- The entry loop, whatever it is given. -/
theorem appendRecords_touches (records : List LogRecord) (rep : Replicator) :
    rep.Touches (rep.appendRecords records).1 := by
  induction records generalizing rep with
  | nil => exact .refl rep
  | cons record rest ih =>
    have stores : ∀ rep : Replicator, rep.Touches (rep.storeFrom record rest).1 := by
      intro rep
      unfold storeFrom
      cases rep.log.appendAt record.seq record.term record.command with
      | none => exact ⟨_, _, _, _, _, _, rfl⟩
      | some log => exact Touches.trans ⟨_, _, _, _, _, _, rfl⟩ (ih _)
    rw [appendRecords]
    cases rep.log.termAt record.seq with
    | none => exact stores rep
    | some term =>
      simp only
      split_ifs
      · exact ih rep
      · exact .refl rep
      · exact Touches.trans ⟨_, _, _, _, _, _, rfl⟩
          ((rebuildFromLog_touches _).trans (stores _))
      · exact stores rep

theorem settle_touches (rep : Replicator) (commitSeq : Nat) :
    rep.Touches (rep.adoptCommit commitSeq).applyCommitted := by
  obtain ⟨_, _, _, _, _, settled⟩ := rep.settle_frame commitSeq
  rw [settled]
  exact ⟨_, _, _, _, _, _, rfl⟩

/-- **`handleAppendEntries`**, whatever it is given. -/
theorem handleAppendEntries_touches (rep : Replicator) (net : Transport) (source : NodeId)
    (msg : AppendEntries) : rep.Touches (rep.handleAppendEntries net source msg).1 := by
  unfold handleAppendEntries
  split_ifs
  · exact ⟨_, _, _, _, _, _, rfl⟩
  · cases rep.log.termAt msg.prevSeq with
    | none => exact ⟨_, _, _, _, _, _, rfl⟩
    | some prevTerm =>
      simp only
      split_ifs
      · exact ⟨_, _, _, _, _, _, rfl⟩
      · have looped := appendRecords_touches msg.entries rep
        generalize rep.appendRecords msg.entries = result at looped
        obtain ⟨absorbed, accepted⟩ := result
        cases accepted with
        | false => exact looped
        | true => exact looped.trans (absorbed.settle_touches msg.commitSeq)

/-- Handling an `AppendEntries` touches the log, the engine and the points; the log is kept or becomes
the log of the slice. -/
theorem Answers.frame {rep rep' : Replicator} {leader : List LogEntry} {msg : AppendEntries}
    {answer : AppendResponse} (answers : Answers rep leader msg rep' answer) :
    (∃ engine log lastApplied commitIndex applied stats,
      rep' = { rep with engine, log, lastApplied, commitIndex, applied, stats }) ∧
        (rep'.log = rep.log ∨ (rep'.log.Whole ∧ rep'.log.entries = leader)) := by
  cases answers with
  | rejected same => exact ⟨⟨_, _, _, _, _, _, rfl⟩, Or.inl rfl⟩
  | refused committed differ => exact ⟨⟨_, _, _, _, _, _, rfl⟩, Or.inl rfl⟩
  | @accepted absorbed current known appended absorbs =>
    obtain ⟨_, _, _, _, _, settled⟩ := absorbed.settle_frame msg.commitSeq
    rw [settled]
    cases absorbs with
    | kept held => exact ⟨⟨_, _, _, _, _, _, rfl⟩, Or.inl rfl⟩
    | extended short whole all same => exact ⟨⟨_, _, _, _, _, _, rfl⟩, Or.inr ⟨whole, all⟩⟩
    | replaced inside agree differ above held whole all same =>
      exact ⟨⟨_, _, _, _, _, _, rfl⟩, Or.inr ⟨whole, all⟩⟩

end Replicator

end Sententia
