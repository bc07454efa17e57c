/-
**Nodes that hold a front of one history**, what a follower of them makes of a message of the leader, and
what the leader makes of the answer.

* `Replays` — the log is a front of the history and the engine the replay of what has been applied.
* `Replays.handleAppendEntries` — **a follower** that has the predecessor takes over the slice, adopts the
  commit point and says so; `handleAppendEntries_refuses` — one that has not, answers and stays as it is.
* `Leads.handleAppendResponse` — **the leader** of two nodes commits what its backup holds, and sends the
  next message for it, if there is one; `Leads.appendFor` — which one that is.
* `Leads.onPeerUp` — the probe at the beginning.
-/

import Sententia.Replication.FollowerSpec

namespace Sententia

open Library

namespace Replicator

/-- The node holds the first `held` entries of a history and has settled no others, and its engine is the
replay of those it has applied. -/
structure Replays (history : List LogEntry) (instrument : InstrumentId) (held : Nat) (rep : Replicator) :
    Prop where
  whole : rep.log.Whole
  entries : rep.log.entries = history.take held
  inside : held ≤ history.length
  committed : rep.commitIndex ≤ held
  applied : rep.lastApplied ≤ held
  engine : rep.engine =
    MatchingEngine.replay instrument ((history.take rep.lastApplied).map (·.command))

variable {history : List LogEntry} {instrument : InstrumentId} {held : Nat} {rep : Replicator}

namespace Replays

theorem length (replays : rep.Replays history instrument held) : rep.log.entries.length = held := by
  have inside := replays.inside
  rw [replays.entries, List.length_take]
  omega

theorem lastSeq (replays : rep.Replays history instrument held) : rep.log.lastSeq = held :=
  replays.whole.lastSeq.trans replays.length

theorem termAt (replays : rep.Replays history instrument held) {seq : Nat} (inside : seq ≤ held) :
    rep.log.termAt seq = some (lastTerm LogEntry.term (history.take seq)) := by
  rw [replays.whole.termAt_eq_lastTerm (inside.trans (Nat.le_of_eq replays.length.symm)), replays.entries,
    List.take_take, Nat.min_eq_left inside]

/-- **Applying** takes the engine to the commit point. -/
theorem applyCommitted (replays : rep.Replays history instrument held) :
    ∃ applied stats, rep.applyCommitted =
        { rep with
          engine := MatchingEngine.replay instrument
            ((history.take (max rep.lastApplied rep.commitIndex)).map (·.command))
          lastApplied := max rep.lastApplied rep.commitIndex
          applied, stats } := by
  have inside : rep.commitIndex ≤ rep.log.entries.length := by
    rw [replays.length]
    exact replays.committed
  have equation := applyCommitted_eq replays.whole.retains
    (replays.whole.uncompacted.symm ▸ Nat.zero_le _) inside
  have points := lastApplied_applyEntries replays.whole.retains.numbered inside
  have front : rep.log.entries.take rep.commitIndex = history.take rep.commitIndex := by
    rw [replays.entries, List.take_take, Nat.min_eq_left replays.committed]
  rw [front] at equation points
  have engine : (rep.engine.applyAll
      (((history.take rep.commitIndex).drop rep.lastApplied).map (·.command))).1 =
        MatchingEngine.replay instrument
          ((history.take (max rep.lastApplied rep.commitIndex)).map (·.command)) := by
    rw [replays.engine]
    unfold MatchingEngine.replay
    rw [← MatchingEngine.applyAll_append, ← List.map_append]
    by_cases behind : rep.lastApplied ≤ rep.commitIndex
    · have again : history.take rep.lastApplied =
          (history.take rep.commitIndex).take rep.lastApplied := by
        rw [List.take_take, Nat.min_eq_left behind]
      rw [again, List.take_append_drop, Nat.max_eq_right behind]
    · have nothing : (history.take rep.commitIndex).drop rep.lastApplied = [] :=
        List.drop_eq_nil_of_le ((List.length_take_le _ _).trans (by omega))
      rw [nothing, List.append_nil, Nat.max_eq_left (by omega)]
  rw [equation, ← engine, ← points]
  exact ⟨_, _, rfl⟩

theorem replays_applyCommitted (replays : rep.Replays history instrument held) :
    rep.applyCommitted.Replays history instrument held := by
  obtain ⟨applied, stats, applies⟩ := replays.applyCommitted
  rw [applies]
  exact ⟨replays.whole, replays.entries, replays.inside, replays.committed,
    Nat.max_le.mpr ⟨replays.applied, replays.committed⟩, rfl⟩

end Replays

/-! ### The follower -/

/-- A message of a leader that carries the history up to `count`. -/
structure Slice (history : List LogEntry) (rep : Replicator) (count : Nat) (msg : AppendEntries) : Prop where
  short : count ≤ history.length
  carries : msg.Carries (history.take count)
  prevTerm : msg.prevTerm = lastTerm LogEntry.term (history.take msg.prevSeq)
  term : msg.term = rep.term
  commitSeq : msg.commitSeq = rep.commitIndex

/-- A commit point above the follower's is adopted as far as the log goes. -/
theorem adoptCommit_eq (commitSeq : Nat) (inside : rep.commitIndex ≤ rep.log.lastSeq) :
    ∃ stats, rep.adoptCommit commitSeq =
      { rep with commitIndex := max rep.commitIndex (min commitSeq rep.log.lastSeq), stats } := by
  unfold adoptCommit
  split_ifs with more
  · have point : max rep.commitIndex (min commitSeq rep.log.lastSeq) = min commitSeq rep.log.lastSeq := by
      omega
    rw [point]
    exact ⟨_, rfl⟩
  · have point : max rep.commitIndex (min commitSeq rep.log.lastSeq) = rep.commitIndex := by omega
    rw [point]
    exact ⟨rep.stats, rfl⟩

/-- **The entry loop** skips the records that the follower has and appends the others. -/
theorem Replays.appendRecords (numbered : Numbered history)
    (replays : rep.Replays history instrument held) {count : Nat} (short : count ≤ history.length) (i : Nat)
    (inside : i ≤ count) (before : i ≤ held) :
    ∃ log stats, rep.appendRecords (((history.take count).drop i).map LogEntry.record) =
        ({ rep with log, stats }, true) ∧ log.Whole ∧ log.entries = history.take (max held count) := by
  have length : (history.take count).length = count := by
    rw [List.length_take]
    omega
  have known := replays.inside
  -- Induction on the number of records left.
  induction left : count - i generalizing i with
  | zero =>
    have all : (history.take count).drop i = [] := List.drop_eq_nil_of_le (by omega)
    rw [all, Nat.max_eq_left (by omega)]
    exact ⟨rep.log, rep.stats, rfl, replays.whole, replays.entries⟩
  | succ left ih =>
    by_cases ends : i = held
    · have front : rep.log.entries = (history.take count).take i := by
        rw [replays.entries, List.take_take, ← ends, Nat.min_eq_left inside]
      obtain ⟨log, stats, equation, whole, all, _⟩ :=
        appendRecords_rest (numbered.take count) i (length.symm ▸ inside) rep replays.whole front
      rw [Nat.max_eq_right (by omega)]
      exact ⟨log, stats, equation, whole, all⟩
    · have more : i < (history.take count).length := by omega
      have seq : (history.take count)[i].record.seq = i + 1 := numbered.take count i more
      have held' : i < rep.log.entries.length := by
        rw [replays.length]
        omega
      have term : rep.log.termAt (history.take count)[i].record.seq =
          some (history.take count)[i].record.term := by
        rw [seq, replays.whole.termAt_eq held']
        simp only [replays.entries, List.getElem_take, LogEntry.record]
      have below : (history.take count)[i].record.seq ≤ rep.log.lastSeq := by
        rw [seq, replays.lastSeq]
        omega
      rw [List.drop_eq_getElem_cons more, List.map_cons, Replicator.appendRecords]
      simp only [term, if_pos below, if_true]
      exact ih (i + 1) (by omega) (by omega) (by omega)

/-- **A follower that has the predecessor** takes the slice over, adopts the commit point and applies. -/
theorem Replays.handleAppendEntries (numbered : Numbered history)
    (replays : rep.Replays history instrument held) {leader : Replicator} {msg : AppendEntries} {count : Nat}
    (slice : leader.Slice history count msg) (before : msg.prevSeq ≤ held)
    (current : rep.term ≤ leader.term) (net : Transport) (source : NodeId) :
    ∃ rep', rep.handleAppendEntries net source msg =
        (rep', (net.send source (.appendResponse (rep'.response true))).1) ∧
      rep'.Replays history instrument (max held count) ∧ rep'.self = rep.self ∧ rep'.term = rep.term ∧
        min leader.commitIndex (max held count) ≤ rep'.commitIndex ∧
          rep'.commitIndex ≤ rep'.lastApplied := by
  have short := slice.short
  have front := slice.carries.inside
  rw [List.length_take] at front
  rw [← slice.term] at current
  obtain ⟨log, stats, appended, whole, entries⟩ :=
    replays.appendRecords numbered short msg.prevSeq (by omega) before
  rw [← slice.carries.entries] at appended
  have committed := replays.committed
  have applied := replays.applied
  have inside := replays.inside
  have lastSeq : log.lastSeq = max held count := by
    rw [whole.lastSeq, entries, List.length_take]
    omega
  have upTo : ({ rep with log, stats } : Replicator).commitIndex ≤ log.lastSeq := by
    rw [lastSeq]
    exact committed.trans (Nat.le_max_left _ _)
  obtain ⟨stats', adopts⟩ := adoptCommit_eq msg.commitSeq upTo
  have settled : Replays history instrument (max held count)
      { rep with
        log
        commitIndex := max rep.commitIndex (min msg.commitSeq log.lastSeq)
        stats := stats' } := by
    refine ⟨whole, entries, by omega, ?_, ?_, replays.engine⟩
    · show max rep.commitIndex (min msg.commitSeq log.lastSeq) ≤ _
      rw [lastSeq]
      omega
    · show rep.lastApplied ≤ _
      omega
  have replays' := settled.replays_applyCommitted
  obtain ⟨applied', stats'', applies⟩ := settled.applyCommitted
  rw [applies] at replays'
  refine ⟨(({ rep with log, stats } : Replicator).adoptCommit msg.commitSeq).applyCommitted, ?_, ?_⟩
  · unfold Replicator.handleAppendEntries
    rw [if_neg (Nat.not_lt.mpr current), replays.termAt before, ← slice.prevTerm]
    simp only [ne_eq, not_true_eq_false, if_false, appended]
  · rw [adopts, applies]
    refine ⟨replays', rfl, rfl, ?_, Nat.le_max_right _ _⟩
    show _ ≤ max rep.commitIndex (min msg.commitSeq log.lastSeq)
    rw [lastSeq, slice.commitSeq]
    exact Nat.le_max_right _ _

/-- **A follower that lacks the predecessor** says so and stays as it is, but for its counters. -/
theorem Replays.handleAppendEntries_refuses (replays : rep.Replays history instrument held)
    {msg : AppendEntries} (beyond : held < msg.prevSeq) (current : rep.term ≤ msg.term) (net : Transport)
    (source : NodeId) :
    ∃ stats, rep.handleAppendEntries net source msg =
      ({ rep with stats }, (net.send source (.appendResponse (rep.response false))).1) := by
  have unknown : rep.log.termAt msg.prevSeq = none := by
    rw [← Nat.sub_add_cancel (Nat.one_le_of_lt beyond)]
    refine replays.whole.termAt_eq_none ?_
    rw [replays.length]
    omega
  unfold Replicator.handleAppendEntries
  rw [if_neg (Nat.not_lt.mpr current), unknown]
  exact ⟨_, rfl⟩

/-! ### The leader of two -/

/-- The leader of a cluster of two, whose log holds the whole history, all of it of its own term. -/
structure Leads (history : List LogEntry) (instrument : InstrumentId) (rep : Replicator) : Prop where
  replays : rep.Replays history instrument history.length
  leading : rep.role = .primary
  two : rep.clusterSize = 2
  own : ∀ entry ∈ history, entry.term = rep.term
  settled : rep.commitIndex ≤ rep.lastApplied

/-- Neither the backups on file nor the counters matter. -/
theorem Leads.refile (leads : rep.Leads history instrument)
    (backups : OrderedMap NodeId BackupState (· < ·)) (stats : ReplicationStats) : Leads history instrument { rep with backups, stats } :=
  ⟨⟨leads.replays.whole, leads.replays.entries, leads.replays.inside, leads.replays.committed,
    leads.replays.applied, leads.replays.engine⟩, leads.leading, leads.two, leads.own, leads.settled⟩

/-- The one backup on file is this one. -/
def Knows (rep : Replicator) (backup : BackupState) : Prop :=
  rep.backups = OrderedMap.empty.insert backup.id backup

variable {backup : BackupState}

/-- **`onPeerUp`** files the only backup and probes it. -/
theorem Leads.onPeerUp (leads : rep.Leads history instrument) (id : NodeId)
    (alone : ∀ other record, rep.backups.find? other = some record →
      other = id ∧ record.matchSeq ≤ held ∧ record.lastCommitSent ≤ rep.commitIndex) :
    ∃ rep' record, rep.onPeerUp { link := {} } id =
        (rep', (({ link := {} } : Transport).send id (.appendEntries rep'.headAppend)).1) ∧
      rep'.Leads history instrument ∧ rep'.self = rep.self ∧ rep'.term = rep.term ∧ rep'.Knows record ∧
        record.id = id ∧ record.lastSent = 0 ∧ record.matchSeq ≤ held ∧
          record.lastCommitSent ≤ rep'.commitIndex := by
  generalize known : (rep.backups.find? id).getD {} = before
  have held' : before.matchSeq ≤ held ∧ before.lastCommitSent ≤ rep.commitIndex := by
    cases found : rep.backups.find? id with
    | none =>
      rw [found] at known
      rw [← known]
      exact ⟨Nat.zero_le _, Nat.zero_le _⟩
    | some record =>
      rw [found] at known
      rw [← show record = before from known]
      exact (alone _ _ found).2
  let record : BackupState := { before with id, probing := true, lastSent := 0 }
  have filed : rep.backups.insert id record = OrderedMap.empty.insert id record := by
    refine OrderedMap.ext_find? fun other => ?_
    rw [OrderedMap.find?_insert, OrderedMap.find?_insert, OrderedMap.find?_empty]
    split_ifs with same
    · rfl
    · cases found : rep.backups.find? other with
      | none => rfl
      | some filed => exact absurd (alone _ _ found).1 same
  refine ⟨{ rep with
    backups := rep.backups.insert id record
    stats := { rep.stats with probesSent := rep.stats.probesSent + 1 } }, record, ?_, leads.refile _ _,
    rfl, rfl, filed, rfl, rfl, held'⟩
  unfold Replicator.onPeerUp
  rw [if_neg (not_not.mpr leads.leading), known]
  rfl

/-- The match points of a leader and its only backup. -/
theorem Leads.commitCandidate (leads : rep.Leads history instrument) (knows : rep.Knows backup)
    (matched : backup.matchSeq ≤ history.length) : rep.commitCandidate = backup.matchSeq := by
  have points : rep.matchPoints = [history.length, backup.matchSeq] := by
    unfold matchPoints
    rw [knows, leads.two, leads.replays.lastSeq]
    rfl
  unfold Replicator.commitCandidate majority
  rw [points, leads.two]
  simp [List.insertionSort, matched]

/-- **The leader commits** what its backup holds. -/
theorem Leads.advanceCommitIndex (leads : rep.Leads history instrument) (knows : rep.Knows backup)
    (matched : backup.matchSeq ≤ history.length) :
    ∃ engine lastApplied applied stats, rep.advanceCommitIndex =
        { rep with
          commitIndex := max rep.commitIndex backup.matchSeq
          engine, lastApplied, applied, stats } ∧
      rep.advanceCommitIndex.Leads history instrument := by
  have replays := leads.replays
  have candidate := leads.commitCandidate knows matched
  unfold Replicator.advanceCommitIndex
  rw [if_neg (not_not.mpr leads.leading), candidate]
  simp only
  by_cases less : backup.matchSeq ≤ rep.commitIndex
  · rw [if_pos less, Nat.max_eq_left less]
    exact ⟨_, _, _, _, rfl, leads⟩
  · have positive : backup.matchSeq - 1 < rep.log.entries.length := by
      rw [replays.length]
      omega
    have term : rep.log.termAt backup.matchSeq = some rep.term := by
      rw [← Nat.sub_add_cancel (show 1 ≤ backup.matchSeq by omega), replays.whole.termAt_eq positive]
      have member : ∀ entry ∈ rep.log.entries, entry ∈ history := by
        rw [replays.entries]
        exact fun entry => List.mem_of_mem_take
      exact congrArg some (leads.own _ (member _ (List.getElem_mem positive)))
    rw [if_neg less, if_neg (not_not.mpr term), Nat.max_eq_right (Nat.le_of_not_le less)]
    have committed : Replays history instrument history.length (rep.commit backup.matchSeq) :=
      ⟨replays.whole, replays.entries, replays.inside, matched, replays.applied, replays.engine⟩
    have replays' := committed.replays_applyCommitted
    obtain ⟨applied, stats, applies⟩ := committed.applyCommitted
    change ∃ engine lastApplied applied stats, (rep.commit backup.matchSeq).applyCommitted = _ ∧
      (rep.commit backup.matchSeq).applyCommitted.Leads history instrument
    rw [applies] at replays' ⊢
    exact ⟨_, _, _, _, rfl, replays', leads.leading, leads.two, leads.own, Nat.le_max_right _ _⟩

/-- A message that carries a front of the history takes `lastSent` no further than that. -/
theorem Slice.lastSent_told_le (numbered : Numbered history) {msg : AppendEntries} {count : Nat}
    (slice : rep.Slice history count msg) (backup : BackupState) :
    (backup.told msg).lastSent ≤ max backup.lastSent count := by
  unfold BackupState.told
  cases last : msg.entries.getLast? with
  | none => exact Nat.le_max_left _ _
  | some record =>
    have member := List.mem_of_getLast? last
    rw [slice.carries.entries] at member
    obtain ⟨entry, kept, rfl⟩ := List.mem_map.mp member
    obtain ⟨i, found⟩ := List.mem_iff_getElem?.mp (List.mem_of_mem_drop kept)
    have seq := (numbered.take count).seq_of_getElem? found
    have inside := (List.getElem?_eq_some_iff.mp found).1
    rw [List.length_take] at inside
    show entry.seq ≤ _
    omega

theorem Leads.retains (leads : rep.Leads history instrument) : rep.log.Retains history := by
  have retains := leads.replays.whole.retains
  rw [leads.replays.entries, List.take_length] at retains
  exact retains

theorem Leads.prevTerm (leads : rep.Leads history instrument) {msg : AppendEntries}
    (built : rep.AppendOf msg) : msg.prevTerm = lastTerm LogEntry.term (history.take msg.prevSeq) := by
  have prevTerm := built.prevTerm leads.replays.whole
  rw [leads.replays.entries, List.take_length] at prevTerm
  exact prevTerm

/-- The empty message at the head of the log. -/
theorem Leads.slice_headAppend (leads : rep.Leads history instrument) :
    rep.Slice history history.length rep.headAppend where
  short := Nat.le_refl _
  carries := by
    rw [List.take_length]
    exact headAppend_carries leads.retains
  prevTerm := leads.prevTerm .head
  term := rfl
  commitSeq := rfl

/-- **The next message for the backup**, when the leader has sent it everything below: a batch that goes on
from there; or, where nothing is left to send, the commit point if that has moved. -/
theorem Leads.appendFor (leads : rep.Leads history instrument)
    (inside : max backup.matchSeq backup.lastSent ≤ history.length) (short : history.length < 2 ^ 64 - 1) :
    (rep.appendFor backup = none ∧ max backup.matchSeq backup.lastSent = history.length ∧
        rep.commitIndex ≤ backup.lastCommitSent) ∨
      ∃ msg count, rep.appendFor backup = some msg ∧ rep.Slice history count msg ∧
        msg.prevSeq = max backup.matchSeq backup.lastSent ∧
          (msg.prevSeq < count ∨ msg.prevSeq = history.length ∧ count = history.length ∧
            backup.lastCommitSent < rep.commitIndex) := by
  have replays := leads.replays
  have next : backup.nextSeq = max backup.matchSeq backup.lastSent + 1 :=
    BackupState.nextSeq_of_ne (by omega)
  unfold Replicator.appendFor
  rw [replays.lastSeq]
  by_cases all : backup.nextSeq > history.length
  · have done : max backup.matchSeq backup.lastSent = history.length := by omega
    have head : rep.headAppend.prevSeq = history.length := replays.lastSeq
    rw [if_pos all]
    by_cases news : rep.commitIndex > backup.lastCommitSent
    · rw [if_pos news]
      exact Or.inr ⟨rep.headAppend, history.length, rfl, leads.slice_headAppend, head.trans done.symm,
        Or.inr ⟨head, rfl, news⟩⟩
    · rw [if_neg news]
      exact Or.inl ⟨rfl, done, Nat.le_of_not_lt news⟩
  · have within : backup.nextSeq ≤ rep.log.lastSeq := by
      rw [replays.lastSeq]
      omega
    have served : rep.log.canServeFrom backup.nextSeq = true := by
      rw [leads.retains.canServeFrom_iff, replays.whole.uncompacted]
      omega
    have carries := batchAppend_carries leads.retains within served
    rw [List.take_eq_take_min] at carries
    have positive : 0 < kMaxEntriesPerAppend := by decide
    generalize limit : min (backup.nextSeq - 1 + kMaxEntriesPerAppend) history.length = count at carries
    have notEmpty : (rep.batchAppend backup.nextSeq).entries ≠ [] := by
      rw [carries.entries, ne_eq, List.map_eq_nil_iff, List.drop_eq_nil_iff, List.length_take]
      show ¬ min count history.length ≤ backup.nextSeq - 1
      omega
    have slice : rep.Slice history count (rep.batchAppend backup.nextSeq) :=
      ⟨by omega, carries, leads.prevTerm (.batch _ within served), rfl, rfl⟩
    rw [if_neg all, if_pos ⟨served, notEmpty⟩]
    have prevSeq : (rep.batchAppend backup.nextSeq).prevSeq = max backup.matchSeq backup.lastSent := by
      show backup.nextSeq - 1 = _
      omega
    refine Or.inr ⟨_, count, rfl, slice, prevSeq, Or.inl ?_⟩
    omega

/-- **`followUp`** sends the next message, if there is one. -/
theorem followUp_eq {id : NodeId} (filed : rep.backups.find? id = some backup) (named : backup.id = id)
    (below : max backup.matchSeq backup.lastSent ≠ 2 ^ 64 - 1) :
    (rep.appendFor backup = none ∧ rep.followUp { link := {} } id backup = (rep, { link := {} })) ∨
      ∃ msg stats, rep.appendFor backup = some msg ∧ rep.followUp { link := {} } id backup =
        ({ rep with stats, backups := rep.backups.insert id (backup.told msg) },
          (({ link := {} } : Transport).send id (.appendEntries msg)).1) := by
  have same : ({ rep with backups := rep.backups.insert id backup } : Replicator) = rep := by
    rw [OrderedMap.insert_eq_self filed]
  unfold followUp
  by_cases needed : rep.needsAppend backup = true
  · rw [if_pos needed]
    rcases rep.sendAppend_eq { link := {} } backup with
      ⟨nothing, equation⟩ | ⟨msg, stats, _, isFor, equation⟩
    · rw [equation]
      exact Or.inl ⟨nothing, congrArg (·, ({ link := {} } : Transport)) same⟩
    · rw [equation, named]
      exact Or.inr ⟨msg, stats, isFor, rfl⟩
  · rw [if_neg needed]
    unfold needsAppend at needed
    simp only [decide_eq_true_eq, not_or, Nat.not_lt] at needed
    refine Or.inl ⟨?_, rfl⟩
    have beyond : backup.nextSeq > rep.log.lastSeq := by
      rw [BackupState.nextSeq_of_ne below]
      omega
    unfold Replicator.appendFor
    rw [if_pos beyond, if_neg (Nat.not_lt.mpr needed.2)]

/-- **The leader takes note of a response**: it commits what the backup now holds, and sends the next message,
if there is one. -/
theorem Leads.handleAppendResponse (leads : rep.Leads history instrument) (knows : rep.Knows backup)
    (msg : AppendResponse) (current : msg.term ≤ rep.term)
    (matched : (backup.respond msg).matchSeq ≤ history.length)
    (below : max (backup.respond msg).matchSeq (backup.respond msg).lastSent ≠ 2 ^ 64 - 1) :
    ∃ rep', rep'.Leads history instrument ∧ rep'.self = rep.self ∧ rep'.term = rep.term ∧
      rep'.commitIndex = max rep.commitIndex (backup.respond msg).matchSeq ∧
        ((rep.handleAppendResponse { link := {} } backup.id msg = (rep', { link := {} }) ∧
            rep'.Knows (backup.respond msg) ∧ rep'.appendFor (backup.respond msg) = none) ∨
          ∃ append, rep.handleAppendResponse { link := {} } backup.id msg =
              (rep', (({ link := {} } : Transport).send backup.id (.appendEntries append)).1) ∧
            rep'.Knows ((backup.respond msg).told append) ∧
              rep'.appendFor (backup.respond msg) = some append) := by
  have filed : rep.backups.find? backup.id = some backup := by
    rw [knows]
    exact OrderedMap.find?_insert_self _ _ _
  have respondent : rep.respondent backup.id msg = backup.respond msg := by
    unfold Replicator.respondent
    rw [filed]
    rfl
  have noted : (rep.noted backup.id msg).Leads history instrument := leads.refile _ _
  have knows' : (rep.noted backup.id msg).Knows (backup.respond msg) := by
    show rep.backups.insert backup.id (rep.respondent backup.id msg) = _
    rw [respondent, knows, OrderedMap.insert_insert_self]
    rfl
  obtain ⟨engine, lastApplied, applied, stats, advances, leads'⟩ :=
    noted.advanceCommitIndex knows' matched
  obtain ⟨stats', equation, _⟩ := handleAppendResponse_current current { link := {} } backup.id
  have notes : rep.noteResponse backup.id msg = _ := advances
  rw [advances] at leads'
  rw [notes, respondent] at equation
  have counted := leads'.refile (rep.noted backup.id msg).backups stats'
  generalize moved : ({ rep.noted backup.id msg with
      commitIndex := max (rep.noted backup.id msg).commitIndex (backup.respond msg).matchSeq
      engine, lastApplied, applied, stats := stats' } : Replicator) = rep' at equation counted
  have backups : rep'.Knows (backup.respond msg) := by
    rw [← moved]
    exact knows'
  have filed' : rep'.backups.find? backup.id = some (backup.respond msg) := by
    rw [backups]
    exact OrderedMap.find?_insert_self _ _ _
  have frame : rep'.self = rep.self ∧ rep'.term = rep.term ∧
      rep'.commitIndex = max rep.commitIndex (backup.respond msg).matchSeq := by
    rw [← moved]
    exact ⟨rfl, rfl, rfl⟩
  obtain ⟨self, term, commitIndex⟩ := frame
  rcases followUp_eq filed' rfl below with ⟨nothing, follows⟩ | ⟨append, stats'', isFor, follows⟩
  · exact ⟨rep', counted, self, term, commitIndex, Or.inl ⟨equation.trans follows, backups, nothing⟩⟩
  · refine ⟨{ rep' with stats := stats'', backups := rep'.backups.insert backup.id _ },
      counted.refile _ _, self, term, commitIndex,
      Or.inr ⟨append, equation.trans follows, ?_, isFor⟩⟩
    show rep'.backups.insert backup.id _ = _
    rw [backups]
    exact OrderedMap.insert_insert_self _ _ _ _

end Replicator

end Sententia
