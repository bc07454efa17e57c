/-
**A snapshot that does not verify.** `open` counts it as none and `recover` falls back to the whole log. But
`takeSnapshot` has removed from the log what the snapshot covered, and replay stops without a word at the gap.

* `Journal.Keeps` — the log holds a sublist of the entries journalled.
* `damagedSnapshot_iff` — the fallback reproduces the entries exactly if no snapshot removed any of them.
-/

import Sententia.Storage.Crash

namespace Sententia

open Library

/-- Every snapshot is at sequence number zero, in front of fewer than `2 ^ 32` entries: on disk, sequence
numbers have 32 bits, and that of entry `2 ^ 32` is zero again. -/
def CoverNothing : Nat → List JournalCall → Prop
  | _, [] => True
  | entries, .append _ _ :: rest => CoverNothing (entries + 1) rest
  | entries, .snapshot count :: rest => (count = 0 ∧ entries < 2 ^ 32) ∧ CoverNothing entries rest

/-- Recovery reports failure, or yields the whole history. -/
def NeverFallsShort (instrument : InstrumentId) (policy : SyncPolicy) (history : List LogEntry)
    (disk : Disk) : Prop :=
  ∀ disk' engine log report, restart instrument policy disk = (disk', some (engine, log, report)) →
    Rebuilt instrument history engine log

/-- A record is replayed as the next entry or not at all. -/
theorem replayRecords_lastSeq_le (start : Nat) (records : List WalRecord) (engine : MatchingEngine)
    (log : CommandLog) (replayed : Nat) :
    (DurableState.replayRecords start records engine log replayed).2.1.lastSeq ≤
      log.lastSeq + records.length := by
  induction records generalizing engine log replayed with
  | nil => exact Nat.le_refl _
  | cons record rest ih =>
    rw [DurableState.replayRecords, List.length_cons]
    split
    · exact Nat.le_add_right ..
    · next entry _ =>
      split_ifs with covered
      · exact (ih engine log replayed).trans (by omega)
      · split
        · exact Nat.le_add_right ..
        · next log' appended =>
          have next : log'.lastSeq = log.lastSeq + 1 := by
            unfold CommandLog.appendAt at appended
            split_ifs at appended with refused
            obtain rfl := Option.some.inj appended
            exact not_not.mp refused
          have bound := ih (engine.apply entry.command).1 log' (replayed + 1)
          omega

/-- **What a snapshot leaves all entries in the log.** -/
theorem filter_seq_eq_self {entries : List LogEntry} (numbered : Numbered entries) {count : Nat}
    (inside : count ≤ entries.length) :
    entries.filter (fun entry => UInt32.ofNat entry.seq > UInt32.ofNat count) = entries ↔
      count = 0 ∧ entries.length < 2 ^ 32 := by
  have stays : ∀ i, i < entries.length →
      (UInt32.ofNat count < UInt32.ofNat (i + 1) ↔ count % 2 ^ 32 < (i + 1) % 2 ^ 32) := by
    intro i _
    rw [UInt32.lt_iff_toNat_lt, UInt32.toNat_ofNat', UInt32.toNat_ofNat']
  have kept : entries.filter (fun entry => UInt32.ofNat entry.seq > UInt32.ofNat count) = entries ↔
      ∀ i, i < entries.length → count % 2 ^ 32 < (i + 1) % 2 ^ 32 := by
    rw [List.filter_eq_self]
    constructor
    · intro all i bound
      have passes := of_decide_eq_true (all entries[i] (List.getElem_mem bound))
      rw [numbered i bound] at passes
      exact (stays i bound).mp passes
    · intro all entry member
      obtain ⟨i, bound, rfl⟩ := List.getElem_of_mem member
      refine decide_eq_true ?_
      rw [numbered i bound]
      exact (stays i bound).mpr (all i bound)
  rw [kept]
  constructor
  · intro all
    have short : entries.length < 2 ^ 32 := by
      by_contra long
      have wraps := all (2 ^ 32 - 1) (by omega)
      omega
    refine ⟨?_, short⟩
    by_contra positive
    have first := all 0 (by omega)
    omega
  · rintro ⟨rfl, short⟩ i bound
    omega

namespace Journal

/-- The directory after its snapshot file has been overwritten. -/
def damage (journal : Journal) (bytes : Buffer) : Disk :=
  Function.update journal.disk .snapshot (some bytes)

/-- The log on disk, and in the memory of the store, holds some of the entries. -/
structure Keeps (journal : Journal) (kept : List LogEntry) : Prop where
  whole : journal.log.Whole
  terms : ∀ entry ∈ journal.log.entries, entry.term < 2 ^ 64
  isOpen : journal.store.wal.isOpen = true
  sublist : kept.Sublist journal.log.entries
  records : journal.store.wal.records = kept.map entryRecord
  file : (journal.disk .log).getD [] = frames journal.store.wal.records

namespace Keeps

variable {journal next : Journal} {kept : List LogEntry}

theorem fit (keeps : journal.Keeps kept) : ∀ record ∈ journal.store.wal.records, record.Fits := by
  intro record member
  rw [keeps.records] at member
  obtain ⟨entry, _, rfl⟩ := List.mem_map.mp member
  exact fits_entryRecord entry

theorem append (keeps : journal.Keeps kept) {term : UInt64} {command : Command}
    (moved : journal.step (.append term command) = some next) :
    ∃ entry, next.log.entries = journal.log.entries ++ [entry] ∧ next.Keeps (kept ++ [entry]) := by
  obtain ⟨wal, device, appended, isOpen, added, runs⟩ :=
    appendEntry_runs keeps.whole keeps.isOpen term command
  unfold step at moved
  simp only [appended] at moved
  obtain rfl := Option.some.inj moved
  have entries := keeps.whole.entries_append command term.toNat
  have disk := runs.disk
  refine ⟨_, entries, keeps.whole.append command term.toNat, ?_, isOpen, ?_, ?_, ?_⟩
  · intro entry member
    simp only [entries] at member
    rcases List.mem_append.mp member with old | new
    · exact keeps.terms entry old
    · rw [List.mem_singleton.mp new]
      exact term.toNat_lt
  · simp only [entries]
    exact keeps.sublist.append_right _
  · rw [List.map_append, ← keeps.records]
    exact added
  · simp only [disk, added, frames_append, frames_singleton, ← keeps.file]
    simp [Disk.performAll, DiskOp.perform]

theorem snapshot (keeps : journal.Keeps kept) {count : Nat}
    (moved : journal.step (.snapshot count) = some next) :
    count ≤ journal.log.entries.length ∧ next.log = journal.log ∧
      next.Keeps (kept.filter fun entry => UInt32.ofNat entry.seq > UInt32.ofNat count) := by
  simp only [Journal.step] at moved
  split_ifs at moved with admitted
  have obliging : Device.Obliging { disk := journal.disk } := fun _ => rfl
  obtain ⟨store, device, taken, isOpen, _, records, runs⟩ := takeSnapshot_runs keeps.isOpen obliging
    keeps.fit (journal.engineAt count) count (journal.termAt count)
  have taken' : journal.takeSnapshot count = (store, device, true) := taken
  simp only [taken'] at moved
  obtain rfl := Option.some.inj moved
  have filtered : store.wal.records =
      (kept.filter fun entry => UInt32.ofNat entry.seq > UInt32.ofNat count).map entryRecord := by
    rw [records, keeps.records, List.filter_map]
    rfl
  have disk := runs.disk
  unfold Disk.performAll at disk
  rw [List.foldl_append] at disk
  refine ⟨keeps.whole.lastSeq ▸ admitted.2, rfl, keeps.whole, keeps.terms, isOpen,
    List.filter_sublist.trans keeps.sublist, filtered, ?_⟩
  simp only [records]
  rw [disk]
  exact (performAll_rewriteLog _ _).1

/-- **The run lemma**: nothing is missing from the log in the end exactly if nothing was missing before and
no snapshot of the run removed an entry. -/
theorem run (keeps : journal.Keeps kept) {calls : List JournalCall} {final : Journal}
    (ran : Library.run step journal calls = some final) :
    ∃ kept', final.Keeps kept' ∧ (kept' = final.log.entries ↔
      kept = journal.log.entries ∧ CoverNothing journal.log.entries.length calls) := by
  induction calls generalizing journal kept with
  | nil =>
    cases ran
    exact ⟨kept, keeps, (and_iff_left trivial).symm⟩
  | cons call rest ih =>
    obtain ⟨next, moved, ran'⟩ := run_cons ran
    cases call with
    | append term command =>
      obtain ⟨entry, entries, keeps'⟩ := keeps.append moved
      obtain ⟨kept', last, complete⟩ := ih keeps' ran'
      refine ⟨kept', last, complete.trans ?_⟩
      rw [entries, List.append_left_inj, List.length_append]
      rfl
    | snapshot count =>
      obtain ⟨inside, same, keeps'⟩ := keeps.snapshot moved
      obtain ⟨kept', last, complete⟩ := ih keeps' ran'
      refine ⟨kept', last, complete.trans ?_⟩
      rw [same]
      have covers := filter_seq_eq_self keeps.whole.retains.numbered inside
      constructor
      · rintro ⟨all, later⟩
        -- what is left after filtering is a sublist of what was there
        have before : kept = journal.log.entries := keeps.sublist.antisymm (all ▸ List.filter_sublist)
        rw [before] at all
        exact ⟨before, covers.mp all, later⟩
      · rintro ⟨before, covered, later⟩
        rw [before]
        exact ⟨covers.mpr covered, later⟩

/-- What a restart makes of the directory when the snapshot is rejected: it replays what is left. -/
theorem restart_damage (keeps : journal.Keeps kept) {bytes : Buffer} {reason : String}
    (rejected : readSnapshotFile (some bytes) = .error reason) (instrument : InstrumentId)
    (policy : SyncPolicy) :
    ∃ disk report, restart instrument policy (journal.damage bytes) = (disk, some
      ((DurableState.replayRecords 0 (kept.map entryRecord) { instrument } {} 0).1,
        (DurableState.replayRecords 0 (kept.map entryRecord) { instrument } {} 0).2.1, report)) := by
  have file : (journal.damage bytes .log).getD [] = frames (kept.map entryRecord) ++ [] := by
    unfold damage
    rw [Function.update_of_ne (by decide), keeps.file, keeps.records, List.append_nil]
  have fit : ∀ record ∈ kept.map entryRecord, record.Fits := keeps.records ▸ keeps.fit
  have obliging : Device.Obliging { disk := journal.damage bytes } := fun _ => rfl
  obtain ⟨device, opened, _, after⟩ := WriteAheadLog.openLog_eq {} obliging policy file fit readRecord_nil
  have read : readSnapshotFile (device.disk .snapshot) = .error reason := by
    rw [after, Function.update_of_ne (by decide)]
    exact rejected
  unfold restart DurableState.openDir
  simp only [opened, read, DurableState.recover, DurableState.replayLog]
  exact ⟨_, _, rfl⟩

/-- **The fallback is complete exactly if the log is.** -/
theorem neverFallsShort_iff (keeps : journal.Keeps kept) (length : journal.log.entries.length < 2 ^ 64)
    {bytes : Buffer} {reason : String} (rejected : readSnapshotFile (some bytes) = .error reason)
    (instrument : InstrumentId) (policy : SyncPolicy) :
    NeverFallsShort instrument policy journal.log.entries (journal.damage bytes) ↔
      kept = journal.log.entries := by
  obtain ⟨disk, report, restarted⟩ := keeps.restart_damage rejected instrument policy
  constructor
  · intro never
    have rebuilt := never _ _ _ _ restarted
    have bound := replayRecords_lastSeq_le 0 (kept.map entryRecord) { instrument } {} 0
    rw [rebuilt.lastSeq, List.length_map] at bound
    exact keeps.sublist.eq_of_length_le (bound.trans (Nat.le_of_eq (Nat.zero_add _)))
  · rintro rfl disk' engine log report' restarted'
    have numbered := keeps.whole.retains.numbered
    have fit := numbered.fit keeps.terms length
    have consecutive : ∀ i (inside : i < journal.log.entries.length),
        journal.log.entries[i].seq = ({} : CommandLog).lastSeq + 1 + i := by
      intro i inside
      rw [numbered i inside]
      exact Nat.add_comm i 1
    have applied := DurableState.replayRecords_apply fit (Nat.le_refl 0) consecutive { instrument } 0
    rw [restarted, applied] at restarted'
    cases restarted'
    exact ⟨MatchingEngine.SameState.refl _, Nat.zero_add _, rfl⟩

end Keeps

theorem keeps_fresh (instrument : InstrumentId) (policy : SyncPolicy) :
    (fresh instrument policy).Keeps [] := by
  have sound := sound_fresh instrument policy
  have none : (fresh instrument policy).store.wal.records = [] := by
    rw [sound.records, (log_fresh instrument policy).2]
    rfl
  exact ⟨sound.whole, sound.terms, sound.isOpen, List.nil_sublist _, none, sound.file⟩

/-- **The fallback for a snapshot that is rejected.** After any calls, of which some may have taken
snapshots, and whatever bytes without a valid snapshot in them the file then holds: recovery reproduces all
that was journalled, or reports failure, exactly if every snapshot covered nothing. -/
theorem damagedSnapshot_iff (instrument : InstrumentId) (policy policy' : SyncPolicy)
    (calls : List JournalCall) {journal : Journal}
    (ran : Library.run step (fresh instrument policy) calls = some journal)
    (length : (journalled calls).length < 2 ^ 64) {bytes : Buffer} {reason : String}
    (rejected : readSnapshotFile (some bytes) = .error reason) :
    NeverFallsShort instrument policy' (journalled calls) (journal.damage bytes) ↔ CoverNothing 0 calls := by
  obtain ⟨kept, keeps, complete⟩ := (keeps_fresh instrument policy).run ran
  have empty : (fresh instrument policy).log.entries = [] := by
    rw [(log_fresh instrument policy).2]
  rw [← (entries_eq_journalled ran keeps.whole).2] at length ⊢
  rw [empty] at complete
  refine (keeps.neverFallsShort_iff length rejected instrument policy').trans (complete.trans ?_)
  exact and_iff_right rfl

/-- A snapshot of the empty engine, and three asks behind it; the snapshot file is emptied. -/
theorem damagedSnapshot_iff_empty :
    ∃ journal, Library.run step (fresh 1 .everyWrite)
        (.snapshot 0 :: MatchingEngine.restingAsks.map (.append 1)) = some journal ∧
      NeverFallsShort 1 .everyWrite (journalled (.snapshot 0 :: MatchingEngine.restingAsks.map (.append 1)))
        (journal.damage []) := by
  have ran : Library.run step (fresh 1 .everyWrite)
      (.snapshot 0 :: MatchingEngine.restingAsks.map (.append 1)) = some _ :=
    (Option.some_get (by decide +kernel)).symm
  have rejected : readSnapshotFile (some []) = .error "snapshot too small" := rfl
  exact ⟨_, ran, (damagedSnapshot_iff 1 .everyWrite .everyWrite _ ran (by decide) rejected).mpr
    ⟨⟨rfl, by decide⟩, trivial⟩⟩

/-- Three asks, a snapshot after the second, and a buy; the snapshot file is emptied. Recovery succeeds with
an empty log. -/
theorem damagedSnapshot_loses_entries :
    ∃ journal, Library.run step (fresh 1 .everyWrite) asksAndBuy = some journal ∧
      readSnapshotFile (some []) = .error "snapshot too small" ∧
        (restart 1 .everyWrite (journal.damage [])).2.map (fun recovered => recovered.2.1.lastSeq) = some 0 ∧
          ¬ NeverFallsShort 1 .everyWrite (journalled asksAndBuy) (journal.damage []) := by
  have ran : Library.run step (fresh 1 .everyWrite) asksAndBuy = some _ :=
    (Option.some_get (by decide +kernel)).symm
  have rejected : readSnapshotFile (some []) = .error "snapshot too small" := rfl
  obtain ⟨kept, keeps, complete⟩ := (keeps_fresh 1 .everyWrite).run ran
  have entries := (entries_eq_journalled ran keeps.whole).2
  have length : (journalled asksAndBuy).length < 2 ^ 64 := by decide
  have fallsShort := keeps.neverFallsShort_iff (entries ▸ length) rejected 1 .everyWrite
  rw [entries] at fallsShort complete
  refine ⟨_, ran, rejected, by decide +kernel, fun never => ?_⟩
  obtain ⟨_, ⟨covered, _⟩, _⟩ := complete.mp (fallsShort.mp never)
  cases covered

end Journal

end Sententia
