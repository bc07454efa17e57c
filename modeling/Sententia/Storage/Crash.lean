/-
**Crashes of a journalling node.** A process that stops between two calls, or inside one, leaves a disk from
which a new process recovers.

* `recovery_eq_journalled`: a crash between calls, in the middle of an append, or between the two halves of
  `takeSnapshot` loses nothing.
* `takeSnapshot_crash_iff`: the second half of `takeSnapshot` empties the log before it writes the entries
  that are kept back into it. A crash before the last of these is complete loses the others.
-/

import Sententia.Storage.Journal

namespace Sententia

open Library

/-- Where a process can stop. -/
inductive CrashPoint
  | between
  /-- In `takeSnapshot`, after `writeSnapshotFile` and before the log is truncated. -/
  | inSnapshot (count : Nat)
  /-- In `appendEntry`, with so many bytes of the frame written. -/
  | inAppend (term : UInt64) (command : Command) (amount : Nat)
deriving Repr, DecidableEq

namespace Journal

/-- The entry that an append is about to add. -/
def nextEntry (journal : Journal) (term : UInt64) (command : Command) : LogEntry where
  seq := journal.log.lastSeq + 1
  term := term.toNat
  command := command

/-- The disk that a crash leaves. -/
def crashDisk (journal : Journal) : CrashPoint → Disk
  | .between => journal.disk
  | .inSnapshot count =>
    (writeSnapshotFile { disk := journal.disk }
      (DurableState.snapshotRecord (journal.engineAt count) count (journal.termAt count))).1.disk
  | .inAppend term command amount =>
    journal.disk.crash (journal.appendEntry term command).2.1.done 0 amount

def Allows (journal : Journal) : CrashPoint → Prop
  | .inSnapshot count => journal.Admits count
  | _ => True

/-- The append in progress, if all of its frame has been written. -/
def inProgress (journal : Journal) : CrashPoint → List LogEntry
  | .inAppend term command amount =>
    if (entryRecord (journal.nextEntry term command)).frame.length ≤ amount then
      [journal.nextEntry term command]
    else []
  | _ => []

end Journal

/-! ### Recovering everything -/

section

variable {instrument : InstrumentId} {history : List LogEntry} {point : Option Nat} {dropped : Nat}

/-- **Where snapshot and log overlap, or meet, everything is recovered**, as often as one likes. -/
theorem rebuilt_of_onDisk (storable : Storable history)
    (readable : AllReadable instrument history point) (policy policy' : SyncPolicy) {disk : Disk}
    (onDisk : OnDisk instrument history point dropped history.length disk)
    (joined : dropped ≤ point.getD 0) :
    ∃ disk' engine log report report',
      restart instrument policy disk = (disk', some (engine, log, report)) ∧
        Rebuilt instrument history engine log ∧
          restart instrument policy' disk' = (disk', some (engine, log, report')) := by
  have all : reached (point.getD 0) dropped history.length = history.length := by
    unfold reached
    rw [if_pos joined, Nat.max_eq_right readable.inside]
  obtain ⟨report, restarted⟩ := restart_eq storable readable policy (Nat.le_refl _) onDisk
  obtain ⟨report', again⟩ := restart_eq storable readable policy' (Nat.le_refl _) onDisk.restarted
  rw [Function.update_idem] at again
  exact ⟨_, _, _, report, report', restarted, (rebuilt_iff (le_reached _ _ _)).mpr all, again⟩

end

namespace Journal

variable {journal : Journal} {point : Option Nat}

theorem Sound.onDisk (sound : journal.Sound point) :
    OnDisk journal.instrument journal.log.entries point (point.getD 0) journal.log.entries.length
      journal.disk where
  snapshot := sound.snapshot
  log := by
    refine ⟨[], ?_, readRecord_nil⟩
    rw [sound.file, sound.records, List.take_length, List.append_nil]

/-- **What a crash leaves**: a snapshot and the entries after a point that it covers. -/
theorem Sound.onDisk_crash (sound : journal.Sound point) {crash : CrashPoint}
    (allowed : journal.Allows crash) :
    ∃ point' dropped, dropped ≤ point'.getD 0 ∧ point'.getD 0 ≤ journal.log.entries.length ∧
      OnDisk journal.instrument (journal.log.entries ++ journal.inProgress crash) point' dropped
        (journal.log.entries ++ journal.inProgress crash).length (journal.crashDisk crash) := by
  cases crash with
  | between =>
    refine ⟨point, point.getD 0, Nat.le_refl _, sound.inside, ?_⟩
    have nothing : journal.inProgress .between = [] := rfl
    rw [nothing, List.append_nil]
    exact sound.onDisk
  | inSnapshot count =>
    obtain ⟨after, inside⟩ := allowed
    rw [sound.snapshotSeq] at after
    rw [sound.whole.lastSeq] at inside
    have obliging : Device.Obliging { disk := journal.disk } := fun _ => rfl
    obtain ⟨device, written, runs⟩ := writeSnapshotFile_runs obliging
      (DurableState.snapshotRecord (journal.engineAt count) count (journal.termAt count))
    have disk : journal.crashDisk (.inSnapshot count) = device.disk := by
      simp only [crashDisk, written]
    obtain ⟨snapshot, log⟩ := performAll_replaceSnapshot journal.disk
      (snapshotFile (snapshotAt journal.instrument journal.log.entries count))
    have nothing : journal.inProgress (.inSnapshot count) = [] := rfl
    rw [disk, runs.disk, sound.snapshotRecord_eq inside, nothing, List.append_nil]
    refine ⟨some count, point.getD 0, after, inside, snapshot, ?_⟩
    rw [log]
    exact sound.onDisk.log
  | inAppend term command amount =>
    obtain ⟨wal, device, appended, _, _, runs⟩ := sound.appendEntry_eq term command
    have entry : journal.nextEntry term command =
        { seq := journal.log.entries.length + 1, term := term.toNat, command } := by
      unfold nextEntry
      rw [sound.whole.lastSeq]
    rw [← entry] at runs
    have disk : journal.crashDisk (.inAppend term command amount) = DiskOp.perform journal.disk
        (.write .log ((entryRecord (journal.nextEntry term command)).frame.take amount)) := by
      simp only [crashDisk, appended, runs.done]
      rfl
    have snapshot : journal.crashDisk (.inAppend term command amount) .snapshot =
        journal.disk .snapshot := by
      rw [disk]
      simp [DiskOp.perform]
    have log : (journal.crashDisk (.inAppend term command amount) .log).getD [] =
        frames ((journal.log.entries.drop (point.getD 0)).map entryRecord) ++
          (entryRecord (journal.nextEntry term command)).frame.take amount := by
      rw [disk, ← sound.records, ← sound.file]
      simp [DiskOp.perform]
    refine ⟨point, point.getD 0, Nat.le_refl _, sound.inside, ?_, ?_⟩
    · rw [snapshot]
      exact (sound.onDisk.extend sound.inside (Nat.le_refl _) _).snapshot
    · rw [log, List.take_length, List.drop_append_of_le_length sound.inside]
      simp only [inProgress]
      split_ifs with whole
      · refine ⟨[], ?_, readRecord_nil⟩
        rw [List.take_of_length_le whole, List.map_append, frames_append, List.append_nil]
        simp
      · refine ⟨_, ?_, readRecord_take (fits_entryRecord _) (Nat.lt_of_not_le whole)⟩
        rw [List.append_nil]

theorem Sound.storable (sound : journal.Sound point) (length : journal.log.entries.length + 1 < 2 ^ 32) :
    Storable journal.log.entries := ⟨sound.whole.retains.numbered, sound.terms, length⟩

/-- There is room for one entry more. -/
theorem Sound.storable_crash (sound : journal.Sound point)
    (length : journal.log.entries.length + 2 < 2 ^ 32) (crash : CrashPoint) :
    Storable (journal.log.entries ++ journal.inProgress crash) := by
  have same := sound.storable (by omega)
  cases crash with
  | between => exact (List.append_nil journal.log.entries).symm ▸ same
  | inSnapshot count => exact (List.append_nil journal.log.entries).symm ▸ same
  | inAppend term command amount =>
    simp only [inProgress]
    split_ifs
    · refine ⟨same.numbered.append (congrArg (· + 1) sound.whole.lastSeq), ?_, ?_⟩
      · intro entry member
        rcases List.mem_append.mp member with old | new
        · exact same.terms entry old
        · rw [List.mem_singleton.mp new]
          exact term.toNat_lt
      · rw [List.length_append, List.length_singleton]
        omega
    · exact (List.append_nil journal.log.entries).symm ▸ same

/-- **Recovery equals the run that was journalled**, wherever the process stopped: between two calls, after
a snapshot was put in place and before the log was truncated, or in the middle of an append. The node had
applied what it journalled; the engine and the log that come back are those of the journalled entries, and
of the append in progress if it was complete. A second recovery finds the same. -/
theorem recovery_eq_journalled (instrument : InstrumentId) (policy policy' policy'' : SyncPolicy)
    (calls : List JournalCall) {journal : Journal}
    (ran : run step (fresh instrument policy) calls = some journal)
    (few : (journalled calls).length ≤ kMaxOrders) (crash : CrashPoint)
    (allowed : journal.Allows crash) :
    journal.engine = engineAfter instrument (journalled calls) ∧
      ∃ disk engine log report report',
        restart instrument policy' (journal.crashDisk crash) = (disk, some (engine, log, report)) ∧
          Rebuilt instrument (journalled calls ++ journal.inProgress crash) engine log ∧
            restart instrument policy'' disk = (disk, some (engine, log, report')) := by
  have room : (journalled calls).length + 2 < 2 ^ 32 :=
    Nat.lt_of_le_of_lt (Nat.add_le_add_right few 2) (by decide)
  obtain ⟨point, sound, rfl, entries⟩ := run_fresh ran (by omega)
  rw [← entries] at few room ⊢
  obtain ⟨point', dropped, joined, inside, onDisk⟩ := sound.onDisk_crash allowed
  have readable : AllReadable journal.instrument (journal.log.entries ++ journal.inProgress crash)
      point' := by
    intro taken member
    rw [member] at inside
    refine ⟨?_, (length_allOrders_engineAfter _ _).trans
      ((List.length_take_le taken _).trans (inside.trans few))⟩
    rw [List.length_append]
    exact Nat.le_add_right_of_le inside
  exact ⟨sound.engine, rebuilt_of_onDisk (sound.storable_crash room crash) readable policy' policy''
    onDisk joined⟩

/-- Three asks, a snapshot after the second, and a buy. -/
def asksAndBuy : List JournalCall :=
  MatchingEngine.restingAsks.map (.append 1) ++
    [.snapshot 2, .append 2 (.newOrder MatchingEngine.sweepingBuy)]

/-- The next append stops in the middle of its header. -/
def tornHeader : CrashPoint := .inAppend 2 (.cancelOrder { id := 2 }) 10

theorem recovery_eq_journalled_torn :
    ∃ journal, run step (fresh 1 .everyWrite) asksAndBuy = some journal ∧
      journal.inProgress tornHeader = [] ∧ journal.engine = engineAfter 1 (journalled asksAndBuy) ∧
        ∃ disk engine log report report',
          restart 1 .batched (journal.crashDisk tornHeader) = (disk, some (engine, log, report)) ∧
            Rebuilt 1 (journalled asksAndBuy ++ journal.inProgress tornHeader) engine log ∧
              restart 1 .never disk = (disk, some (engine, log, report')) := by
  have ran : run step (fresh 1 .everyWrite) asksAndBuy = some _ :=
    (Option.some_get (by decide +kernel)).symm
  exact ⟨_, ran, by decide +kernel,
    recovery_eq_journalled 1 .everyWrite .batched .never asksAndBuy ran (by decide) tornHeader trivial⟩

end Journal

/-! ### Crashes inside `takeSnapshot` -/

namespace Disk

variable (disk : Disk) (first second : List DiskOp) (amount : Nat)

theorem crash_append_left {done : Nat} (short : done < first.length) :
    disk.crash (first ++ second) done amount = disk.crash first done amount := by
  unfold crash
  rw [List.getElem?_append_left short, List.take_append_of_le_length short.le,
    List.getElem?_eq_getElem short]

theorem crash_append_right (done : Nat) :
    disk.crash (first ++ second) (first.length + done) amount =
      (disk.performAll first).crash second done amount := by
  unfold crash performAll
  rw [List.getElem?_append_right (Nat.le_add_right _ _), Nat.add_sub_cancel_left,
    List.take_length_add_append, List.foldl_append, List.foldl_append]

end Disk

/-- Until the new snapshot is in place, only its temporary file changes. -/
theorem crash_replaceSnapshot (disk : Disk) (bytes : Buffer) {done : Nat} (before : done ≤ 2)
    (amount : Nat) :
    disk.crash (replaceSnapshot bytes) done amount .snapshot = disk .snapshot ∧
      disk.crash (replaceSnapshot bytes) done amount .log = disk .log := by
  have cases : done = 0 ∨ done = 1 ∨ done = 2 := by omega
  rcases cases with rfl | rfl | rfl
  · exact ⟨rfl, rfl⟩
  · simp [Disk.crash, replaceSnapshot, Disk.performAll, DiskOp.perform, DiskOp.performUpTo]
  · simp [Disk.crash, replaceSnapshot, Disk.performAll, DiskOp.perform, DiskOp.performUpTo]

/-- How many records are complete after so many writes, and so many bytes of the next. -/
def rewritten (records : List WalRecord) (writes amount : Nat) : Nat :=
  match records[writes]? with
  | none => records.length
  | some record => if record.frame.length ≤ amount then writes + 1 else writes

theorem rewritten_le (records : List WalRecord) (writes amount : Nat) :
    rewritten records writes amount ≤ records.length := by
  unfold rewritten
  split
  · exact Nat.le_refl _
  · next record found =>
    have inside := (List.getElem?_eq_some_iff.mp found).1
    split_ifs <;> omega

/-- While the log is rewritten it holds the records written so far, and part of one more. -/
theorem crash_rewriteLog (disk : Disk) {records : List WalRecord}
    (fit : ∀ record ∈ records, record.Fits) (writes amount : Nat) :
    disk.crash (rewriteLog records) (writes + 1) amount .snapshot = disk .snapshot ∧
      ∃ tail, (disk.crash (rewriteLog records) (writes + 1) amount .log).getD [] =
        frames (records.take (rewritten records writes amount)) ++ tail ∧ readRecord tail = none := by
  unfold Disk.crash rewritten
  have next : (rewriteLog records)[writes + 1]? =
      records[writes]?.map fun record => .write .log record.frame := List.getElem?_map
  rw [next]
  cases found : records[writes]? with
  | none =>
    obtain ⟨log, snapshot⟩ := performAll_rewriteLog disk records
    refine ⟨snapshot, [], ?_, readRecord_nil⟩
    rw [List.take_length, List.append_nil]
    exact log
  | some record =>
    have written : (rewriteLog records).take (writes + 1) = rewriteLog (records.take writes) := by
      unfold rewriteLog
      rw [List.take_succ_cons, List.map_take]
    obtain ⟨log, snapshot⟩ := performAll_rewriteLog disk (records.take writes)
    rw [written]
    simp only [Option.map_some, DiskOp.performUpTo, DiskOp.perform, Function.update_self, Option.getD_some, log]
    refine ⟨(Function.update_of_ne (by decide) _ _).trans snapshot, ?_⟩
    split_ifs with whole
    · refine ⟨[], ?_, readRecord_nil⟩
      rw [List.take_add_one, found, List.take_of_length_le whole, frames_append, List.append_nil]
      simp
    · exact ⟨_, rfl, readRecord_take (fit record (List.mem_of_getElem? found)) (Nat.lt_of_not_le whole)⟩

/-- Recovery from these files yields the whole history. -/
def LosesNothing (instrument : InstrumentId) (policy : SyncPolicy) (history : List LogEntry)
    (disk : Disk) : Prop :=
  ∃ disk' engine log report, restart instrument policy disk = (disk', some (engine, log, report)) ∧
    Rebuilt instrument history engine log

theorem losesNothing_iff {instrument : InstrumentId} {policy : SyncPolicy} {history : List LogEntry}
    {point : Option Nat} {dropped count : Nat} {disk : Disk} (storable : Storable history)
    (readable : AllReadable instrument history point) (short : count ≤ history.length)
    (onDisk : OnDisk instrument history point dropped count disk) :
    LosesNothing instrument policy history disk ↔
      reached (point.getD 0) dropped count = history.length := by
  obtain ⟨report, restarted⟩ := restart_eq storable readable policy short onDisk
  have whole : Rebuilt instrument history _ _ ↔ _ :=
    rebuilt_iff (le_reached (point.getD 0) dropped count)
  unfold LosesNothing
  rw [restarted, ← whole]
  constructor
  · rintro ⟨disk', engine, log, report', same, rebuilt⟩
    cases same
    exact rebuilt
  · exact fun rebuilt => ⟨_, _, _, _, rfl, rebuilt⟩

namespace Journal

variable {journal : Journal} {point : Option Nat}

/-- The disk after a crash in `takeSnapshot`: so many of its calls are done, and so much of the next. -/
def snapshotCrash (journal : Journal) (count done amount : Nat) : Disk :=
  journal.disk.crash (journal.takeSnapshot count).2.1.done done amount

/-- The new snapshot is not yet in place, which takes three calls; or it does not lie before the old one,
and the log is not yet emptied, which is the fourth call, or has every entry after the snapshot back. -/
def Survives (journal : Journal) (count done amount : Nat) : Prop :=
  done ≤ 2 ∨
    (journal.snapshotSeq ≤ count ∧
      (done = 3 ∨
        rewritten ((journal.log.entries.drop count).map entryRecord) (done - 4) amount =
          journal.log.entries.length - count))

instance (journal : Journal) (count done amount : Nat) :
    Decidable (journal.Survives count done amount) :=
  inferInstanceAs (Decidable (_ ∨ _ ∧ _))

section

variable (sound : journal.Sound point) (length : journal.log.entries.length + 1 < 2 ^ 32) {count : Nat}
  (inside : count ≤ journal.log.entries.length)

include sound length inside

theorem snapshotCrash_eq (done amount : Nat) :
    journal.snapshotCrash count done amount = journal.disk.crash
      (replaceSnapshot (snapshotFile (snapshotAt journal.instrument journal.log.entries count)) ++
        rewriteLog ((journal.log.entries.drop (max (point.getD 0) count)).map entryRecord)) done amount := by
  obtain ⟨store, device, taken, _, _, _, runs⟩ := sound.takeSnapshot_eq (by omega) inside
  unfold snapshotCrash
  rw [taken]
  exact congrArg (journal.disk.crash · done amount) runs.done

/-- The old snapshot is still in place. -/
theorem onDisk_beforeRename {done : Nat} (before : done ≤ 2) (amount : Nat) :
    OnDisk journal.instrument journal.log.entries point (point.getD 0) journal.log.entries.length
      (journal.snapshotCrash count done amount) := by
  rw [snapshotCrash_eq sound length inside, Disk.crash_append_left _ _ _ _ (Nat.lt_succ_of_le before)]
  generalize snapshotFile (snapshotAt journal.instrument journal.log.entries count) = bytes
  obtain ⟨snapshot, log⟩ := crash_replaceSnapshot journal.disk bytes before amount
  refine ⟨snapshot.trans sound.snapshot, ?_⟩
  rw [log]
  exact sound.onDisk.log

/-- The new snapshot is in place, in front of the old log. -/
theorem onDisk_beforeTruncation (amount : Nat) :
    OnDisk journal.instrument journal.log.entries (some count) (point.getD 0)
      journal.log.entries.length (journal.snapshotCrash count 3 amount) := by
  have crashed := snapshotCrash_eq sound length inside 3 amount
  generalize same : snapshotFile (snapshotAt journal.instrument journal.log.entries count) = bytes at crashed
  rw [show 3 = (replaceSnapshot bytes).length + 0 from rfl, Disk.crash_append_right] at crashed
  obtain ⟨snapshot, log⟩ := performAll_replaceSnapshot journal.disk bytes
  have disk : journal.snapshotCrash count 3 amount = journal.disk.performAll (replaceSnapshot bytes) := crashed
  rw [disk]
  refine ⟨snapshot.trans (congrArg some same.symm), ?_⟩
  rw [log]
  exact sound.onDisk.log

/-- The new snapshot is in place, and some of the entries behind it are back in the log. -/
theorem onDisk_rewriting (writes amount : Nat) :
    OnDisk journal.instrument journal.log.entries (some count) (max (point.getD 0) count)
      (max (point.getD 0) count + rewritten
        ((journal.log.entries.drop (max (point.getD 0) count)).map entryRecord) writes amount)
      (journal.snapshotCrash count (writes + 4) amount) := by
  have crashed := snapshotCrash_eq sound length inside (writes + 4) amount
  generalize same : snapshotFile (snapshotAt journal.instrument journal.log.entries count) = bytes at crashed
  have calls : writes + 4 = (replaceSnapshot bytes).length + (writes + 1) := by
    show writes + 4 = 3 + (writes + 1)
    omega
  rw [calls, Disk.crash_append_right] at crashed
  rw [calls, crashed]
  have fit : ∀ record ∈ (journal.log.entries.drop (max (point.getD 0) count)).map entryRecord,
      record.Fits := by
    intro record member
    obtain ⟨entry, _, rfl⟩ := List.mem_map.mp member
    exact fits_entryRecord entry
  obtain ⟨snapshot, tail, log, stops⟩ :=
    crash_rewriteLog (journal.disk.performAll (replaceSnapshot bytes)) fit writes amount
  refine ⟨?_, tail, log.trans ?_, stops⟩
  · exact snapshot.trans ((performAll_replaceSnapshot journal.disk bytes).1.trans (congrArg some same.symm))
  · rw [List.drop_take, Nat.add_sub_cancel_left, List.map_take]

end

/-- **When a crash in `takeSnapshot` loses nothing.** -/
theorem Sound.losesNothing_snapshotCrash (sound : journal.Sound point)
    (length : journal.log.entries.length + 1 < 2 ^ 32)
    (orders : ∀ count, (journal.engineAt count).allOrders.length ≤ kMaxOrders) {count : Nat}
    (inside : count ≤ journal.log.entries.length) (policy : SyncPolicy) (done amount : Nat) :
    LosesNothing journal.instrument policy journal.log.entries (journal.snapshotCrash count done amount) ↔
      journal.Survives count done amount := by
  have storable := sound.storable length
  have within := sound.inside
  have readable : ∀ point : Option Nat, point.getD 0 ≤ journal.log.entries.length →
      AllReadable journal.instrument journal.log.entries point := by
    intro point within taken member
    rw [member] at within
    exact ⟨within, orders taken⟩
  unfold Survives
  rw [sound.snapshotSeq]
  rcases Nat.lt_or_ge done 3 with before | beyond
  · have onDisk := onDisk_beforeRename sound length inside (Nat.le_of_lt_succ before) amount
    rw [losesNothing_iff storable (readable _ sound.inside) (Nat.le_refl _) onDisk]
    unfold reached
    rw [if_pos (Nat.le_refl _), Nat.max_eq_right sound.inside]
    exact iff_of_true rfl (Or.inl (Nat.le_of_lt_succ before))
  · rcases Nat.eq_or_lt_of_le beyond with rfl | emptied
    · have onDisk := onDisk_beforeTruncation sound length inside amount
      rw [losesNothing_iff storable (readable (some count) inside) (Nat.le_refl _) onDisk]
      unfold reached
      rw [Option.getD_some]
      split_ifs with joined
      · exact iff_of_true (Nat.max_eq_right inside) (Or.inr ⟨joined, Or.inl rfl⟩)
      · refine iff_of_false (by omega) ?_
        omega
    · obtain ⟨writes, rfl⟩ : ∃ writes, done = writes + 4 := ⟨done - 4, by omega⟩
      have onDisk := onDisk_rewriting sound length inside writes amount
      have few := rewritten_le ((journal.log.entries.drop (max (point.getD 0) count)).map entryRecord)
        writes amount
      rw [List.length_map, List.length_drop] at few
      rw [losesNothing_iff storable (readable (some count) inside) (by omega) onDisk]
      unfold reached
      rw [Option.getD_some, Nat.add_sub_cancel]
      by_cases joined : point.getD 0 ≤ count
      · rw [Nat.max_eq_right joined] at few ⊢
        rw [if_pos (Nat.le_refl _), Nat.max_eq_right (Nat.le_add_right _ _)]
        omega
      · rw [if_neg (by omega)]
        omega

/-- **A crash inside `takeSnapshot`**, at a point `count` of the log: recovery then yields everything that
had been journalled exactly if the crash comes before the new snapshot is in place, or the new snapshot does
not lie before the old one and the crash comes before the log is emptied or after the last entry behind the
snapshot is written back. -/
theorem takeSnapshot_crash_iff (instrument : InstrumentId) (policy policy' : SyncPolicy)
    (calls : List JournalCall) {journal : Journal}
    (ran : run step (fresh instrument policy) calls = some journal)
    (length : (journalled calls).length + 1 < 2 ^ 32)
    (orders : ∀ count,
      (engineAfter instrument ((journalled calls).take count)).allOrders.length ≤ kMaxOrders)
    {count : Nat} (inside : count ≤ (journalled calls).length) (done amount : Nat) :
    LosesNothing instrument policy' (journalled calls) (journal.snapshotCrash count done amount) ↔
      journal.Survives count done amount := by
  obtain ⟨point, sound, rfl, entries⟩ := run_fresh ran (by omega)
  rw [← entries] at length orders inside ⊢
  exact sound.losesNothing_snapshotCrash length orders inside policy' done amount

/-- A snapshot after the second ask; the crash comes when all bytes of the second entry behind it are
written. -/
theorem takeSnapshot_crash_iff_complete :
    ∃ journal, run step (fresh 1 .everyWrite) asksAndBuy = some journal ∧
      LosesNothing 1 .everyWrite (journalled asksAndBuy) (journal.snapshotCrash 2 5 100) := by
  have ran : run step (fresh 1 .everyWrite) asksAndBuy = some _ :=
    (Option.some_get (by decide +kernel)).symm
  exact ⟨_, ran, (takeSnapshot_crash_iff 1 .everyWrite .everyWrite asksAndBuy ran (by decide)
    (orders_le_of_length_le (by decide)) (by decide) 5 100).mpr (by decide +kernel)⟩

/-- The crash comes when the log has just been emptied: both entries behind the snapshot are lost. -/
theorem takeSnapshot_crash_loses_entries :
    ∃ journal, run step (fresh 1 .everyWrite) asksAndBuy = some journal ∧
      2 ≤ (journalled asksAndBuy).length ∧
        ¬ LosesNothing 1 .everyWrite (journalled asksAndBuy) (journal.snapshotCrash 2 4 0) := by
  have ran : run step (fresh 1 .everyWrite) asksAndBuy = some _ :=
    (Option.some_get (by decide +kernel)).symm
  obtain ⟨point, sound, same, entries⟩ := run_fresh ran (by decide)
  have inside : 2 ≤ (journalled asksAndBuy).length := by decide
  have few : (journalled asksAndBuy).length ≤ kMaxOrders := by decide
  have short : (journalled asksAndBuy).length + 1 < 2 ^ 32 := by decide
  rw [← entries] at inside few short
  have survives := sound.losesNothing_snapshotCrash short (orders_le_of_length_le few) inside .everyWrite 4 0
  rw [same, entries] at survives
  exact ⟨_, ran, by decide, fun everything => absurd (survives.mp everything) (by decide +kernel)⟩

end Journal

end Sententia
