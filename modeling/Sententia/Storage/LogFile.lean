/-
**The log behind a file descriptor** (`wal.cpp`), where no call fails. A file is its bytes and a position at
which the next read or write takes place: what `Device` takes for granted, that a write goes to the end of the
log, is here a matter of where `replay` and `reset` leave the position.

* `Holds` — the mirror, the file, its size and the position agree on a list of records. Every operation leaves
  a log that holds the list it should (`Holds.append`, `Holds.truncateThrough`).
* `Simulates` — the outcome is the one on a device, on which every write goes to the end (`Mirrors.append`,
  `Mirrors.truncateThrough`).
-/

import Sententia.Storage.WalSpec

namespace Sententia

open Library

structure LogFile where
  contents : Buffer := []
  position : Nat := 0
deriving Repr, DecidableEq

namespace LogFile

/-- `lseek`. -/
def seek (file : LogFile) (position : Nat) : LogFile := { file with position }

/-- Reads until there is nothing more to read. -/
def readAll (file : LogFile) : LogFile × Buffer :=
  ({ file with position := max file.position file.contents.length }, file.contents.drop file.position)

/-- `writeAll`: over what is there; a position behind the end leaves a gap of zeros. -/
def write (file : LogFile) (bytes : Buffer) : LogFile where
  contents := file.contents.take file.position ++
    List.replicate (file.position - file.contents.length) 0 ++ bytes ++
      file.contents.drop (file.position + bytes.length)
  position := file.position + bytes.length

/-- `ftruncate`. -/
def truncate (file : LogFile) (size : Nat) : LogFile :=
  { file with contents := file.contents.take size ++ List.replicate (size - file.contents.length) 0 }

end LogFile

/-- A log and the file at its path, which stays where it is while the log is closed. -/
structure LogHandle where
  wal : WriteAheadLog := {}
  file : LogFile := {}

namespace LogHandle

/-- Reads every valid record, cuts off the rest, and goes to the end. -/
def replay (handle : LogHandle) : LogHandle × Bool :=
  let (file, bytes) := (handle.file.seek 0).readAll
  let (found, tail) := scan readRecord bytes.length bytes
  let offset := bytes.length - tail.length
  let wal := { handle.wal with
    records := handle.wal.records ++ found
    stats := { handle.wal.stats with recordsReplayed := handle.wal.stats.recordsReplayed + found.length } }
  let (wal, file) :=
    if offset < bytes.length then
      ({ wal with
          stats := { wal.stats with tailWasTorn := true, truncatedTailBytes := bytes.length - offset } },
        file.truncate offset)
    else (wal, file)
  ({ wal := { wal with bytesOnDisk := offset }, file := file.seek offset }, true)

def close (handle : LogHandle) : LogHandle := { handle with wal := handle.wal.close }

/-- `open`: the descriptor is a new one. -/
def openLog (handle : LogHandle) (policy : SyncPolicy) : LogHandle × Bool :=
  replay
    { wal := { handle.close.wal with isOpen := true, policy, records := [], stats := {}, sinceSync := 0 }
      file := handle.file.seek 0 }

def sync (handle : LogHandle) : LogHandle × Bool :=
  if ¬ handle.wal.isOpen then (handle, true)
  else if handle.wal.policy = .never then ({ handle with wal := { handle.wal with sinceSync := 0 } }, true)
  else
    ({ handle with wal := { handle.wal with
        sinceSync := 0
        stats := { handle.wal.stats with fsyncs := handle.wal.stats.fsyncs + 1 } } }, true)

def append (handle : LogHandle) (seq : UInt32) (data : Buffer) : LogHandle × Bool :=
  let record : WalRecord := { seq, payload := data }
  if ¬ handle.wal.isOpen then (handle, false)
  else if data.length > kMaxRecordSize then (handle, false)
  else
    let handle : LogHandle :=
      { wal := handle.wal.mirror record, file := handle.file.write record.frame }
    if handle.wal.syncDue then handle.sync else (handle, true)

def reset (handle : LogHandle) : LogHandle × Bool :=
  if ¬ handle.wal.isOpen then (handle, false)
  else
    sync
      { wal := { handle.wal with records := [], bytesOnDisk := 0, sinceSync := 0 }
        file := (handle.file.truncate 0).seek 0 }

/-- The loop of `truncateThrough`. -/
def appendAll (handle : LogHandle) : List WalRecord → LogHandle × Bool
  | [] => (handle, true)
  | record :: rest =>
    match handle.append record.seq record.payload with
    | (handle, false) => (handle, false)
    | (handle, true) => handle.appendAll rest

def truncateThrough (handle : LogHandle) (seq : UInt32) : LogHandle × Bool :=
  if ¬ handle.wal.isOpen then (handle, false)
  else
    let keep := handle.wal.records.filter fun record => record.seq > seq
    match handle.reset with
    | (handle, false) => (handle, false)
    | (handle, true) =>
      match handle.appendAll keep with
      | (handle, false) => (handle, false)
      | (handle, true) => handle.sync

/-! ### What a log holds -/

/-- The mirror, the file, its size and, while the log is open, the position agree on the records. -/
structure Holds (handle : LogHandle) (records : List WalRecord) : Prop where
  mirror : handle.wal.records = records
  fit : ∀ record ∈ records, record.Fits
  contents : handle.file.contents = frames records
  size : handle.wal.bytesOnDisk = (frames records).length
  position : handle.wal.isOpen = true → handle.file.position = (frames records).length

variable {handle : LogHandle} {records : List WalRecord}

/-- **Opening a file** of frames and a tail that reads as nothing. -/
theorem openLog_eq (handle : LogHandle) (policy : SyncPolicy) {tail : Buffer}
    (file : handle.file.contents = frames records ++ tail) (fit : ∀ record ∈ records, record.Fits)
    (stops : readRecord tail = none) :
    handle.openLog policy =
      ({ wal :=
          { isOpen := true
            policy
            batchSize := handle.wal.batchSize
            bytesOnDisk := (frames records).length
            records
            stats := WriteAheadLog.openStats records tail }
         file := { contents := frames records, position := (frames records).length } }, true) := by
  have found := scan_frames fit stops (Nat.le_refl _)
  have offset : (frames records ++ tail).length - tail.length = (frames records).length := by
    rw [List.length_append, Nat.add_sub_cancel]
  unfold openLog replay
  simp only [close, WriteAheadLog.close, LogFile.seek, LogFile.readAll, file, List.drop_zero, found, offset,
    List.nil_append, Nat.zero_add]
  by_cases whole : tail = []
  · subst whole
    rw [List.append_nil, if_neg (Nat.lt_irrefl _)]
    rfl
  · have positive := List.length_pos_iff.mpr whole
    have shorter : (frames records).length < (frames records ++ tail).length := by
      rw [List.length_append]
      omega
    have cut : (frames records ++ tail).length - (frames records).length = tail.length := by
      rw [List.length_append, Nat.add_sub_cancel_left]
    have noGap : (frames records).length - (frames records ++ tail).length = 0 := by omega
    rw [if_pos shorter]
    simp only [LogFile.truncate, cut, noGap, List.take_left, List.replicate_zero, List.append_nil,
      WriteAheadLog.openStats, ne_eq, whole, not_false_eq_true, decide_true]

/-- Opening a file, whatever is in it. -/
theorem exists_openLog (handle : LogHandle) (policy : SyncPolicy) :
    ∃ records tail, handle.file.contents = frames records ++ tail ∧ readRecord tail = none ∧
      (handle.openLog policy).1.Holds records ∧ (handle.openLog policy).2 = true ∧
        (handle.openLog policy).1.wal.isOpen = true ∧
          (handle.openLog policy).1.wal.stats = WriteAheadLog.openStats records tail := by
  obtain ⟨records, tail, file, fit, stops, _⟩ := scan_file handle.file.contents
  refine ⟨records, tail, file, stops, ?_⟩
  rw [handle.openLog_eq policy file fit stops]
  exact ⟨⟨rfl, fit, rfl, rfl, fun _ => rfl⟩, rfl, rfl, rfl⟩

/-- A write at the end of the file. -/
theorem write_end {file : LogFile} (atEnd : file.position = file.contents.length) (bytes : Buffer) :
    file.write bytes =
      { contents := file.contents ++ bytes, position := (file.contents ++ bytes).length } := by
  unfold LogFile.write
  rw [atEnd, List.take_length, Nat.sub_self, List.drop_eq_nil_of_le (Nat.le_add_right _ _),
    List.length_append]
  simp

/-- A flush changes counters only. -/
theorem Holds.sync (holds : handle.Holds records) :
    handle.sync.1.Holds records ∧ handle.sync.2 = true ∧
      handle.sync.1.wal.isOpen = handle.wal.isOpen := by
  unfold LogHandle.sync
  split_ifs
  · exact ⟨⟨holds.mirror, holds.fit, holds.contents, holds.size, holds.position⟩, rfl, rfl⟩
  · exact ⟨⟨holds.mirror, holds.fit, holds.contents, holds.size, holds.position⟩, rfl, rfl⟩
  · exact ⟨holds, rfl, rfl⟩

theorem holds_reset (isOpen : handle.wal.isOpen = true) :
    handle.reset.1.Holds [] ∧ handle.reset.2 = true ∧ handle.reset.1.wal.isOpen = true := by
  have emptied : Holds
      { wal := { handle.wal with records := [], bytesOnDisk := 0, sinceSync := 0 }
        file := (handle.file.truncate 0).seek 0 } [] := by
    refine ⟨rfl, nofun, ?_, rfl, fun _ => rfl⟩
    show handle.file.contents.take 0 ++ List.replicate (0 - handle.file.contents.length) 0 = []
    rw [List.take_zero, Nat.zero_sub]
    rfl
  unfold LogHandle.reset
  rw [if_neg (not_not.mpr isOpen)]
  obtain ⟨synced, done, same⟩ := emptied.sync
  exact ⟨synced, done, same.trans isOpen⟩

namespace Holds

theorem reopened (holds : handle.Holds records) (policy : SyncPolicy) :
    (handle.openLog policy).1.Holds records ∧ (handle.openLog policy).2 = true ∧
      (handle.openLog policy).1.wal.isOpen = true ∧
        (handle.openLog policy).1.wal.stats.tailWasTorn = false := by
  have file : handle.file.contents = frames records ++ [] := by rw [List.append_nil, holds.contents]
  rw [handle.openLog_eq policy file holds.fit readRecord_nil]
  exact ⟨⟨rfl, holds.fit, rfl, rfl, fun _ => rfl⟩, rfl, rfl, rfl⟩

theorem close (holds : handle.Holds records) : handle.close.Holds records :=
  ⟨holds.mirror, holds.fit, holds.contents, holds.size, nofun⟩

theorem atEnd (holds : handle.Holds records) (isOpen : handle.wal.isOpen = true) :
    handle.file.position = handle.file.contents.length := by
  rw [holds.position isOpen, holds.contents]

/-- **An append** joins the mirror and the end of the file. -/
theorem append (holds : handle.Holds records) (isOpen : handle.wal.isOpen = true) {record : WalRecord}
    (fits : record.Fits) :
    (handle.append record.seq record.payload).1.Holds (records ++ [record]) ∧
      (handle.append record.seq record.payload).2 = true ∧
        (handle.append record.seq record.payload).1.wal.isOpen = true := by
  have grown : frames (records ++ [record]) = frames records ++ record.frame := by
    rw [frames_append, frames_singleton]
  have added : Holds { wal := handle.wal.mirror record, file := handle.file.write record.frame }
      (records ++ [record]) := by
    rw [write_end (holds.atEnd isOpen), holds.contents, ← grown]
    refine ⟨congrArg (· ++ [record]) holds.mirror, fun other member => ?_, rfl, ?_, fun _ => rfl⟩
    · rcases List.mem_append.mp member with old | new
      · exact holds.fit other old
      · rw [List.mem_singleton.mp new]
        exact fits
    · rw [grown, List.length_append, ← holds.size]
      rfl
  unfold LogHandle.append
  rw [if_neg (not_not.mpr isOpen), if_neg (Nat.not_lt.mpr fits)]
  dsimp only
  split_ifs
  · obtain ⟨synced, done, same⟩ := added.sync
    exact ⟨synced, done, same.trans isOpen⟩
  · exact ⟨added, rfl, isOpen⟩

theorem appendAll (holds : handle.Holds records) (isOpen : handle.wal.isOpen = true)
    {more : List WalRecord} (fit : ∀ record ∈ more, record.Fits) :
    (handle.appendAll more).1.Holds (records ++ more) ∧ (handle.appendAll more).2 = true ∧
      (handle.appendAll more).1.wal.isOpen = true := by
  induction more generalizing handle records with
  | nil =>
    rw [List.append_nil]
    exact ⟨holds, rfl, isOpen⟩
  | cons record rest ih =>
    obtain ⟨added, done, isOpen'⟩ := holds.append isOpen (fit record List.mem_cons_self)
    rw [LogHandle.appendAll]
    generalize handle.append record.seq record.payload = result at added done isOpen'
    obtain ⟨handle', ok⟩ := result
    obtain rfl : ok = true := done
    rw [List.append_cons]
    exact ih added isOpen' fun later member => fit later (List.mem_cons_of_mem _ member)

/-- **`truncateThrough`** keeps the records after the boundary, in their order. -/
theorem truncateThrough (holds : handle.Holds records) (isOpen : handle.wal.isOpen = true) (seq : UInt32) :
    (handle.truncateThrough seq).1.Holds (records.filter fun record => record.seq > seq) ∧
      (handle.truncateThrough seq).2 = true ∧ (handle.truncateThrough seq).1.wal.isOpen = true := by
  have kept : ∀ record ∈ records.filter (fun record => record.seq > seq), record.Fits :=
    fun record member => holds.fit record (List.mem_filter.mp member).1
  obtain ⟨emptied, done, isOpen'⟩ := holds_reset isOpen
  unfold LogHandle.truncateThrough
  rw [if_neg (not_not.mpr isOpen), holds.mirror]
  dsimp only
  generalize handle.reset = result at emptied done isOpen'
  obtain ⟨handle', ok⟩ := result
  obtain rfl : ok = true := done
  dsimp only
  obtain ⟨rebuilt, done', isOpen''⟩ := emptied.appendAll isOpen' kept
  generalize handle'.appendAll _ = result at rebuilt done' isOpen''
  obtain ⟨handle'', ok⟩ := result
  obtain rfl : ok = true := done'
  dsimp only
  obtain ⟨synced, done'', same⟩ := rebuilt.sync
  exact ⟨synced, done'', same.trans isOpen''⟩

end Holds

/-! ### The log on a device -/

/-- What a device on which every call completes has in its log file. -/
structure Mirrors (handle : LogHandle) (device : Device) : Prop where
  obliging : device.Obliging
  file : (device.disk .log).getD [] = handle.file.contents

/-- The same outcome as on a device. -/
structure Simulates (outcome : LogHandle × Bool) (outcome' : WriteAheadLog × Device × Bool) : Prop where
  wal : outcome'.1 = outcome.1.wal
  mirrors : outcome.1.Mirrors outcome'.2.1
  ok : outcome'.2.2 = outcome.2

variable {device : Device}

theorem Mirrors.openLog (mirrors : handle.Mirrors device) (policy : SyncPolicy) :
    Simulates (handle.openLog policy) (handle.wal.openLog device policy) := by
  obtain ⟨records, tail, file, fit, stops, _⟩ := scan_file handle.file.contents
  obtain ⟨device', opened, answers, disk⟩ :=
    handle.wal.openLog_eq mirrors.obliging policy (mirrors.file.trans file) fit stops
  rw [handle.openLog_eq policy file fit stops, opened]
  refine ⟨rfl, ⟨fun call => ?_, ?_⟩, rfl⟩
  · show device'.answers call = none
    rw [answers]
    exact mirrors.obliging call
  · show (device'.disk .log).getD [] = frames records
    rw [disk, Function.update_self]
    rfl

theorem Mirrors.sync (mirrors : handle.Mirrors device) :
    Simulates handle.sync (handle.wal.sync device) := by
  have flushed := device.flush_of_none (mirrors.obliging device.calls)
  unfold LogHandle.sync WriteAheadLog.sync
  split_ifs with isOpen lazy
  · exact ⟨rfl, ⟨mirrors.obliging, mirrors.file⟩, rfl⟩
  · rw [flushed]
    exact ⟨rfl, ⟨mirrors.obliging, mirrors.file⟩, rfl⟩
  · exact ⟨rfl, mirrors, rfl⟩

/-- **An append at the end of the file** is one on the device. -/
theorem Mirrors.append (mirrors : handle.Mirrors device)
    (atEnd : handle.wal.isOpen = true → handle.file.position = handle.file.contents.length) (seq : UInt32)
    (data : Buffer) : Simulates (handle.append seq data) (handle.wal.append device seq data) := by
  have written : handle.wal.isOpen = true → ∀ record : WalRecord, Mirrors
      { wal := handle.wal.mirror record, file := handle.file.write record.frame }
      (device.after (.write .log record.frame)) := by
    intro isOpen record
    refine ⟨mirrors.obliging, ?_⟩
    rw [write_end (atEnd isOpen), ← mirrors.file]
    simp [Device.after, DiskOp.perform]
  unfold LogHandle.append WriteAheadLog.append
  dsimp only
  rw [Device.call_obliging mirrors.obliging]
  by_cases isOpen : handle.wal.isOpen = true
  · rw [if_neg (not_not.mpr isOpen), if_neg (not_not.mpr isOpen)]
    split_ifs with large due
    · exact ⟨rfl, mirrors, rfl⟩
    · exact (written isOpen _).sync
    · exact ⟨rfl, written isOpen _, rfl⟩
  · rw [if_pos isOpen, if_pos isOpen]
    exact ⟨rfl, mirrors, rfl⟩

theorem Mirrors.reset (mirrors : handle.Mirrors device) :
    Simulates handle.reset (handle.wal.reset device) := by
  unfold LogHandle.reset WriteAheadLog.reset
  by_cases isOpen : handle.wal.isOpen = true
  · rw [if_neg (not_not.mpr isOpen), if_neg (not_not.mpr isOpen), Device.call_obliging mirrors.obliging]
    refine @Mirrors.sync { wal := _, file := (handle.file.truncate 0).seek 0 } _ ⟨mirrors.obliging, ?_⟩
    cases stored : device.disk .log <;> simp [Device.after, DiskOp.perform, LogFile.seek, LogFile.truncate, stored]
  · rw [if_pos isOpen, if_pos isOpen]
    exact ⟨rfl, mirrors, rfl⟩

theorem Mirrors.appendAll (mirrors : handle.Mirrors device) (holds : handle.Holds records)
    (isOpen : handle.wal.isOpen = true) {more : List WalRecord} (fit : ∀ record ∈ more, record.Fits) :
    Simulates (handle.appendAll more) (handle.wal.appendAll device more) := by
  induction more generalizing handle device records with
  | nil => exact ⟨rfl, mirrors, rfl⟩
  | cons record rest ih =>
    obtain ⟨added, done, isOpen'⟩ := holds.append isOpen (fit record List.mem_cons_self)
    obtain ⟨wal, mirrors', ok⟩ := mirrors.append holds.atEnd record.seq record.payload
    rw [LogHandle.appendAll, WriteAheadLog.appendAll]
    generalize handle.append record.seq record.payload = outcome at added done isOpen' wal mirrors' ok
    generalize handle.wal.append device record.seq record.payload = outcome' at wal mirrors' ok
    obtain ⟨handle', ok'⟩ := outcome
    obtain ⟨_, device', _⟩ := outcome'
    obtain rfl : ok' = true := done
    obtain rfl := wal
    obtain rfl := ok
    exact ih mirrors' added isOpen' fun later member => fit later (List.mem_cons_of_mem _ member)

/-- **The log on a file is the log on a device**, as long as the position is at the end. -/
theorem Mirrors.truncateThrough (mirrors : handle.Mirrors device)
    (holds : handle.wal.isOpen = true → handle.Holds records) (seq : UInt32) : Simulates (handle.truncateThrough seq) (handle.wal.truncateThrough device seq) := by
  unfold LogHandle.truncateThrough WriteAheadLog.truncateThrough
  by_cases isOpen : handle.wal.isOpen = true
  · rw [if_neg (not_not.mpr isOpen), if_neg (not_not.mpr isOpen)]
    dsimp only
    have kept : ∀ record ∈ handle.wal.records.filter (fun record => record.seq > seq), record.Fits :=
      fun record member =>
        (holds isOpen).fit record ((holds isOpen).mirror ▸ (List.mem_filter.mp member).1)
    generalize handle.wal.records.filter _ = keep at kept
    obtain ⟨emptied, done, isOpen'⟩ := holds_reset isOpen
    obtain ⟨wal, mirrors', ok⟩ := mirrors.reset
    generalize handle.reset = outcome at emptied done isOpen' wal mirrors' ok
    generalize handle.wal.reset device = outcome' at wal mirrors' ok
    obtain ⟨handle', ok'⟩ := outcome
    obtain ⟨_, device', _⟩ := outcome'
    obtain rfl : ok' = true := done
    obtain rfl := wal
    obtain rfl := ok
    dsimp only
    obtain ⟨_, done', _⟩ := emptied.appendAll isOpen' kept
    obtain ⟨wal, mirrors'', ok⟩ := mirrors'.appendAll emptied isOpen' kept
    generalize handle'.appendAll keep = outcome at done' wal mirrors'' ok
    generalize handle'.wal.appendAll device' keep = outcome' at wal mirrors'' ok
    obtain ⟨handle'', ok'⟩ := outcome
    obtain ⟨_, device'', _⟩ := outcome'
    obtain rfl : ok' = true := done'
    obtain rfl := wal
    obtain rfl := ok
    exact mirrors''.sync
  · rw [if_pos isOpen, if_pos isOpen]
    exact ⟨rfl, mirrors, rfl⟩

end LogHandle

end Sententia
