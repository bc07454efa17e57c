/-
**What the write-ahead log recovers, and what its mirror shows.** Any file is the frames of some records and
a tail that reads as nothing; the records are the longest list whose frames the file starts with, whatever
the tail is.

* `recovery_exact` — opening any file yields that list and leaves its frames; cutting a log anywhere loses
  the records that do not lie wholly before the cut.
* `mirror_exact` — whatever is called, the mirror is what opening the file again would yield.
* `logs_alike` — whatever is called, the log behind a descriptor and the one on a device do the same.
-/

import Sententia.Library.Transition
import Sententia.Storage.LogFile

namespace Sententia

open Library

/-! ### The longest list of records -/

/-- The longest list of records whose frames the file starts with. -/
structure LongestFront (file : Buffer) (records : List WalRecord) : Prop where
  fit : ∀ record ∈ records, record.Fits
  front : frames records <+: file
  longest : ∀ other, (∀ record ∈ other, WalRecord.Fits record) → frames other <+: file → other <+: records

theorem frames_cons (record : WalRecord) (rest : List WalRecord) :
    frames (record :: rest) = record.frame ++ frames rest := List.flatMap_cons

/-- Where the reader stops, no other list of records goes on. -/
theorem longestFront_of_stops {file tail : Buffer} {records : List WalRecord}
    (split : file = frames records ++ tail) (fit : ∀ record ∈ records, record.Fits)
    (stops : readRecord tail = none) : LongestFront file records := by
  refine ⟨fit, ⟨tail, split.symm⟩, fun other fit' front => ?_⟩
  subst split
  -- Both lists are read off the front of the file, record by record.
  induction other generalizing records with
  | nil => exact List.nil_prefix
  | cons record rest ih =>
    obtain ⟨more, same⟩ := front
    rw [frames_cons, List.append_assoc] at same
    have read := readRecord_frame (fit' record List.mem_cons_self) (frames rest ++ more)
    cases records with
    | nil =>
      rw [same] at read
      rw [show frames [] ++ tail = tail from rfl, stops] at read
      cases read
    | cons record' rest' =>
      rw [frames_cons, List.append_assoc] at same
      rw [same, readRecord_frame (fit record' List.mem_cons_self)] at read
      obtain ⟨rfl, sameRest⟩ := Prod.mk.inj (Option.some.inj read)
      refine List.cons_prefix_cons.mpr ⟨rfl, ih (fun other member => fit other (List.mem_cons_of_mem _ member))
        (fun other member => fit' other (List.mem_cons_of_mem _ member)) ⟨more, sameRest.symm⟩⟩

/-- **The records wholly before a cut** are the longest list that the cut file starts with. -/
theorem LongestFront.of_cut {log records : List WalRecord} (fit : ∀ record ∈ log, WalRecord.Fits record)
    {cut : Nat} (longest : LongestFront ((frames log).take cut) records) :
    records <+: log ∧ ∀ count ≤ log.length,
      count ≤ records.length ↔ (frames (log.take count)).length ≤ cut := by
  have whole : LongestFront (frames log) log :=
    longestFront_of_stops (List.append_nil _).symm fit readRecord_nil
  have front := whole.longest records longest.fit (longest.front.trans (List.take_prefix _ _))
  refine ⟨front, fun count inside => ⟨fun few => ?_, fun before => ?_⟩⟩
  · have part : log.take count <+: records :=
      List.prefix_of_prefix_length_le (List.take_prefix _ _) front ((List.length_take_le _ _).trans few)
    obtain ⟨rest, rfl⟩ := part
    have fits := longest.front.length_le
    rw [frames_append, List.length_append, List.length_take] at fits
    omega
  · have within : frames (log.take count) <+: (frames log).take cut := by
      rw [List.prefix_take_iff]
      refine ⟨?_, before⟩
      have split := frames_append (log.take count) (log.drop count)
      rw [List.take_append_drop] at split
      exact ⟨_, split.symm⟩
    have part := longest.longest _ (fun record member => fit record (List.mem_of_mem_take member)) within
    have longer := part.length_le
    rwa [List.length_take, Nat.min_eq_left inside] at longer

namespace LogHandle

/-! ### Recovery -/

/-- Opening yields exactly these records, and the file is their frames. -/
structure Recovers (handle : LogHandle) (policy : SyncPolicy) (records : List WalRecord) (torn : Bool) :
    Prop where
  succeeds : (handle.openLog policy).2 = true
  yields : (handle.openLog policy).1.wal.records = records
  contents : (handle.openLog policy).1.file.contents = frames records
  torn : (handle.openLog policy).1.wal.stats.tailWasTorn = torn

theorem Holds.recovers {handle : LogHandle} {records : List WalRecord} (holds : handle.Holds records)
    (policy : SyncPolicy) : handle.Recovers policy records false := by
  obtain ⟨holds', succeeds, _, torn⟩ := holds.reopened policy
  exact ⟨succeeds, holds'.mirror, holds'.contents, torn⟩

/-- **Recovery of any file.** Opening succeeds and yields the longest list of records whose frames the file
starts with, leaves exactly these frames, and finds the tail torn exactly if that dropped bytes. Opening again
yields the same with no torn tail, and so does opening after an append, with its record at the end. Of a log
cut anywhere, the records wholly before the cut are left. -/
theorem recovery_exact (handle : LogHandle) (policy policy' : SyncPolicy) :
    (∃ records, LongestFront handle.file.contents records ∧
        handle.Recovers policy records (decide (handle.file.contents ≠ frames records)) ∧
        (handle.openLog policy).1.Recovers policy' records false ∧
        ∀ seq data, data.length ≤ kMaxRecordSize →
          ((handle.openLog policy).1.append seq data).2 = true ∧
            ((handle.openLog policy).1.append seq data).1.Recovers policy'
              (records ++ [{ seq, payload := data }]) false) ∧
      ∀ log : List WalRecord, (∀ record ∈ log, record.Fits) → ∀ cut,
        handle.file.contents = (frames log).take cut → ∃ records, records <+: log ∧
          (∀ count ≤ log.length, count ≤ records.length ↔ (frames (log.take count)).length ≤ cut) ∧
            (handle.openLog policy).1.wal.records = records := by
  obtain ⟨records, tail, split, stops, holds, succeeds, isOpen, stats⟩ := handle.exists_openLog policy
  have longest := longestFront_of_stops split holds.fit stops
  refine ⟨⟨records, longest, ⟨succeeds, holds.mirror, holds.contents, ?_⟩, holds.recovers policy', ?_⟩, ?_⟩
  · rw [stats, split]
    simp [WriteAheadLog.openStats]
  · intro seq data fits
    obtain ⟨added, appended, _⟩ := @Holds.append _ _ holds isOpen { seq, payload := data } fits
    exact ⟨appended, added.recovers policy'⟩
  · intro log fit cut file
    obtain ⟨front, before⟩ := LongestFront.of_cut fit (file ▸ longest)
    exact ⟨records, front, before, holds.mirror⟩

/-! ### The mirror -/

/-- A call on a log. -/
inductive Call
  | openLog (policy : SyncPolicy)
  | append (seq : UInt32) (data : Buffer)
  | truncateThrough (seq : UInt32)
  | reset
  | sync
  | close
deriving Repr, DecidableEq

def step (handle : LogHandle) : Call → Option LogHandle
  | .openLog policy => some (handle.openLog policy).1
  | .append seq data => some (handle.append seq data).1
  | .truncateThrough seq => some (handle.truncateThrough seq).1
  | .reset => some handle.reset.1
  | .sync => some handle.sync.1
  | .close => some handle.close

/-- The mirror shows what opening the file again would yield, under any policy, and knows how long the file
is. While the log is open, an append within the limit is replayed as it was written, and cutting the front
off leaves the records behind the cut. -/
structure MirrorExact (handle : LogHandle) : Prop where
  replayed : ∀ policy, (handle.openLog policy).1.wal.records = handle.wal.records
  size : handle.wal.bytesOnDisk = handle.file.contents.length
  appended : handle.wal.isOpen = true → ∀ seq data, data.length ≤ kMaxRecordSize →
    (handle.append seq data).2 = true ∧ ∀ policy, ((handle.append seq data).1.openLog policy).1.wal.records =
      handle.wal.records ++ [{ seq, payload := data }]
  truncated : handle.wal.isOpen = true → ∀ seq, (handle.truncateThrough seq).2 = true ∧
    (handle.truncateThrough seq).1.wal.records = handle.wal.records.filter fun record => record.seq > seq

theorem Holds.mirrorExact {handle : LogHandle} {records : List WalRecord} (holds : handle.Holds records) :
    handle.MirrorExact where
  replayed policy := (holds.reopened policy).1.mirror.trans holds.mirror.symm
  size := by rw [holds.size, holds.contents]
  appended isOpen seq data fits := by
    obtain ⟨added, done, _⟩ := @Holds.append _ _ holds isOpen { seq, payload := data } fits
    refine ⟨done, fun policy => ?_⟩
    rw [(added.reopened policy).1.mirror, holds.mirror]
  truncated isOpen seq := by
    obtain ⟨kept, done, _⟩ := holds.truncateThrough isOpen seq
    refine ⟨done, ?_⟩
    rw [kept.mirror, holds.mirror]

/-- A call on a closed log does nothing, and so does one that is refused. -/
theorem append_refused (handle : LogHandle) (seq : UInt32) {data : Buffer}
    (large : kMaxRecordSize < data.length) : handle.append seq data = (handle, false) := by
  unfold append
  simp only [gt_iff_lt, if_pos large, ite_self]

theorem append_closed {handle : LogHandle} (closed : ¬ handle.wal.isOpen = true) (seq : UInt32)
    (data : Buffer) : handle.append seq data = (handle, false) := if_pos closed

/-- **Every call keeps the mirror.** -/
theorem Holds.step {handle next : LogHandle} {records : List WalRecord} (holds : handle.Holds records)
    {call : Call} (moved : handle.step call = some next) : ∃ records', next.Holds records' := by
  cases call with
  | openLog policy =>
    obtain rfl := Option.some.inj moved
    exact ⟨records, (holds.reopened policy).1⟩
  | append seq data =>
    obtain rfl := Option.some.inj moved
    by_cases isOpen : handle.wal.isOpen = true
    · by_cases large : kMaxRecordSize < data.length
      · rw [append_refused _ _ large]
        exact ⟨records, holds⟩
      · exact ⟨_, (@Holds.append _ _ holds isOpen { seq, payload := data } (Nat.le_of_not_lt large)).1⟩
    · rw [append_closed isOpen]
      exact ⟨records, holds⟩
  | truncateThrough seq =>
    obtain rfl := Option.some.inj moved
    by_cases isOpen : handle.wal.isOpen = true
    · exact ⟨_, (holds.truncateThrough isOpen seq).1⟩
    · unfold LogHandle.truncateThrough
      rw [if_pos isOpen]
      exact ⟨records, holds⟩
  | reset =>
    obtain rfl := Option.some.inj moved
    by_cases isOpen : handle.wal.isOpen = true
    · exact ⟨[], (holds_reset isOpen).1⟩
    · unfold LogHandle.reset
      rw [if_pos isOpen]
      exact ⟨records, holds⟩
  | sync =>
    obtain rfl := Option.some.inj moved
    exact ⟨records, holds.sync.1⟩
  | close =>
    obtain rfl := Option.some.inj moved
    exact ⟨records, holds.close⟩

/-- A log that is opened on any file. -/
def start (contents : Buffer) (policy : SyncPolicy) (batchSize : Nat) : LogHandle :=
  (openLog { wal := { batchSize }, file := { contents } } policy).1

/-- **The mirror is exact** at every moment of every sequence of calls on a log opened on any file, under
every policy. -/
theorem mirror_exact (contents : Buffer) (policy : SyncPolicy) (batchSize : Nat) (calls : List Call) :
    Always step MirrorExact (start contents policy batchSize) calls := by
  refine always_of_guarded (fun handle => ∃ records, handle.Holds records)
    (fun {_ _ _} ⟨_, holds⟩ _ moved => holds.step moved) (fun ⟨_, holds⟩ => holds.mirrorExact) ?_
    (guarded_true _ calls)
  obtain ⟨records, _, _, _, holds, _⟩ :=
    exists_openLog { wal := { batchSize }, file := { contents } } policy
  exact ⟨records, holds⟩

/-! ### The log on a device -/

/-- A call and its answer; `close` gives none. -/
def answer (handle : LogHandle) : Call → LogHandle × Bool
  | .openLog policy => handle.openLog policy
  | .append seq data => handle.append seq data
  | .truncateThrough seq => handle.truncateThrough seq
  | .reset => handle.reset
  | .sync => handle.sync
  | .close => (handle.close, true)

theorem step_eq_answer (handle : LogHandle) (call : Call) : handle.step call = some (handle.answer call).1 := by
  cases call with
  | openLog | append | truncateThrough | reset | sync | close => rfl

end LogHandle

/-- The same call on a device. -/
def WriteAheadLog.answer (wal : WriteAheadLog) (device : Device) :
    LogHandle.Call → WriteAheadLog × Device × Bool
  | .openLog policy => wal.openLog device policy
  | .append seq data => wal.append device seq data
  | .truncateThrough seq => wal.truncateThrough device seq
  | .reset => wal.reset device
  | .sync => wal.sync device
  | .close => (wal.close, device, true)

/-- One log behind a descriptor and one on a device, with the same calls made on both. -/
structure LogPair where
  handle : LogHandle
  wal : WriteAheadLog
  device : Device

namespace LogPair

def step (pair : LogPair) (call : LogHandle.Call) : Option LogPair :=
  (pair.handle.step call).map fun handle =>
    let (wal, device, _) := pair.wal.answer pair.device call
    { handle, wal, device }

/-- Two logs on whatever the disk holds, before they are opened. -/
def start (disk : Disk) (batchSize : Nat) : LogPair where
  handle := { wal := { batchSize }, file := { contents := (disk .log).getD [] } }
  wal := { batchSize }
  device := { disk }

/-- The logs have the same mirror and counters, their files hold the same bytes, and they give the same answer
to every call. -/
structure Alike (pair : LogPair) : Prop where
  wal : pair.wal = pair.handle.wal
  file : (pair.device.disk .log).getD [] = pair.handle.file.contents
  answers : ∀ call, (pair.wal.answer pair.device call).2.2 = (pair.handle.answer call).2

/-- The position of a log that is open is the end of its file. -/
structure Sound (pair : LogPair) : Prop where
  wal : pair.wal = pair.handle.wal
  mirrors : pair.handle.Mirrors pair.device
  holds : pair.handle.wal.isOpen = true → ∃ records, pair.handle.Holds records

/-- **Every call** has the same outcome. -/
theorem Sound.simulates {pair : LogPair} (sound : pair.Sound) (call : LogHandle.Call) :
    LogHandle.Simulates (pair.handle.answer call) (pair.wal.answer pair.device call) := by
  rw [sound.wal]
  cases call with
  | openLog policy => exact sound.mirrors.openLog policy
  | append seq data =>
    refine sound.mirrors.append (fun isOpen => ?_) seq data
    obtain ⟨records, holds⟩ := sound.holds isOpen
    exact holds.atEnd isOpen
  | truncateThrough seq =>
    by_cases isOpen : pair.handle.wal.isOpen = true
    · obtain ⟨records, holds⟩ := sound.holds isOpen
      exact sound.mirrors.truncateThrough (fun _ => holds) seq
    · exact @LogHandle.Mirrors.truncateThrough _ [] _ sound.mirrors (fun same => absurd same isOpen) seq
  | reset => exact sound.mirrors.reset
  | sync => exact sound.mirrors.sync
  | close => exact ⟨rfl, ⟨sound.mirrors.obliging, sound.mirrors.file⟩, rfl⟩

/-- A log that is closed stays so until it is opened. -/
theorem holds_of_step {handle next : LogHandle}
    (holds : handle.wal.isOpen = true → ∃ records, handle.Holds records) {call : LogHandle.Call}
    (moved : handle.step call = some next) : next.wal.isOpen = true → ∃ records, next.Holds records := by
  intro isOpen'
  by_cases isOpen : handle.wal.isOpen = true
  · obtain ⟨records, holds⟩ := holds isOpen
    exact holds.step moved
  · cases call with
    | openLog policy =>
      obtain rfl := Option.some.inj moved
      obtain ⟨records, _, _, _, holds, _⟩ := handle.exists_openLog policy
      exact ⟨records, holds⟩
    | append seq data =>
      obtain rfl := Option.some.inj moved
      rw [LogHandle.append_closed isOpen] at isOpen'
      exact absurd isOpen' isOpen
    | truncateThrough seq =>
      obtain rfl := Option.some.inj moved
      unfold LogHandle.truncateThrough at isOpen'
      rw [if_pos isOpen] at isOpen'
      exact absurd isOpen' isOpen
    | reset =>
      obtain rfl := Option.some.inj moved
      unfold LogHandle.reset at isOpen'
      rw [if_pos isOpen] at isOpen'
      exact absurd isOpen' isOpen
    | sync =>
      obtain rfl := Option.some.inj moved
      unfold LogHandle.sync at isOpen'
      rw [if_pos isOpen] at isOpen'
      exact absurd isOpen' isOpen
    | close =>
      obtain rfl := Option.some.inj moved
      cases isOpen'

theorem Sound.step {pair next : LogPair} (sound : pair.Sound) {call : LogHandle.Call}
    (moved : pair.step call = some next) : next.Sound := by
  obtain ⟨handle, called, rfl⟩ := Option.map_eq_some_iff.mp moved
  obtain ⟨wal, mirrors, _⟩ := sound.simulates call
  rw [LogHandle.step_eq_answer] at called
  obtain rfl := Option.some.inj called
  exact ⟨wal, mirrors, holds_of_step sound.holds (LogHandle.step_eq_answer _ _)⟩

theorem Sound.alike {pair : LogPair} (sound : pair.Sound) : pair.Alike where
  wal := sound.wal
  file := sound.mirrors.file
  answers call := (sound.simulates call).ok

theorem sound_start (disk : Disk) (batchSize : Nat) : (start disk batchSize).Sound where
  wal := rfl
  mirrors := ⟨fun _ => rfl, rfl⟩
  holds := nofun

end LogPair

/-- **Every write goes to the end of the file.** Whatever is called on two logs over the same file, the one
whose writes go where its descriptor stands and the one whose writes are appended do the same. -/
theorem logs_alike (disk : Disk) (batchSize : Nat) (calls : List LogHandle.Call) :
    Always LogPair.step LogPair.Alike (LogPair.start disk batchSize) calls :=
  always_of_guarded LogPair.Sound (fun sound _ moved => sound.step moved) (fun sound => sound.alike)
    (LogPair.sound_start disk batchSize) (guarded_true _ calls)

end Sententia
