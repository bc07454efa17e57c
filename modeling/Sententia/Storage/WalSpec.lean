/-
**What the log replays.** Every accepted record reads back from its frame, a frame cut anywhere reads as
nothing, and whatever the file, opening the log keeps exactly the frames it starts with (`openLog_eq`).
-/

import Sententia.Storage.Wal

namespace Sententia

open Library

/-! ### One record -/

/-- A record that `append` accepts. -/
def WalRecord.Fits (record : WalRecord) : Prop := record.payload.length ≤ kMaxRecordSize

instance (record : WalRecord) : Decidable record.Fits := inferInstanceAs (Decidable (_ ≤ _))

@[simp] theorem length_putU32 (value : UInt32) : (putU32 value).length = 4 := length_littleEndian 4 _

theorem getU32_putU32 (value : UInt32) (rest : Buffer) : getU32 (putU32 value ++ rest) = value := by
  have fits : value.toNat < 256 ^ 4 := Nat.lt_of_lt_of_eq value.toNat_lt (by decide)
  unfold getU32
  rw [List.take_left' (length_putU32 value)]
  unfold putU32 WireWriter.u32
  rw [ofLittleEndian_littleEndian fits, UInt32.ofNat_toNat]

/-- Four bytes are the encoding of what they read as. -/
theorem putU32_getU32 {bytes : Buffer} (enough : 4 ≤ bytes.length) :
    putU32 (getU32 bytes) = bytes.take 4 := by
  have length : (bytes.take 4).length = 4 := by
    rw [List.length_take]
    omega
  have bound := ofLittleEndian_lt (bytes.take 4)
  rw [length] at bound
  unfold getU32 putU32 WireWriter.u32
  rw [UInt32.toNat_ofNat', Nat.mod_eq_of_lt (Nat.lt_of_lt_of_eq bound (by decide))]
  have back := littleEndian_ofLittleEndian (bytes.take 4)
  rwa [length] at back

theorem length_frame (record : WalRecord) :
    record.frame.length = kWalHeaderSize + record.payload.length := by
  simp [WalRecord.frame, kWalHeaderSize]
  omega

theorem frame_ne_nil (record : WalRecord) : record.frame ≠ [] := by
  rw [← List.length_pos_iff, length_frame]
  exact Nat.lt_of_lt_of_le (by decide) (Nat.le_add_right _ _)

/-- Reading back the four fields of a header. -/
theorem header_fields (magic seq length crc : UInt32) (rest : Buffer) :
    let input := putU32 magic ++ (putU32 seq ++ (putU32 length ++ (putU32 crc ++ rest)))
    getU32 input = magic ∧ getU32 (input.drop 4) = seq ∧ getU32 (input.drop 8) = length ∧
      getU32 (input.drop 12) = crc ∧ input.drop kWalHeaderSize = rest := by
  unfold kWalHeaderSize
  refine ⟨getU32_putU32 _ _, ?_, ?_, ?_, ?_⟩
  · rw [List.drop_left' (length_putU32 _)]
    exact getU32_putU32 _ _
  · rw [show 8 = 4 + 4 from rfl, ← List.drop_drop, List.drop_left' (length_putU32 _),
      List.drop_left' (length_putU32 _)]
    exact getU32_putU32 _ _
  · rw [show 12 = 4 + (4 + 4) from rfl, ← List.drop_drop, ← List.drop_drop,
      List.drop_left' (length_putU32 _), List.drop_left' (length_putU32 _),
      List.drop_left' (length_putU32 _)]
    exact getU32_putU32 _ _
  · rw [show 16 = 4 + (4 + (4 + 4)) from rfl, ← List.drop_drop, ← List.drop_drop, ← List.drop_drop,
      List.drop_left' (length_putU32 _), List.drop_left' (length_putU32 _),
      List.drop_left' (length_putU32 _), List.drop_left' (length_putU32 _)]

/-- The header of whatever begins with a frame. -/
theorem header_frame (record : WalRecord) (rest : Buffer) :
    getU32 (record.frame ++ rest) = kWalMagic ∧
      getU32 ((record.frame ++ rest).drop 4) = record.seq ∧
        getU32 ((record.frame ++ rest).drop 8) = UInt32.ofNat record.payload.length ∧
          getU32 ((record.frame ++ rest).drop 12) = crc32 record.payload ∧
            (record.frame ++ rest).drop kWalHeaderSize = record.payload ++ rest := by
  have fields := header_fields kWalMagic record.seq (UInt32.ofNat record.payload.length)
    (crc32 record.payload) (record.payload ++ rest)
  unfold WalRecord.frame
  simpa only [List.append_assoc] using fields

theorem WalRecord.Fits.length_le {record : WalRecord} (fits : record.Fits) :
    record.payload.length ≤ kMaxRecordSize := fits

theorem WalRecord.Fits.toNat_length {record : WalRecord} (fits : record.Fits) :
    (UInt32.ofNat record.payload.length).toNat = record.payload.length := by
  rw [UInt32.toNat_ofNat', Nat.mod_eq_of_lt]
  exact Nat.lt_of_le_of_lt fits (by decide)

/-- **A frame reads back as its record.** -/
theorem readRecord_frame {record : WalRecord} (fits : record.Fits) (rest : Buffer) :
    readRecord (record.frame ++ rest) = some (record, rest) := by
  obtain ⟨magic, seq, length, crc, payload⟩ := header_frame record rest
  have whole : (record.frame ++ rest).length = kWalHeaderSize + record.payload.length + rest.length := by
    rw [List.length_append, length_frame]
  unfold readRecord
  simp only [magic, seq, length, crc, payload, fits.toNat_length, whole]
  rw [if_neg (by omega), if_neg (by simpa using fits.length_le), if_neg (by omega), List.take_left,
    if_neg (by simp), ← length_frame, List.drop_left]

theorem getU32_take {bytes : Buffer} {amount : Nat} (enough : 4 ≤ amount) :
    getU32 (bytes.take amount) = getU32 bytes := by
  unfold getU32
  rw [List.take_take, Nat.min_eq_left enough]

/-- **A frame cut short reads as nothing.** -/
theorem readRecord_take {record : WalRecord} (fits : record.Fits) {amount : Nat}
    (short : amount < record.frame.length) : readRecord (record.frame.take amount) = none := by
  have length : (record.frame.take amount).length = amount := by
    rw [List.length_take]
    omega
  rw [length_frame] at short
  unfold readRecord
  rw [length]
  by_cases header : amount < kWalHeaderSize
  · rw [if_pos header]
  · -- The length field is complete and asks for more than there is.
    have stored : getU32 ((record.frame.take amount).drop 8) = UInt32.ofNat record.payload.length := by
      unfold kWalHeaderSize at header
      rw [List.drop_take, getU32_take (by omega), ← List.append_nil record.frame]
      exact (header_frame record []).2.2.1
    simp only [if_neg header, stored, fits.toNat_length, if_pos short, ite_self]

/-- Whatever reads as a record begins with its frame. -/
theorem readRecord_sound (input : Buffer) (record : WalRecord) (rest : Buffer)
    (read : readRecord input = some (record, rest)) : input = record.frame ++ rest ∧ record.Fits := by
  unfold readRecord at read
  dsimp only at read
  split_ifs at read with short broken payloadShort mismatch
  rw [not_or, not_not] at broken
  rw [not_not] at mismatch
  simp only [Option.some.injEq, Prod.mk.injEq] at read
  obtain ⟨rfl, rfl⟩ := read
  unfold kWalHeaderSize at short payloadShort mismatch ⊢
  generalize stored : getU32 (input.drop 8) = length at *
  have payloadLength : ((input.drop 16).take length.toNat).length = length.toNat := by
    rw [List.length_take, List.length_drop]
    omega
  have fields : ∀ offset, offset + 4 ≤ input.length →
      putU32 (getU32 (input.drop offset)) = (input.drop offset).take 4 := by
    intro offset inside
    refine putU32_getU32 ?_
    rw [List.length_drop]
    omega
  have next : ∀ offset, (input.drop offset).take 4 ++ input.drop (offset + 4) = input.drop offset := by
    intro offset
    rw [← List.drop_drop, List.take_append_drop]
  refine ⟨?_, ?_⟩
  · have magic : putU32 kWalMagic = (input.drop 0).take 4 := by
      rw [← fields 0 (by omega), List.drop_zero, broken.1]
    have lengthField : putU32 length = (input.drop 8).take 4 := by
      rw [← stored]
      exact fields 8 (by omega)
    unfold WalRecord.frame
    simp only [payloadLength, UInt32.ofNat_toNat, mismatch]
    rw [magic, fields 4 (by omega), lengthField, fields 12 (by omega)]
    simp only [List.append_assoc]
    rw [← List.drop_drop, List.take_append_drop, next 12, next 8, next 4, next 0, List.drop_zero]
  · unfold WalRecord.Fits
    simp only [payloadLength]
    omega

theorem readRecord_nil : readRecord [] = none := rfl

/-! ### The file -/

/-- The records written one after the other. -/
def frames (records : List WalRecord) : Buffer := records.flatMap WalRecord.frame

theorem frames_append (first second : List WalRecord) :
    frames (first ++ second) = frames first ++ frames second :=
  List.flatMap_append

@[simp] theorem frames_singleton (record : WalRecord) : frames [record] = record.frame := by
  simp [frames]

theorem length_le_frames (records : List WalRecord) : records.length ≤ (frames records).length := by
  induction records with
  | nil => exact Nat.le_refl _
  | cons record rest ih =>
    have positive := List.length_pos_iff.mpr (frame_ne_nil record)
    show rest.length + 1 ≤ (record.frame ++ frames rest).length
    rw [List.length_append]
    omega

/-- **A file of frames is replayed**, up to a tail that reads as nothing. -/
theorem scan_frames {records : List WalRecord} (fit : ∀ record ∈ records, record.Fits) {tail : Buffer}
    (stops : readRecord tail = none) {fuel : Nat} (enough : (frames records ++ tail).length ≤ fuel) :
    scan readRecord fuel (frames records ++ tail) = (records, tail) := by
  refine scan_flatMap (fun record member rest => readRecord_frame (fit record member) rest) stops ?_
  have bound := length_le_frames records
  rw [List.length_append] at enough
  omega

/-- Any file is frames and a tail that reads as nothing. -/
theorem scan_file (file : Buffer) :
    ∃ records tail, file = frames records ++ tail ∧ (∀ record ∈ records, record.Fits) ∧
      readRecord tail = none ∧ scan readRecord file.length file = (records, tail) := by
  obtain ⟨split, fit, stops⟩ := scan_sound readRecord_sound frame_ne_nil file.length file
  exact ⟨_, _, split, fit, stops (Nat.le_refl _), rfl⟩

/-! ### Opening -/

/-- A device on which every call completes. -/
def Device.Obliging (device : Device) : Prop := ∀ call, device.answers call = none

namespace Device

theorem call_completes {device : Device} {op : DiskOp}
    (answer : ∀ amount ∈ device.answers device.calls, op.size ≤ amount) :
    device.call op = (device.after op, true) := by
  unfold call
  cases answered : device.answers device.calls with
  | none => rfl
  | some amount =>
    have enough := answer amount answered
    simp only [if_neg (Nat.not_lt.mpr enough)]

theorem call_fails {device : Device} {op : DiskOp} {amount : Nat}
    (answer : device.answers device.calls = some amount) (short : amount < op.size) :
    device.call op =
      ({ device with
          disk := op.performUpTo device.disk amount
          calls := device.calls + 1 }, false) := by
  unfold call
  rw [answer]
  simp only [if_pos short]

theorem call_obliging {device : Device} (obliging : device.Obliging) (op : DiskOp) :
    device.call op = (device.after op, true) := by
  refine call_completes fun amount answered => ?_
  rw [obliging] at answered
  cases answered

theorem flush_of_none {device : Device} (answer : device.answers device.calls = none) :
    device.flush = ({ device with calls := device.calls + 1 }, true) := by
  unfold flush
  rw [answer]
  rfl

end Device

namespace WriteAheadLog

/-- What the log remembers of the tail it cut off. -/
def openStats (records : List WalRecord) (tail : Buffer) : WalStats where
  recordsReplayed := records.length
  tailWasTorn := tail ≠ []
  truncatedTailBytes := tail.length

/-- **Opening the log** keeps the frames the file starts with and cuts off the rest. -/
theorem openLog_eq (wal : WriteAheadLog) {device : Device} (obliging : device.Obliging)
    (policy : SyncPolicy) {records : List WalRecord} {tail : Buffer}
    (file : (device.disk .log).getD [] = frames records ++ tail)
    (fit : ∀ record ∈ records, record.Fits) (stops : readRecord tail = none) :
    ∃ device', wal.openLog device policy =
        ({ isOpen := true
           policy
           batchSize := wal.batchSize
           bytesOnDisk := (frames records).length
           records
           stats := openStats records tail }, device', true) ∧
      device'.answers = device.answers ∧
        device'.disk = Function.update device.disk .log (some (frames records)) := by
  have found := scan_frames fit stops (Nat.le_refl _)
  unfold openLog replay
  rw [device.call_obliging obliging]
  simp only [Device.after, DiskOp.perform, Function.update_self, Option.getD_some, file, found, List.nil_append,
    Nat.zero_add]
  have offset : (frames records ++ tail).length - tail.length = (frames records).length := by
    rw [List.length_append, Nat.add_sub_cancel]
  rw [offset]
  by_cases whole : tail = []
  · subst whole
    simp only [List.append_nil, Nat.lt_irrefl, if_false, openStats]
    exact ⟨_, rfl, rfl, rfl⟩
  · have shorter : (frames records).length < (frames records ++ tail).length := by
      have positive := List.length_pos_iff.mpr whole
      rw [List.length_append]
      omega
    have cut : (frames records ++ tail).length - (frames records).length = tail.length := by
      rw [List.length_append, Nat.add_sub_cancel_left]
    have torn : openStats records tail =
        { recordsReplayed := records.length, truncatedTailBytes := tail.length, tailWasTorn := true } := by
      simp [openStats, whole]
    rw [if_pos shorter, Device.call_obliging (by exact obliging), cut, torn]
    refine ⟨_, rfl, rfl, ?_⟩
    simp [Device.after, DiskOp.perform]

/-! ### Appending -/

theorem append_refused (wal : WriteAheadLog) (device : Device) (seq : UInt32) {data : Buffer}
    (large : kMaxRecordSize < data.length) : wal.append device seq data = (wal, device, false) := by
  unfold append
  simp only [gt_iff_lt, if_pos large, ite_self]

/-- The write fails in the middle of the frame. -/
theorem append_torn {wal : WriteAheadLog} (isOpen : wal.isOpen = true) {device : Device} {seq : UInt32}
    {data : Buffer} (fits : WalRecord.Fits { seq, payload := data }) {amount : Nat}
    (answer : device.answers device.calls = some amount)
    (short : amount < (WalRecord.frame { seq, payload := data }).length) :
    wal.append device seq data =
      (wal, { device with
        disk := DiskOp.perform device.disk
          (.write .log ((WalRecord.frame { seq, payload := data }).take amount))
        calls := device.calls + 1 }, false) := by
  have failed : device.call (.write .log (WalRecord.frame { seq, payload := data })) = _ :=
    Device.call_fails answer short
  unfold append
  simp only [isOpen, not_true_eq_false, if_false, if_neg (Nat.not_lt.mpr fits), failed]
  rfl

/-- The frame is written; it may have to be flushed. -/
theorem append_written {wal : WriteAheadLog} (isOpen : wal.isOpen = true) {device : Device}
    {seq : UInt32} {data : Buffer} (fits : WalRecord.Fits { seq, payload := data })
    (answer : ∀ amount ∈ device.answers device.calls,
      (WalRecord.frame { seq, payload := data }).length ≤ amount) :
    wal.append device seq data =
      if (wal.mirror { seq, payload := data }).syncDue then
        (wal.mirror { seq, payload := data }).sync
          (device.after (.write .log (WalRecord.frame { seq, payload := data })))
      else (wal.mirror { seq, payload := data },
        device.after (.write .log (WalRecord.frame { seq, payload := data })), true) := by
  have done : device.call (.write .log (WalRecord.frame { seq, payload := data })) = _ :=
    Device.call_completes answer
  unfold append
  simp only [isOpen, not_true_eq_false, if_false, if_neg (Nat.not_lt.mpr fits), done]

/-- A flush that succeeds changes no record, no file and nothing in the record of calls. -/
theorem sync_succeeds (wal : WriteAheadLog) {device : Device}
    (answer : wal.policy = .never ∨ device.answers device.calls = none) :
    ∃ sinceSync stats calls, wal.sync device =
      ({ wal with sinceSync, stats }, { device with calls }, true) := by
  unfold sync
  by_cases isOpen : wal.isOpen = true
  · by_cases lazy : wal.policy = .never
    · rw [if_neg (not_not.mpr isOpen), if_pos lazy]
      exact ⟨_, _, device.calls, rfl⟩
    · rw [if_neg (not_not.mpr isOpen), if_neg lazy,
        Device.flush_of_none (answer.resolve_left lazy)]
      exact ⟨_, _, _, rfl⟩
  · rw [if_pos isOpen]
    exact ⟨wal.sinceSync, wal.stats, device.calls, rfl⟩

/-- **An append that succeeds** adds its record to the mirror and its frame to the file. -/
theorem append_succeeds {wal : WriteAheadLog} (isOpen : wal.isOpen = true) {device : Device}
    {seq : UInt32} {data : Buffer} (fits : WalRecord.Fits { seq, payload := data })
    (answer : ∀ amount ∈ device.answers device.calls,
      (WalRecord.frame { seq, payload := data }).length ≤ amount)
    (flushes : ¬ (wal.mirror { seq, payload := data }).syncDue ∨
      device.answers (device.calls + 1) = none) :
    ∃ sinceSync stats calls, wal.append device seq data =
      ({ wal.mirror { seq, payload := data } with sinceSync, stats },
        { device.after (.write .log (WalRecord.frame { seq, payload := data })) with calls }, true) := by
  rw [append_written isOpen fits answer]
  split_ifs with due
  · exact sync_succeeds _ (Or.inr (flushes.resolve_left (not_not.mpr due)))
  · exact ⟨_, _, _, rfl⟩

end WriteAheadLog

/-! ### The calls behind an operation -/

/-- The device after the calls `ops`, all of which completed. -/
structure Device.Runs (device : Device) (ops : List DiskOp) (device' : Device) : Prop where
  disk : device'.disk = device.disk.performAll ops
  answers : device'.answers = device.answers
  done : device'.done = device.done ++ ops

namespace Device

variable {device device' device'' : Device} {ops ops' : List DiskOp}

theorem runs_nil (device : Device) (calls : Nat) : device.Runs [] { device with calls } :=
  ⟨rfl, rfl, (List.append_nil _).symm⟩

theorem runs_after (device : Device) (op : DiskOp) (calls : Nat) :
    device.Runs [op] { device.after op with calls } := ⟨rfl, rfl, rfl⟩

theorem Runs.trans (runs : device.Runs ops device') (runs' : device'.Runs ops' device'') :
    device.Runs (ops ++ ops') device'' where
  disk := by
    rw [runs'.disk, runs.disk]
    exact (List.foldl_append ..).symm
  answers := runs'.answers.trans runs.answers
  done := by rw [runs'.done, runs.done, List.append_assoc]

theorem Runs.obliging (runs : device.Runs ops device') (obliging : device.Obliging) :
    device'.Obliging := by
  intro call
  rw [runs.answers, obliging]

end Device

namespace WriteAheadLog

variable {wal : WriteAheadLog} {device : Device}

theorem append_runs (isOpen : wal.isOpen = true) (obliging : device.Obliging) {record : WalRecord}
    (fits : record.Fits) :
    ∃ wal' device', wal.append device record.seq record.payload = (wal', device', true) ∧
      wal'.isOpen = true ∧ wal'.records = wal.records ++ [record] ∧
        device.Runs [.write .log record.frame] device' := by
  have answer : ∀ amount ∈ device.answers device.calls, record.frame.length ≤ amount := by
    intro amount answered
    rw [obliging] at answered
    cases answered
  obtain ⟨sinceSync, stats, calls, appended⟩ :=
    append_succeeds isOpen fits answer (Or.inr (obliging _))
  exact ⟨_, _, appended, isOpen, rfl, device.runs_after _ calls⟩

theorem appendAll_runs (isOpen : wal.isOpen = true) (obliging : device.Obliging)
    {records : List WalRecord} (fit : ∀ record ∈ records, record.Fits) :
    ∃ wal' device', wal.appendAll device records = (wal', device', true) ∧ wal'.isOpen = true ∧
      wal'.records = wal.records ++ records ∧
        device.Runs (records.map fun record => .write .log record.frame) device' := by
  induction records generalizing wal device with
  | nil => exact ⟨wal, device, rfl, isOpen, (List.append_nil _).symm, device.runs_nil device.calls⟩
  | cons record rest ih =>
    obtain ⟨wal', device', appended, isOpen', added, runs⟩ :=
      append_runs isOpen obliging (fit record List.mem_cons_self)
    obtain ⟨wal'', device'', others, isOpen'', added', runs'⟩ :=
      ih isOpen' (runs.obliging obliging) fun later member => fit later (List.mem_cons_of_mem _ member)
    refine ⟨wal'', device'', ?_, isOpen'', ?_, runs.trans runs'⟩
    · rw [appendAll, appended]
      exact others
    · rw [added', added, List.append_assoc]
      rfl

theorem sync_runs (wal : WriteAheadLog) (obliging : device.Obliging) :
    ∃ wal' device', wal.sync device = (wal', device', true) ∧ wal'.isOpen = wal.isOpen ∧
      wal'.records = wal.records ∧ device.Runs [] device' := by
  obtain ⟨sinceSync, stats, calls, synced⟩ := wal.sync_succeeds (Or.inr (obliging device.calls))
  exact ⟨_, _, synced, rfl, rfl, device.runs_nil calls⟩

theorem reset_runs (isOpen : wal.isOpen = true) (obliging : device.Obliging) :
    ∃ wal' device', wal.reset device = (wal', device', true) ∧ wal'.isOpen = true ∧
      wal'.records = [] ∧ device.Runs [.truncate .log 0] device' := by
  have runs := device.runs_after (.truncate .log 0) (device.calls + 1)
  obtain ⟨emptied, device', synced, same, nothing, runs'⟩ :=
    sync_runs { wal with records := [], bytesOnDisk := 0, sinceSync := 0 } (runs.obliging obliging)
  refine ⟨emptied, device', ?_, same.trans isOpen, nothing, runs.trans runs'⟩
  unfold reset
  rw [if_neg (not_not.mpr isOpen), Device.call_obliging obliging]
  exact synced

/-- **`truncateThrough`**: the file is emptied, then the records that are kept are written one by one. -/
theorem truncateThrough_runs (isOpen : wal.isOpen = true) (obliging : device.Obliging)
    (fit : ∀ record ∈ wal.records, record.Fits) (seq : UInt32) :
    ∃ wal' device', wal.truncateThrough device seq = (wal', device', true) ∧ wal'.isOpen = true ∧
      wal'.records = wal.records.filter (fun record => record.seq > seq) ∧
        device.Runs (.truncate .log 0 :: (wal.records.filter fun record => record.seq > seq).map
          fun record => .write .log record.frame) device' := by
  obtain ⟨emptied, device', resetDone, isOpen', nothing, runs⟩ := reset_runs isOpen obliging
  have kept : ∀ record ∈ wal.records.filter (fun record => record.seq > seq), record.Fits :=
    fun record member => fit record (List.mem_filter.mp member).1
  obtain ⟨rebuilt, device'', appended, isOpen'', added, runs'⟩ :=
    appendAll_runs isOpen' (runs.obliging obliging) kept
  obtain ⟨flushed, last, synced, same, unchanged, runs''⟩ :=
    sync_runs rebuilt ((runs.trans runs').obliging obliging)
  refine ⟨flushed, last, ?_, same.trans isOpen'', ?_, ?_⟩
  · unfold truncateThrough
    rw [if_neg (not_not.mpr isOpen)]
    simp only [resetDone, appended, synced]
  · rw [unchanged, added, nothing, List.nil_append]
  · have all := (runs.trans runs').trans runs''
    rwa [List.append_nil] at all

end WriteAheadLog

end Sententia
