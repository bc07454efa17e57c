/-
**Truncating the log at a snapshot.** `appendEntry` writes the low 32 bits of a sequence number into the
record's header, and `takeSnapshot` truncates through the low 32 bits of its point, so that records are
compared by their places inside a block of `2 ^ 32` numbers.

* `WriteAheadLog.OnFile` — the log is open, and its file is its records; what any call that succeeds keeps.
* `low_lt_iff` — when the low halves of a stretch compare as the numbers do.
* `DurableState.Exact` — the log holds the given entries, and `recover` replays all of them.
* `truncation_exact_iff` — `takeSnapshot` is exact if and only if the snapshot point and the entries around it
  share a block.
-/

import Sententia.Storage.InstallSnapshot

namespace Sententia

open Library

/-! ### Calls that succeed -/

namespace Device

theorem call_cases (device : Device) (op : DiskOp) :
    device.call op = (device.after op, true) ∨ ∃ device', device.call op = (device', false) := by
  by_cases completes : device.Completes 0 op
  · exact Or.inl (device.call_completes completes)
  · obtain ⟨amount, failed⟩ := call_of_not_completes completes
    exact Or.inr ⟨_, failed⟩

end Device

namespace WriteAheadLog

/-- The log is open, and holds the records in memory and in its file. -/
structure OnFile (wal : WriteAheadLog) (device : Device) (records : List WalRecord) : Prop where
  isOpen : wal.isOpen = true
  mirror : wal.records = records
  file : (device.disk .log).getD [] = frames records

variable {wal wal' : WriteAheadLog} {device device' : Device} {records : List WalRecord}

theorem OnFile.sync (onFile : wal.OnFile device records) (done : wal.sync device = (wal', device', true)) :
    wal'.OnFile device' records := by
  unfold WriteAheadLog.sync at done
  rw [if_neg (not_not.mpr onFile.isOpen)] at done
  split_ifs at done
  · cases done
    exact ⟨onFile.isOpen, onFile.mirror, onFile.file⟩
  · unfold Device.flush at done
    cases answer : device.answers device.calls with
    | some amount =>
      rw [answer] at done
      cases done
    | none =>
      rw [answer] at done
      cases done
      exact ⟨onFile.isOpen, onFile.mirror, onFile.file⟩

theorem OnFile.append (onFile : wal.OnFile device records) {record : WalRecord}
    (done : wal.append device record.seq record.payload = (wal', device', true)) :
    wal'.OnFile device' (records ++ [record]) := by
  unfold WriteAheadLog.append at done
  rw [if_neg (not_not.mpr onFile.isOpen)] at done
  by_cases large : record.payload.length > kMaxRecordSize
  · rw [if_pos large] at done
    cases done
  rw [if_neg large] at done
  rcases device.call_cases (.write .log record.frame) with written | ⟨_, failed⟩
  · rw [written] at done
    dsimp only at done
    have mirrored : (wal.mirror record).OnFile (device.after (.write .log record.frame))
        (records ++ [record]) := by
      refine ⟨onFile.isOpen, ?_, ?_⟩
      · show wal.records ++ _ = _
        rw [onFile.mirror]
      · simp [Device.after, DiskOp.perform, onFile.file, frames]
    split_ifs at done with due
    · exact mirrored.sync done
    · cases done
      exact mirrored
  · rw [failed] at done
    cases done

theorem OnFile.appendAll (onFile : wal.OnFile device records) {more : List WalRecord}
    (done : wal.appendAll device more = (wal', device', true)) :
    wal'.OnFile device' (records ++ more) := by
  induction more generalizing wal device records with
  | nil =>
    cases done
    rw [List.append_nil]
    exact onFile
  | cons record rest ih =>
    unfold WriteAheadLog.appendAll at done
    generalize appended : wal.append device record.seq record.payload = result at done
    obtain ⟨wal₁, device₁, ok⟩ := result
    cases ok with
    | false => cases done
    | true =>
      rw [List.append_cons]
      exact ih (onFile.append appended) done

theorem OnFile.reset (onFile : wal.OnFile device records) (done : wal.reset device = (wal', device', true)) :
    wal'.OnFile device' [] := by
  unfold WriteAheadLog.reset at done
  rw [if_neg (not_not.mpr onFile.isOpen)] at done
  rcases device.call_cases (.truncate .log 0) with emptied | ⟨_, failed⟩
  · rw [emptied] at done
    have empty : OnFile { wal with records := [], bytesOnDisk := 0, sinceSync := 0 }
        (device.after (.truncate .log 0)) [] := by
      refine ⟨onFile.isOpen, rfl, ?_⟩
      simp only [Device.after, DiskOp.perform, Function.update_self, List.take_zero]
      cases device.disk .log <;> rfl
    exact empty.sync done
  · rw [failed] at done
    cases done

/-- **A truncation that succeeds** leaves the records after its point, by their headers. -/
theorem OnFile.truncateThrough (onFile : wal.OnFile device records) {seq : UInt32}
    (done : wal.truncateThrough device seq = (wal', device', true)) :
    wal'.OnFile device' (records.filter fun record => record.seq > seq) := by
  unfold WriteAheadLog.truncateThrough at done
  rw [if_neg (not_not.mpr onFile.isOpen), onFile.mirror] at done
  generalize emptied : wal.reset device = result at done
  obtain ⟨wal₁, device₁, ok⟩ := result
  cases ok with
  | false => cases done
  | true =>
    dsimp only at done
    generalize kept : wal₁.appendAll device₁ (records.filter fun record => record.seq > seq) = result
      at done
    obtain ⟨wal₂, device₂, ok⟩ := result
    cases ok with
    | false => cases done
    | true => exact ((onFile.reset emptied).appendAll kept).sync done

end WriteAheadLog

/-! ### Low halves -/

/-- The low halves of a stretch of numbers compare with that of a number in it as they do themselves exactly
if the last one is in its block, and the first one is too, or it is the last of the block. -/
theorem low_lt_iff {first last middle : Nat} (above : first ≤ middle) (below : middle ≤ last) :
    (∀ seq, first ≤ seq → seq ≤ last →
        (middle % 2 ^ 32 < seq % 2 ^ 32 ↔ middle < seq)) ↔
      last / 2 ^ 32 = middle / 2 ^ 32 ∧
        (first / 2 ^ 32 = middle / 2 ^ 32 ∨ middle % 2 ^ 32 = 2 ^ 32 - 1) := by
  constructor
  · intro same
    constructor
    · -- the first number of the next block would have a low half of zero
      by_contra beyond
      have next := same ((middle / 2 ^ 32 + 1) * 2 ^ 32) (by omega) (by omega)
      omega
    · by_contra neither
      -- the last number of the block before would have the greatest low half
      have before := same (middle / 2 ^ 32 * 2 ^ 32 - 1) (by omega) (by omega)
      omega
  · rintro ⟨ends, starts⟩ seq fromSeq upTo
    omega

theorem ofNat_lt_iff (first second : Nat) :
    UInt32.ofNat first < UInt32.ofNat second ↔ first % 2 ^ 32 < second % 2 ^ 32 := by
  rw [UInt32.lt_iff_toNat_lt, UInt32.toNat_ofNat', UInt32.toNat_ofNat']

/-! ### Entries from a number on -/

/-- The entries are numbered one by one from `start` on. -/
def NumberedFrom (start : Nat) (entries : List LogEntry) : Prop :=
  ∀ i (inside : i < entries.length), entries[i].seq = start + i

theorem NumberedFrom.tail {start : Nat} {entry : LogEntry} {rest : List LogEntry}
    (numbered : NumberedFrom start (entry :: rest)) : NumberedFrom (start + 1) rest := by
  intro i inside
  have shifted := numbered (i + 1) (Nat.succ_lt_succ inside)
  rw [List.getElem_cons_succ] at shifted
  omega

/-- What comes after a point is the end of the list. -/
theorem NumberedFrom.filter_eq_drop {start through : Nat} {entries : List LogEntry}
    (numbered : NumberedFrom start entries) (above : start ≤ through + 1) :
    entries.filter (fun entry => through < entry.seq) = entries.drop (through + 1 - start) := by
  induction entries generalizing start with
  | nil => simp
  | cons entry rest ih =>
    have first : entry.seq = start := numbered 0 (Nat.succ_pos _)
    by_cases covered : start ≤ through
    · have split : through + 1 - start = through + 1 - (start + 1) + 1 := by omega
      rw [List.filter_cons_of_neg (by simpa [first] using covered), ih numbered.tail (by omega), split,
        List.drop_succ_cons]
    · have none : through + 1 - start = 0 := by omega
      rw [none, List.drop_zero, List.filter_eq_self]
      intro later member
      obtain ⟨i, inside, rfl⟩ := List.mem_iff_getElem.mp member
      have seq := numbered i inside
      exact decide_eq_true (by omega)

namespace DurableState

/-! ### Writing entries, and taking a snapshot -/

/-- `appendEntry` for one entry after the other, until one is refused. -/
def appendEntries (state : DurableState) (device : Device) : List LogEntry → DurableState × Device × Bool
  | [] => (state, device, true)
  | entry :: rest =>
    match state.appendEntry device entry with
    | (state, device, false) => (state, device, false)
    | (state, device, true) => state.appendEntries device rest

variable {state state' : DurableState} {device device' : Device}

/-- A log that is opened on an empty file. -/
theorem onFile_openDir (empty : (device.disk .log).getD [] = []) {policy : SyncPolicy}
    (opened : state.openDir device policy = (state', device', true)) : state'.wal.OnFile device' [] := by
  unfold openDir WriteAheadLog.openLog at opened
  rcases device.call_cases (.openOrCreate .log) with created | ⟨_, failed⟩
  · rw [created] at opened
    have file : ((device.after (.openOrCreate .log)).disk .log).getD [] = [] := by
      simp [Device.after, DiskOp.perform, empty]
    unfold WriteAheadLog.replay at opened
    simp only [file] at opened
    cases opened
    exact ⟨rfl, rfl, file⟩
  · rw [failed] at opened
    cases opened

theorem onFile_appendEntries {records : List WalRecord} (onFile : state.wal.OnFile device records)
    {entries : List LogEntry} (done : state.appendEntries device entries = (state', device', true)) :
    state'.wal.OnFile device' (records ++ entries.map entryRecord) := by
  induction entries generalizing state device records with
  | nil =>
    cases done
    rw [List.map_nil, List.append_nil]
    exact onFile
  | cons entry rest ih =>
    unfold appendEntries appendEntry at done
    generalize appended : state.wal.append device (UInt32.ofNat entry.seq) (encodeLogEntry entry) = result
      at done
    obtain ⟨wal, device₁, ok⟩ := result
    cases ok with
    | false => cases done
    | true =>
      have once : wal.OnFile device₁ (records ++ [entryRecord entry]) := onFile.append appended
      rw [List.map_cons, List.append_cons]
      exact ih once done

/-- A snapshot that is taken leaves the records after its point, by their headers. -/
theorem onFile_takeSnapshot {records : List WalRecord} (onFile : state.wal.OnFile device records)
    {engine : MatchingEngine} {through term : Nat}
    (taken : state.takeSnapshot device engine through term = (state', device', true)) :
    state'.wal.OnFile device' (records.filter fun record => record.seq > UInt32.ofNat through) ∧
      state'.snapshot = some (snapshotRecord engine through term) := by
  obtain ⟨unfinished, finished⟩ := writeSnapshotFile_agree device (snapshotRecord engine through term)
  have log : (writeSnapshotFile device (snapshotRecord engine through term)).1.disk .log =
      device.disk .log := by
    by_cases renames : device.Renames (snapshotRecord engine through term)
    · exact (finished renames).log.trans (Function.update_of_ne (by decide) _ _)
    · exact (unfinished renames).log
  unfold takeSnapshot at taken
  dsimp only at taken
  generalize writeSnapshotFile device (snapshotRecord engine through term) = file at taken log
  obtain ⟨device₁, written⟩ := file
  cases written with
  | false => cases taken
  | true =>
    have onFile₁ : state.wal.OnFile device₁ records :=
      ⟨onFile.isOpen, onFile.mirror, (congrArg (·.getD []) log).trans onFile.file⟩
    dsimp only at taken
    generalize truncated : state.wal.truncateThrough device₁ (UInt32.ofNat through) = result at taken
    obtain ⟨wal, device₂, ok⟩ := result
    cases taken
    exact ⟨onFile₁.truncateThrough truncated, rfl⟩

/-! ### Exact truncation -/

/-- **The log holds exactly these entries**, in memory and in its file, and `recover` replays them all. -/
structure Exact (state : DurableState) (device : Device) (kept : List LogEntry) : Prop where
  records : state.wal.records = kept.map entryRecord
  file : (device.disk .log).getD [] = frames (kept.map entryRecord)
  replayed : ∀ snap target, state.snapshot = some snap → (target.restore snap.engine).2 = true →
    (state.recover target {}).1.2.1.entries = kept ∧
      (state.recover target {}).1.2.2.entriesReplayed = kept.length

/-- A recovery that restores the snapshot replays the entries that follow it. -/
theorem recover_replays {snap : SnapshotRecord} (has : state.snapshot = some snap) {kept : List LogEntry}
    (records : state.wal.records = kept.map entryRecord)
    (fit : ∀ entry ∈ kept, entry.seq < 2 ^ 64 ∧ entry.term < 2 ^ 64)
    (numbered : NumberedFrom (snap.lastIncludedSeq + 1) kept) {target : MatchingEngine}
    (restores : (target.restore snap.engine).2 = true) :
    (state.recover target {}).1.2.1.entries = kept ∧
      (state.recover target {}).1.2.2.entriesReplayed = kept.length := by
  obtain ⟨engine, restored⟩ : ∃ engine, target.restore snap.engine = (engine, true) :=
    ⟨_, Prod.ext rfl restores⟩
  have boundary : (({} : CommandLog).setSnapshotBoundary snap.lastIncludedSeq
      snap.lastIncludedTerm).lastSeq = snap.lastIncludedSeq := by
    show (if 0 < snap.lastIncludedSeq then snap.lastIncludedSeq else 0) = _
    split_ifs <;> omega
  have replays := replayRecords_apply fit (Nat.le_of_eq boundary.symm) (boundary.symm ▸ numbered) engine 0
  unfold recover replayLog
  simp only [has, restored, records, replays]
  exact ⟨rfl, Nat.zero_add _⟩

/-- What the entries of a log that is written and then truncated have to do with the records left. -/
theorem takeSnapshot_records {entries : List LogEntry} (onFile : state.wal.OnFile device
      (entries.map entryRecord)) {engine : MatchingEngine} {through term : Nat}
    (taken : state.takeSnapshot device engine through term = (state', device', true)) :
    state'.wal.OnFile device' ((entries.filter fun entry =>
      through % 2 ^ 32 < entry.seq % 2 ^ 32).map entryRecord) := by
  have left := (onFile_takeSnapshot onFile taken).1
  rw [List.filter_map] at left
  have headers : ((fun record : WalRecord => decide (record.seq > UInt32.ofNat through)) ∘ entryRecord) =
      fun entry : LogEntry => decide (through % 2 ^ 32 < entry.seq % 2 ^ 32) := by
    funext entry
    exact decide_eq_decide.mpr (ofNat_lt_iff through entry.seq)
  rwa [headers] at left

/-- An entry is kept exactly if its record is. -/
theorem mem_filter_iff_record {entries : List LogEntry}
    (fit : ∀ entry ∈ entries, entry.seq < 2 ^ 64 ∧ entry.term < 2 ^ 64) (kept : LogEntry → Bool)
    {entry : LogEntry} (member : entry ∈ entries) :
    kept entry = true ↔ entryRecord entry ∈ (entries.filter kept).map entryRecord := by
  constructor
  · exact fun isKept => List.mem_map_of_mem (List.mem_filter.mpr ⟨member, isKept⟩)
  · intro isThere
    obtain ⟨other, filtered, same⟩ := List.mem_map.mp isThere
    obtain ⟨member', isKept⟩ := List.mem_filter.mp filtered
    have payload : encodeLogEntry other = encodeLogEntry entry := congrArg WalRecord.payload same
    have decoded := decodeLogEntry_encodeLogEntry (fit other member').1 (fit other member').2
    rw [payload, decodeLogEntry_encodeLogEntry (fit entry member).1 (fit entry member).2] at decoded
    rw [Option.some.inj decoded]
    exact isKept

/-- **When truncation at a snapshot is exact.** On a log that was opened empty and into which entries with
consecutive numbers were written, `takeSnapshot` leaves exactly the entries after its point, and `recover`
replays them all, if and only if the last entry is in the block of the point, and the first one is too, or
the point is the last of its block. -/
theorem truncation_exact_iff {policy : SyncPolicy} {opened written taken : DurableState}
    {device device₁ device₂ device₃ : Device} {start through term : Nat} {entries : List LogEntry}
    {engine : MatchingEngine} (empty : (device.disk .log).getD [] = [])
    (opens : ({} : DurableState).openDir device policy = (opened, device₁, true))
    (numbered : NumberedFrom start entries)
    (fit : ∀ entry ∈ entries, entry.seq < 2 ^ 64 ∧ entry.term < 2 ^ 64)
    (writes : opened.appendEntries device₁ entries = (written, device₂, true))
    (within' : start ≤ through ∧ through < start + entries.length)
    (takes : written.takeSnapshot device₂ engine through term = (taken, device₃, true)) :
    taken.Exact device₃ (entries.filter fun entry => through < entry.seq) ↔
      (start + entries.length - 1) / 2 ^ 32 = through / 2 ^ 32 ∧
        (start / 2 ^ 32 = through / 2 ^ 32 ∨ through % 2 ^ 32 = 2 ^ 32 - 1) := by
  obtain ⟨above, below⟩ := within'
  have onFile := onFile_appendEntries (onFile_openDir empty opens) writes
  rw [List.nil_append] at onFile
  have left := takeSnapshot_records onFile takes
  have snapshot := (onFile_takeSnapshot onFile takes).2
  rw [← low_lt_iff above (show through ≤ start + entries.length - 1 by omega)]
  constructor
  · intro exactly seq fromSeq upTo
    -- the entry with this number is among those left by its header exactly if it is by its number
    have inside : seq - start < entries.length := by omega
    have member := List.getElem_mem inside
    have isSeq : entries[seq - start].seq = seq := by
      rw [numbered _ inside]
      omega
    have same := left.mirror.symm.trans exactly.records
    have found := fun kept : LogEntry → Bool => mem_filter_iff_record fit kept member
    have low := found fun entry => through % 2 ^ 32 < entry.seq % 2 ^ 32
    have number := found fun entry => through < entry.seq
    rw [decide_eq_true_iff, isSeq, same] at low
    rw [decide_eq_true_iff, isSeq] at number
    exact low.trans number.symm
  · intro low
    have filters : (entries.filter fun entry => through % 2 ^ 32 < entry.seq % 2 ^ 32) =
        entries.filter fun entry => through < entry.seq := by
      refine List.filter_congr fun entry member => decide_eq_decide.mpr ?_
      obtain ⟨i, inside, rfl⟩ := List.mem_iff_getElem.mp member
      rw [numbered i inside]
      exact low _ (by omega) (by omega)
    rw [filters] at left
    refine ⟨left.mirror, left.file, fun snap target has restores => ?_⟩
    obtain rfl : snapshotRecord engine through term = snap := Option.some.inj (snapshot.symm.trans has)
    have stretch := numbered.filter_eq_drop (show start ≤ through + 1 by omega)
    refine recover_replays has left.mirror (fun entry member => fit entry (List.mem_filter.mp member).1) ?_
      restores
    rw [stretch]
    intro i inside
    rw [List.getElem_drop, numbered]
    show start + (through + 1 - start + i) = through + 1 + i
    omega

/-- Two entries from a number on, in a directory that was empty. -/
def twoFrom (start : Nat) : List LogEntry :=
  [{ seq := start, term := 1, command := .cancelOrder { id := 1 } },
    { seq := start + 1, term := 1, command := .cancelOrder { id := 2 } }]

def openedEmpty : DurableState × Device × Bool := ({} : DurableState).openDir {} .everyWrite

def writtenFrom (start : Nat) : DurableState × Device × Bool :=
  openedEmpty.1.appendEntries openedEmpty.2.1 (twoFrom start)

/-- A snapshot at the first of the two. -/
def takenAt (start : Nat) : DurableState × Device × Bool :=
  (writtenFrom start).1.takeSnapshot (writtenFrom start).2.1 { instrument := 1 } start 1

theorem truncation_exact_iff_start :
    (takenAt 1).1.Exact (takenAt 1).2.1 ((twoFrom 1).filter fun entry => 1 < entry.seq) := by
  have opens : ({} : DurableState).openDir {} .everyWrite = (openedEmpty.1, openedEmpty.2.1, true) :=
    Prod.ext rfl (Prod.ext rfl (by decide +kernel))
  have writes : openedEmpty.1.appendEntries openedEmpty.2.1 (twoFrom 1) =
      ((writtenFrom 1).1, (writtenFrom 1).2.1, true) := Prod.ext rfl (Prod.ext rfl (by decide +kernel))
  have takes : (writtenFrom 1).1.takeSnapshot (writtenFrom 1).2.1 { instrument := 1 } 1 1 =
      ((takenAt 1).1, (takenAt 1).2.1, true) := Prod.ext rfl (Prod.ext rfl (by decide +kernel))
  have numbered : NumberedFrom 1 (twoFrom 1) := by
    unfold NumberedFrom
    decide
  exact (truncation_exact_iff rfl opens numbered (by decide) writes (by decide) takes).mpr (by decide)

/-- The entry after the last number of a block is not kept: its low half is zero. -/
theorem truncation_loses_entry :
    (writtenFrom (2 ^ 32 - 1)).2.2 = true ∧ (takenAt (2 ^ 32 - 1)).2.2 = true ∧
      ¬ (takenAt (2 ^ 32 - 1)).1.Exact (takenAt (2 ^ 32 - 1)).2.1
        ((twoFrom (2 ^ 32 - 1)).filter fun entry => 2 ^ 32 - 1 < entry.seq) := by
  refine ⟨by decide +kernel, by decide +kernel, fun exactly => ?_⟩
  have none : (takenAt (2 ^ 32 - 1)).1.wal.records.length = 0 := by decide +kernel
  have one := congrArg List.length exactly.records
  rw [none] at one
  exact absurd one (by decide +kernel)

end DurableState

end Sententia
