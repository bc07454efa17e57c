/-
**A node that journals what it applies.** Every command is appended to the log, made durable by
`appendEntry`, and applied; now and then a snapshot is taken at a point of the log that has been reached.
The process can stop between two calls, or inside one.

`Sound`: at every moment the disk holds the last snapshot and exactly the entries after it.
-/

import Sententia.Library.Transition
import Sententia.Storage.Recovery

namespace Sententia

open Library

structure Journal where
  instrument : InstrumentId
  store : DurableState
  disk : Disk
  log : CommandLog := {}
  engine : MatchingEngine

inductive JournalCall
  | append (term : UInt64) (command : Command)
  | snapshot (count : Nat)
deriving Repr, DecidableEq

namespace Journal

/-- A node that has opened an empty directory. -/
def fresh (instrument : InstrumentId) (policy : SyncPolicy) : Journal :=
  match ({} : DurableState).openDir {} policy with
  | (store, device, _) => { instrument, store, disk := device.disk, engine := { instrument } }

/-- The point of the last snapshot, zero before the first. -/
def snapshotSeq (journal : Journal) : Nat :=
  (journal.store.snapshot.map (·.lastIncludedSeq)).getD 0

/-- `appendEntry` of the next entry. -/
def appendEntry (journal : Journal) (term : UInt64) (command : Command) :
    DurableState × Device × Bool :=
  journal.store.appendEntry { disk := journal.disk }
    { seq := (journal.log.append command term.toNat).2, term := term.toNat, command }

/-- The engine after the first `count` commands. -/
def engineAt (journal : Journal) (count : Nat) : MatchingEngine :=
  engineAfter journal.instrument (journal.log.entries.take count)

def termAt (journal : Journal) (count : Nat) : Nat := (journal.log.termAt count).getD 0

/-- `takeSnapshot` at a point of the log. -/
def takeSnapshot (journal : Journal) (count : Nat) : DurableState × Device × Bool :=
  journal.store.takeSnapshot { disk := journal.disk } (journal.engineAt count) count
    (journal.termAt count)

/-- A snapshot can be taken anywhere between the last one and the end of the log. -/
def Admits (journal : Journal) (count : Nat) : Prop :=
  journal.snapshotSeq ≤ count ∧ count ≤ journal.log.lastSeq

instance (journal : Journal) (count : Nat) : Decidable (journal.Admits count) :=
  inferInstanceAs (Decidable (_ ∧ _))

def step (journal : Journal) : JournalCall → Option Journal
  | .append term command =>
    match journal.appendEntry term command with
    | (_, _, false) => none
    | (store, device, true) => some
      { journal with
        store
        disk := device.disk
        log := (journal.log.append command term.toNat).1
        engine := (journal.engine.apply command).1 }
  | .snapshot count =>
    if journal.Admits count then
      match journal.takeSnapshot count with
      | (_, _, false) => none
      | (store, device, true) => some { journal with store, disk := device.disk }
    else none

end Journal

/-! ### What a run journals -/

def JournalCall.appended : JournalCall → Option (Nat × Command)
  | .append term command => some (term.toNat, command)
  | .snapshot _ => none

/-- The entries that the calls append, in order. -/
def journalled (calls : List JournalCall) : List LogEntry :=
  (calls.filterMap JournalCall.appended).mapIdx fun i (term, command) => { seq := i + 1, term, command }

/-! ### The disk of a journal -/

/-- The writes of frames put them at the end of the log. -/
theorem performAll_frames (disk : Disk) (records : List WalRecord) :
    (disk.performAll (records.map fun record => .write .log record.frame) .log).getD [] =
        (disk .log).getD [] ++ frames records ∧
      disk.performAll (records.map fun record => .write .log record.frame) .snapshot =
        disk .snapshot := by
  induction records generalizing disk with
  | nil => exact ⟨(List.append_nil _).symm, rfl⟩
  | cons record rest ih =>
    obtain ⟨log, snapshot⟩ := ih (DiskOp.perform disk (.write .log record.frame))
    refine ⟨?_, snapshot.trans ?_⟩
    · refine log.trans ?_
      simp [DiskOp.perform, frames]
    · simp [DiskOp.perform]

/-- The calls that put a file in place of the snapshot. -/
def replaceSnapshot (bytes : Buffer) : List DiskOp :=
  [.create .snapshotTemp, .write .snapshotTemp bytes, .rename .snapshotTemp .snapshot]

theorem performAll_replaceSnapshot (disk : Disk) (bytes : Buffer) :
    disk.performAll (replaceSnapshot bytes) .snapshot = some bytes ∧
      disk.performAll (replaceSnapshot bytes) .log = disk .log := by
  simp [replaceSnapshot, Disk.performAll, DiskOp.perform]

theorem writeSnapshotFile_runs {device : Device} (obliging : device.Obliging) (snap : SnapshotRecord) :
    ∃ device', writeSnapshotFile device snap = (device', true) ∧
      device.Runs (replaceSnapshot (snapshotFile snap)) device' := by
  unfold writeSnapshotFile
  generalize snapshotFile snap = bytes
  have answers : ∀ call, device.answers call = none := obliging
  simp only [Device.call, Device.flush, Device.after, answers, Option.isNone_none]
  refine ⟨_, rfl, rfl, rfl, ?_⟩
  simp only [replaceSnapshot, List.append_assoc, List.cons_append, List.nil_append]

/-- The calls that empty the log and write records into it. -/
def rewriteLog (records : List WalRecord) : List DiskOp :=
  .truncate .log 0 :: records.map fun record => .write .log record.frame

theorem performAll_rewriteLog (disk : Disk) (records : List WalRecord) :
    (disk.performAll (rewriteLog records) .log).getD [] = frames records ∧
      disk.performAll (rewriteLog records) .snapshot = disk .snapshot := by
  obtain ⟨log, snapshot⟩ := performAll_frames (DiskOp.perform disk (.truncate .log 0)) records
  refine ⟨log.trans ?_, snapshot.trans ?_⟩
  · simp only [DiskOp.perform, Function.update_self, List.take_zero]
    cases disk .log <;> rfl
  · simp [DiskOp.perform]

/-- The calls of `takeSnapshot`. -/
theorem takeSnapshot_runs {state : DurableState} (isOpen : state.wal.isOpen = true) {device : Device}
    (obliging : device.Obliging) (fit : ∀ record ∈ state.wal.records, record.Fits)
    (engine : MatchingEngine) (seq term : Nat) :
    ∃ state' device', state.takeSnapshot device engine seq term = (state', device', true) ∧
      state'.wal.isOpen = true ∧
        state'.snapshot = some (DurableState.snapshotRecord engine seq term) ∧
          state'.wal.records = state.wal.records.filter (fun record => record.seq > UInt32.ofNat seq) ∧
            device.Runs (replaceSnapshot (snapshotFile (DurableState.snapshotRecord engine seq term)) ++
              rewriteLog (state.wal.records.filter fun record => record.seq > UInt32.ofNat seq))
                device' := by
  obtain ⟨device', written, runs⟩ :=
    writeSnapshotFile_runs obliging (DurableState.snapshotRecord engine seq term)
  obtain ⟨wal, device'', truncated, isOpen', kept, runs'⟩ :=
    WriteAheadLog.truncateThrough_runs isOpen (runs.obliging obliging) fit (UInt32.ofNat seq)
  unfold DurableState.takeSnapshot
  simp only [written, truncated]
  exact ⟨_, _, rfl, isOpen', rfl, kept, runs.trans runs'⟩

/-- The records that a snapshot at `count` leaves in the log. -/
theorem filter_entryRecord {entries : List LogEntry} (numbered : Numbered entries)
    (length : entries.length < 2 ^ 32) {count : Nat} (inside : count ≤ entries.length) (start : Nat) :
    ((entries.drop start).map entryRecord).filter (fun record => record.seq > UInt32.ofNat count) =
      (entries.drop (max start count)).map entryRecord := by
  have later : ∀ i entry, entries[i]? = some entry →
      ((entryRecord entry).seq > UInt32.ofNat count ↔ count ≤ i) := by
    intro i entry found
    have bound := (List.getElem?_eq_some_iff.mp found).1
    show UInt32.ofNat count < UInt32.ofNat entry.seq ↔ count ≤ i
    rw [numbered.seq_of_getElem? found, UInt32.lt_iff_toNat_lt, UInt32.toNat_ofNat', UInt32.toNat_ofNat',
      Nat.mod_eq_of_lt (by omega), Nat.mod_eq_of_lt (by omega)]
    omega
  have split : entries.drop start =
      (entries.drop start).take (count - start) ++ entries.drop (max start count) := by
    have same : max start count = start + (count - start) := by omega
    rw [same, ← List.drop_drop, List.take_append_drop]
  have gone : (((entries.drop start).take (count - start)).map entryRecord).filter
      (fun record => record.seq > UInt32.ofNat count) = [] := by
    refine List.filter_eq_nil_iff.mpr fun record member => ?_
    obtain ⟨entry, taken, rfl⟩ := List.mem_map.mp member
    obtain ⟨i, found⟩ := List.mem_iff_getElem?.mp taken
    have inside := (List.getElem?_eq_some_iff.mp found).1
    rw [List.length_take] at inside
    rw [List.getElem?_take_of_lt (by omega), List.getElem?_drop] at found
    rw [decide_eq_true_eq, later _ entry found]
    omega
  have kept : ((entries.drop (max start count)).map entryRecord).filter
      (fun record => record.seq > UInt32.ofNat count) = (entries.drop (max start count)).map entryRecord := by
    refine List.filter_eq_self.mpr fun record member => ?_
    obtain ⟨entry, dropped, rfl⟩ := List.mem_map.mp member
    obtain ⟨i, found⟩ := List.mem_iff_getElem?.mp dropped
    rw [List.getElem?_drop] at found
    rw [decide_eq_true_eq, later _ entry found]
    omega
  rw [split, List.map_append, List.filter_append, gone, kept, List.nil_append]

namespace Journal

/-- The calls of `appendEntry`. -/
theorem appendEntry_runs {journal : Journal} (whole : journal.log.Whole)
    (isOpen : journal.store.wal.isOpen = true) (term : UInt64) (command : Command) :
    ∃ wal device, journal.appendEntry term command = ({ journal.store with wal }, device, true) ∧
      wal.isOpen = true ∧ wal.records = journal.store.wal.records ++ [entryRecord
        { seq := journal.log.entries.length + 1, term := term.toNat, command }] ∧
        Device.Runs { disk := journal.disk } [.write .log (entryRecord
          { seq := journal.log.entries.length + 1, term := term.toNat, command }).frame] device := by
  have obliging : Device.Obliging { disk := journal.disk } := fun _ => rfl
  obtain ⟨wal, device, appended, isOpen', added, runs⟩ :=
    WriteAheadLog.append_runs isOpen obliging (fits_entryRecord
      { seq := journal.log.entries.length + 1, term := term.toNat, command })
  have next : (journal.log.append command term.toNat).2 = journal.log.entries.length + 1 :=
    congrArg (· + 1) whole.lastSeq
  refine ⟨wal, device, ?_, isOpen', added, runs⟩
  unfold Journal.appendEntry DurableState.appendEntry
  simp only [next]
  have appended' : journal.store.wal.append { disk := journal.disk }
    (UInt32.ofNat (journal.log.entries.length + 1)) (encodeLogEntry _) = _ := appended
  rw [appended']

/-! ### The invariant -/

/-- The last snapshot and the entries after it are on disk, and in the memory of the store. -/
structure Sound (journal : Journal) (point : Option Nat) : Prop where
  whole : journal.log.Whole
  terms : ∀ entry ∈ journal.log.entries, entry.term < 2 ^ 64
  engine : journal.engine = engineAfter journal.instrument journal.log.entries
  isOpen : journal.store.wal.isOpen = true
  taken : journal.store.snapshot.map (·.lastIncludedSeq) = point
  inside : point.getD 0 ≤ journal.log.entries.length
  records : journal.store.wal.records = (journal.log.entries.drop (point.getD 0)).map entryRecord
  file : (journal.disk .log).getD [] = frames journal.store.wal.records
  snapshot : journal.disk .snapshot =
    point.map fun count => snapshotFile (snapshotAt journal.instrument journal.log.entries count)

namespace Sound

variable {journal : Journal} {point : Option Nat}

theorem fit (sound : journal.Sound point) : ∀ record ∈ journal.store.wal.records, record.Fits := by
  intro record member
  rw [sound.records] at member
  obtain ⟨entry, _, rfl⟩ := List.mem_map.mp member
  exact fits_entryRecord entry

theorem snapshotSeq (sound : journal.Sound point) : journal.snapshotSeq = point.getD 0 := by
  unfold Journal.snapshotSeq
  rw [sound.taken]

/-- The entry that is appended next. -/
theorem appendEntry_eq (sound : journal.Sound point) (term : UInt64) (command : Command) :
    ∃ wal device, journal.appendEntry term command = ({ journal.store with wal }, device, true) ∧
      wal.isOpen = true ∧ wal.records = journal.store.wal.records ++ [entryRecord
        { seq := journal.log.entries.length + 1, term := term.toNat, command }] ∧
        Device.Runs { disk := journal.disk } [.write .log (entryRecord
          { seq := journal.log.entries.length + 1, term := term.toNat, command }).frame] device :=
  appendEntry_runs sound.whole sound.isOpen term command

theorem append (sound : journal.Sound point) {term : UInt64} {command : Command} {next : Journal}
    (moved : journal.step (.append term command) = some next) : next.Sound point := by
  obtain ⟨wal, device, appended, isOpen, added, runs⟩ := sound.appendEntry_eq term command
  unfold step at moved
  simp only [appended] at moved
  obtain rfl := Option.some.inj moved
  have entries := sound.whole.entries_append command term.toNat
  have disk := runs.disk
  refine ⟨sound.whole.append command term.toNat, ?_, ?_, isOpen, sound.taken, ?_, ?_, ?_, ?_⟩
  · intro entry member
    simp only [entries] at member
    rcases List.mem_append.mp member with old | new
    · exact sound.terms entry old
    · rw [List.mem_singleton.mp new]
      exact term.toNat_lt
  · simp only [entries, sound.engine]
    unfold engineAfter MatchingEngine.replay
    rw [List.map_append, MatchingEngine.applyAll_append]
    rfl
  · simp only [entries, List.length_append]
    exact Nat.le_add_right_of_le sound.inside
  · simp only [entries]
    rw [List.drop_append_of_le_length sound.inside, List.map_append, ← sound.records]
    exact added
  · simp only [disk, added, frames_append, frames_singleton, ← sound.file]
    simp [Disk.performAll, DiskOp.perform]
  · simp only [disk, entries]
    refine Eq.trans ?_ (sound.snapshot.trans (Option.map_congr fun taken member => ?_))
    · simp [Disk.performAll, DiskOp.perform]
    · have covered : taken ≤ journal.log.entries.length := by
        have inside := sound.inside
        rw [member] at inside
        exact inside
      rw [snapshotAt_append covered]

/-- The record that `takeSnapshot` writes. -/
theorem snapshotRecord_eq (sound : journal.Sound point) {count : Nat}
    (inside : count ≤ journal.log.entries.length) :
    DurableState.snapshotRecord (journal.engineAt count) count (journal.termAt count) =
      snapshotAt journal.instrument journal.log.entries count := by
  have term : journal.termAt count = lastTerm LogEntry.term (journal.log.entries.take count) := by
    unfold Journal.termAt
    rw [sound.whole.termAt_eq_lastTerm inside]
    rfl
  unfold snapshotAt engineAt
  rw [term]

/-- **`takeSnapshot`**, at any point of the log. -/
theorem takeSnapshot_eq (sound : journal.Sound point) (length : journal.log.entries.length < 2 ^ 32)
    {count : Nat} (inside : count ≤ journal.log.entries.length) :
    ∃ store device, journal.takeSnapshot count = (store, device, true) ∧ store.wal.isOpen = true ∧
      store.snapshot = some (snapshotAt journal.instrument journal.log.entries count) ∧
        store.wal.records =
            (journal.log.entries.drop (max (point.getD 0) count)).map entryRecord ∧
          Device.Runs { disk := journal.disk }
            (replaceSnapshot (snapshotFile (snapshotAt journal.instrument journal.log.entries count)) ++
              rewriteLog ((journal.log.entries.drop (max (point.getD 0) count)).map entryRecord))
            device := by
  have obliging : Device.Obliging { disk := journal.disk } := fun _ => rfl
  obtain ⟨store, device, taken, isOpen, snapshot, records, runs⟩ := takeSnapshot_runs sound.isOpen obliging
    sound.fit (journal.engineAt count) count (journal.termAt count)
  have kept := filter_entryRecord sound.whole.retains.numbered length inside (point.getD 0)
  rw [← sound.records] at kept
  rw [sound.snapshotRecord_eq inside] at snapshot runs
  rw [kept] at records runs
  exact ⟨store, device, taken, isOpen, snapshot, records, runs⟩

theorem takenSnapshot (sound : journal.Sound point) (length : journal.log.entries.length < 2 ^ 32)
    {count : Nat} {next : Journal} (moved : journal.step (.snapshot count) = some next) :
    next.Sound (some count) := by
  simp only [Journal.step] at moved
  split_ifs at moved with admitted
  obtain ⟨after, inside⟩ := admitted
  rw [sound.snapshotSeq] at after
  rw [sound.whole.lastSeq] at inside
  obtain ⟨store, device, taken, isOpen, snapshot, records, runs⟩ := sound.takeSnapshot_eq length inside
  rw [Nat.max_eq_right after] at records runs
  simp only [taken] at moved
  obtain rfl := Option.some.inj moved
  have disk := runs.disk
  unfold Disk.performAll at disk
  rw [List.foldl_append] at disk
  obtain ⟨log, kept⟩ := performAll_rewriteLog (journal.disk.performAll
    (replaceSnapshot (snapshotFile (snapshotAt journal.instrument journal.log.entries count))))
    ((journal.log.entries.drop count).map entryRecord)
  refine ⟨sound.whole, sound.terms, sound.engine, isOpen, ?_, inside, records, ?_, ?_⟩
  · simp only [snapshot]
    rfl
  · simp only [records]
    rw [disk]
    exact log
  · simp only
    rw [disk]
    exact kept.trans (performAll_replaceSnapshot _ _).1

/-- Every step keeps the invariant, for as long as sequence numbers do not wrap. -/
theorem step (sound : journal.Sound point) (length : journal.log.entries.length < 2 ^ 32)
    {call : JournalCall} {next : Journal} (moved : journal.step call = some next) :
    ∃ point', next.Sound point' := by
  cases call with
  | append term command => exact ⟨point, sound.append moved⟩
  | snapshot count => exact ⟨some count, sound.takenSnapshot length moved⟩

end Sound

theorem sound_fresh (instrument : InstrumentId) (policy : SyncPolicy) :
    (fresh instrument policy).Sound none := by
  have obliging : Device.Obliging {} := fun _ => rfl
  have empty : (({} : Device).disk .log).getD [] = frames [] ++ [] := rfl
  obtain ⟨device, opened, _, disk⟩ :=
    WriteAheadLog.openLog_eq {} obliging policy empty (List.forall_mem_nil _) readRecord_nil
  have absent : device.disk .snapshot = none := by
    rw [disk, Function.update_of_ne (by decide)]
  unfold fresh DurableState.openDir
  simp only [opened, absent, readSnapshotFile]
  refine ⟨CommandLog.whole_empty, List.forall_mem_nil _, rfl, rfl, rfl, Nat.le_refl _, rfl, ?_, absent⟩
  simp only [disk, Function.update_self]
  rfl

/-! ### Runs -/

/-- What a step appends. -/
theorem step_appended {journal next : Journal} {call : JournalCall}
    (moved : journal.step call = some next) :
    next.instrument = journal.instrument ∧
      next.log.entries.map (fun entry => (entry.term, entry.command)) =
        journal.log.entries.map (fun entry => (entry.term, entry.command)) ++ call.appended.toList := by
  cases call with
  | append term command =>
    simp only [step] at moved
    generalize journal.appendEntry term command = result at moved
    obtain ⟨store, device, _ | _⟩ := result
    · cases moved
    · obtain rfl := Option.some.inj moved
      refine ⟨rfl, ?_⟩
      simp [CommandLog.append, JournalCall.appended]
  | snapshot count =>
    simp only [step] at moved
    split_ifs at moved
    generalize journal.takeSnapshot count = result at moved
    obtain ⟨store, device, _ | _⟩ := result
    · cases moved
    · obtain rfl := Option.some.inj moved
      exact ⟨rfl, (List.append_nil _).symm⟩

theorem filterMap_appended_cons (call : JournalCall) (rest : List JournalCall) :
    (call :: rest).filterMap JournalCall.appended =
      call.appended.toList ++ rest.filterMap JournalCall.appended := by
  cases call <;> rfl

/-- What a run appends. -/
theorem run_appended {journal final : Journal} {calls : List JournalCall}
    (ran : run step journal calls = some final) :
    final.instrument = journal.instrument ∧
      final.log.entries.map (fun entry => (entry.term, entry.command)) =
        journal.log.entries.map (fun entry => (entry.term, entry.command)) ++
          calls.filterMap JournalCall.appended := by
  induction calls generalizing journal with
  | nil =>
    cases ran
    exact ⟨rfl, (List.append_nil _).symm⟩
  | cons call rest ih =>
    obtain ⟨next, moved, ran'⟩ := run_cons ran
    obtain ⟨same, appended⟩ := step_appended moved
    obtain ⟨same', appended'⟩ := ih ran'
    refine ⟨same'.trans same, ?_⟩
    rw [appended', appended, filterMap_appended_cons, List.append_assoc]

theorem run_sound {journal final : Journal} {point : Option Nat} {calls : List JournalCall}
    (sound : journal.Sound point) (ran : run step journal calls = some final)
    (length : journal.log.entries.length + (calls.filterMap JournalCall.appended).length < 2 ^ 32) :
    ∃ point', final.Sound point' := by
  induction calls generalizing journal point with
  | nil =>
    cases ran
    exact ⟨point, sound⟩
  | cons call rest ih =>
    obtain ⟨next, moved, ran'⟩ := run_cons ran
    obtain ⟨point', sound'⟩ := sound.step (by omega) moved
    have grown : next.log.entries.length = journal.log.entries.length + call.appended.toList.length := by
      have lengths := congrArg List.length (step_appended moved).2
      rwa [List.length_append, List.length_map, List.length_map] at lengths
    rw [filterMap_appended_cons, List.length_append] at length
    exact ih sound' ran' (by omega)

theorem log_fresh (instrument : InstrumentId) (policy : SyncPolicy) :
    (fresh instrument policy).instrument = instrument ∧ (fresh instrument policy).log = {} := by
  unfold fresh
  split
  exact ⟨rfl, rfl⟩

/-- The entries of a journal are what its calls appended. -/
theorem entries_eq_journalled {instrument : InstrumentId} {policy : SyncPolicy} {calls : List JournalCall}
    {journal : Journal} (ran : run step (fresh instrument policy) calls = some journal)
    (whole : journal.log.Whole) :
    journal.instrument = instrument ∧ journal.log.entries = journalled calls := by
  obtain ⟨same, empty⟩ := log_fresh instrument policy
  obtain ⟨same', appended⟩ := run_appended ran
  refine ⟨same'.trans same, ?_⟩
  rw [empty] at appended
  unfold journalled
  rw [← List.nil_append (calls.filterMap _), ← List.map_nil, ← appended]
  refine List.ext_getElem (by simp) fun i inside inside' => ?_
  rw [List.getElem_mapIdx, List.getElem_map, ← whole.retains.numbered i inside]

/-- **A journal after its calls**: it holds what they appended, and the disk has all of it. -/
theorem run_fresh {instrument : InstrumentId} {policy : SyncPolicy} {calls : List JournalCall}
    {journal : Journal} (ran : run step (fresh instrument policy) calls = some journal)
    (length : (journalled calls).length < 2 ^ 32) :
    ∃ point, journal.Sound point ∧ journal.instrument = instrument ∧
      journal.log.entries = journalled calls := by
  have count : (journalled calls).length = (calls.filterMap JournalCall.appended).length :=
    List.length_mapIdx
  have start : (fresh instrument policy).log.entries.length = 0 := by
    rw [(log_fresh instrument policy).2]
    rfl
  obtain ⟨point, sound⟩ := run_sound (sound_fresh instrument policy) ran (by omega)
  exact ⟨point, sound, entries_eq_journalled ran sound.whole⟩

end Journal

end Sententia
