/-
**The lifetime of a node's directory** (`DurableState`): processes open it, journal what they apply, take
snapshots of the engine they run, and stop at any point, in the middle of a call too: while they open the
directory, with part of a frame written, or with some of the calls of `takeSnapshot` done. The next process
recovers and goes on with what it has recovered.

* `recoveredLog_append`, `snapshotRecord_mirrors` — a recovered log and a restored engine go on as if nothing
  had happened.
* `Directory`, `Process.Sound` — what the files hold at any time, and what a running process has in memory.
* `lifetime_intact` — every process that is started comes up, in the state of all that was journalled.
-/

import Sententia.Storage.Crash

namespace Sententia

open Library

/-! ### The program -/

structure Process where
  store : DurableState
  log : CommandLog
  engine : MatchingEngine

structure Lifetime where
  instrument : InstrumentId
  disk : Disk := fun _ => none
  /-- None while nothing is running. -/
  process : Option Process := none
  /-- The appends that were acknowledged, and those that a crash has cut short behind their last byte. -/
  journalled : List LogEntry := []

inductive LifeStep
  | boot (policy : SyncPolicy)
  /-- The process stops while it opens the directory, with so many calls done. -/
  | crashBooting (policy : SyncPolicy) (done : Nat)
  | append (term : UInt64) (command : Command)
  | snapshot
  | crash
  /-- The process stops in `appendEntry`, with so many bytes of the frame written. -/
  | crashAppending (term : UInt64) (command : Command) (amount : Nat)
  /-- The process stops in `takeSnapshot`, with so many calls done, and so many bytes of the next. -/
  | crashSnapshot (done amount : Nat)

namespace Process

def nextEntry (process : Process) (term : UInt64) (command : Command) : LogEntry where
  seq := process.log.lastSeq + 1
  term := term.toNat
  command := command

/-- `appendEntry`, before the command is applied. -/
def appendEntry (process : Process) (disk : Disk) (term : UInt64) (command : Command) :
    DurableState × Device × Bool :=
  process.store.appendEntry { disk } (process.nextEntry term command)

/-- `takeSnapshot` of the engine as it is. -/
def takeSnapshot (process : Process) (disk : Disk) : DurableState × Device × Bool :=
  process.store.takeSnapshot { disk } process.engine process.log.lastSeq
    ((process.log.termAt process.log.lastSeq).getD 0)

end Process

namespace Lifetime

/-- `open`, and `recover` into a fresh engine and an empty log. A process that fails in this ends. -/
def boot (life : Lifetime) (policy : SyncPolicy) : Lifetime :=
  match ({} : DurableState).openDir { disk := life.disk } policy with
  | (_, device, false) => { life with disk := device.disk }
  | (store, device, true) =>
    match store.recover { instrument := life.instrument } {} with
    | (_, some _) => { life with disk := device.disk }
    | ((engine, log, _), none) => { life with disk := device.disk, process := some { store, log, engine } }

def crashBooting (life : Lifetime) (policy : SyncPolicy) (done : Nat) : Lifetime :=
  let device := (({} : DurableState).openDir { disk := life.disk } policy).2.1
  { life with disk := life.disk.crash device.done done 0 }

/-- What is acknowledged is applied. -/
def append (life : Lifetime) (process : Process) (term : UInt64) (command : Command) : Lifetime :=
  match process.appendEntry life.disk term command with
  | (store, device, false) => { life with disk := device.disk, process := some { process with store } }
  | (store, device, true) =>
    { life with
      disk := device.disk
      process := some
        { store
          log := (process.log.append command term.toNat).1
          engine := (process.engine.apply command).1 }
      journalled := life.journalled ++ [process.nextEntry term command] }

def snapshot (life : Lifetime) (process : Process) : Lifetime :=
  match process.takeSnapshot life.disk with
  | (store, device, _) => { life with disk := device.disk, process := some { process with store } }

def crashAppending (life : Lifetime) (process : Process) (term : UInt64) (command : Command)
    (amount : Nat) : Lifetime :=
  { life with
    disk := life.disk.crash (process.appendEntry life.disk term command).2.1.done 0 amount
    process := none
    journalled :=
      if (entryRecord (process.nextEntry term command)).frame.length ≤ amount then
        life.journalled ++ [process.nextEntry term command]
      else life.journalled }

def crashSnapshot (life : Lifetime) (process : Process) (done amount : Nat) : Lifetime :=
  { life with
    disk := life.disk.crash (process.takeSnapshot life.disk).2.1.done done amount
    process := none }

def step (life : Lifetime) : LifeStep → Option Lifetime
  | .boot policy => if life.process.isNone then some (life.boot policy) else none
  | .crashBooting policy done =>
    if life.process.isNone then some (life.crashBooting policy done) else none
  | .append term command => life.process.map fun process => life.append process term command
  | .snapshot => life.process.map life.snapshot
  | .crash => some { life with process := none }
  | .crashAppending term command amount =>
    life.process.map fun process => life.crashAppending process term command amount
  | .crashSnapshot done amount => life.process.map fun process => life.crashSnapshot process done amount

end Lifetime

/-! ### Going on after a recovery -/

section

variable {instrument : InstrumentId} {history : List LogEntry} {start : Nat}

/-- **A recovered log grows** into the recovered log of the longer history. -/
theorem recoveredLog_append (inside : start ≤ history.length) (term : Nat) (command : Command) :
    (recoveredLog history start history.length).append command term =
      (recoveredLog (history ++ [{ seq := history.length + 1, term, command }]) start (history.length + 1),
        history.length + 1) := by
  unfold recoveredLog CommandLog.append
  generalize next : ({ seq := history.length + 1, term, command } : LogEntry) = entry
  have whole : (history ++ [entry]).take (history.length + 1) = history ++ [entry] :=
    List.take_of_length_le (by rw [List.length_append, List.length_singleton])
  simp only [next, whole, List.take_length, List.drop_append_of_le_length inside,
    List.take_append_of_le_length inside]

/-- The term of the last entry, be it in the log or only in the snapshot. -/
theorem termAt_recoveredLog (numbered : Numbered history) (inside : start ≤ history.length) :
    ((recoveredLog history start history.length).termAt history.length).getD 0 =
      lastTerm LogEntry.term history := by
  have retains : CommandLog.Retains
      { recoveredLog history start history.length with snapshotSeq := 0 } history :=
    ⟨numbered, rfl, inside, by simp [recoveredLog], rfl⟩
  have found : (recoveredLog history start history.length).at? history.length =
      if start < history.length then history[history.length - 1]? else none := retains.at?_eq _
  unfold CommandLog.termAt
  rw [found]
  split_ifs with empty boundary behind
  · rw [List.length_eq_zero_iff.mp empty]
    rfl
  · obtain ⟨covered, _⟩ := boundary
    show lastTerm LogEntry.term (history.take start) = _
    replace covered : history.length = start := covered
    rw [← covered, List.take_length]
  · have last : history.length - 1 < history.length := by omega
    rw [lastTerm_eq LogEntry.term (by omega), List.getElem?_eq_getElem last]
    rfl
  · refine absurd ⟨Nat.le_antisymm (Nat.not_lt.mp behind) inside, ?_⟩ boundary
    show start ≠ 0
    omega

/-- **Engines that mirror each other have one snapshot.** -/
theorem snapshotRecord_mirrors {engine engine' : MatchingEngine} (mirrors : engine.Mirrors engine')
    (consistent : engine.Consistent) (consistent' : engine'.Consistent) (seq term : Nat) :
    DurableState.snapshotRecord engine seq term = DurableState.snapshotRecord engine' seq term := by
  have resting : ∀ side, engine.book.restingOrders side = engine'.book.restingOrders side := by
    intro side
    rw [OrderBook.restingOrders_eq_ladder, OrderBook.restingOrders_eq_ladder,
      mirrors.ladder consistent.book consistent'.book]
  have checksum : engine.stateChecksum = engine'.stateChecksum :=
    mirrors.stateChecksumOn consistent consistent' .little
  have snapshot : engine.snapshot = engine'.snapshot := by
    unfold MatchingEngine.snapshot
    rw [mirrors.instrument, mirrors.commandSeq, mirrors.eventSeq, mirrors.arrivalCounter, mirrors.lastTop,
      resting, resting]
  unfold DurableState.snapshotRecord
  rw [checksum, snapshot]

end

/-! ### What is there at any time -/

/-- The files hold a snapshot, or none, and all the entries behind it. -/
structure Directory (instrument : InstrumentId) (history : List LogEntry) (point : Option Nat) (dropped : Nat)
    (disk : Disk) : Prop where
  joined : dropped ≤ point.getD 0
  inside : point.getD 0 ≤ history.length
  onDisk : OnDisk instrument history point dropped history.length disk

/-- A process stands where the history leads, and its view of the log is what is in the file. -/
structure Process.Sound (instrument : InstrumentId) (history : List LogEntry) (point : Option Nat)
    (dropped : Nat) (disk : Disk) (process : Process) : Prop where
  log : ∃ start, start ≤ history.length ∧ process.log = recoveredLog history start history.length
  consistent : process.engine.Consistent
  mirrors : process.engine.Mirrors (engineAfter instrument history)
  isOpen : process.store.wal.isOpen = true
  records : process.store.wal.records = (history.drop dropped).map entryRecord
  file : (disk .log).getD [] = frames process.store.wal.records

structure Lifetime.Sound (life : Lifetime) : Prop where
  numbered : Numbered life.journalled
  terms : ∀ entry ∈ life.journalled, entry.term < 2 ^ 64
  held : ∃ point dropped, Directory life.instrument life.journalled point dropped life.disk ∧
    ∀ process ∈ life.process, process.Sound life.instrument life.journalled point dropped life.disk

section

variable {instrument : InstrumentId} {history : List LogEntry} {point : Option Nat} {dropped : Nat}
  {disk : Disk} {process : Process}

theorem Directory.readable (directory : Directory instrument history point dropped disk)
    (few : history.length ≤ kMaxOrders) : AllReadable instrument history point := by
  intro taken member
  have inside := directory.inside
  rw [member] at inside
  exact ⟨inside, orders_le_of_length_le few taken⟩

/-- A directory is its snapshot and its log; the log may end in a torn frame. -/
theorem Directory.of_files (joined : dropped ≤ point.getD 0) (inside : point.getD 0 ≤ history.length)
    (snapshot : disk .snapshot = point.map fun count => snapshotFile (snapshotAt instrument history count))
    {tail : Buffer} (log : (disk .log).getD [] = frames ((history.drop dropped).map entryRecord) ++ tail)
    (stops : readRecord tail = none) : Directory instrument history point dropped disk := by
  refine ⟨joined, inside, snapshot, tail, ?_, stops⟩
  rw [List.take_length]
  exact log

theorem storable_of_few (numbered : Numbered history) (terms : ∀ entry ∈ history, entry.term < 2 ^ 64)
    (few : history.length ≤ kMaxOrders) : Storable history :=
  ⟨numbered, terms, Nat.lt_of_le_of_lt (Nat.succ_le_succ few) (by decide)⟩

/-! ### Booting -/

/-- The calls of `open`: the file is there, and its torn end is cut off. -/
def openCalls (records : List WalRecord) (tail : Buffer) : List DiskOp :=
  .openOrCreate .log :: if tail = [] then [] else [.truncate .log (frames records).length]

theorem openLog_runs (wal : WriteAheadLog) {device : Device} (obliging : device.Obliging)
    (policy : SyncPolicy) {records : List WalRecord} {tail : Buffer}
    (file : (device.disk .log).getD [] = frames records ++ tail)
    (fit : ∀ record ∈ records, record.Fits) (stops : readRecord tail = none) :
    ∃ wal' device', wal.openLog device policy = (wal', device', true) ∧ wal'.isOpen = true ∧
      wal'.records = records ∧ device.Runs (openCalls records tail) device' := by
  have found := scan_frames fit stops (Nat.le_refl _)
  have offset : (frames records ++ tail).length - tail.length = (frames records).length := by
    rw [List.length_append, Nat.add_sub_cancel]
  have shorter : (frames records).length < (frames records ++ tail).length ↔ tail ≠ [] := by
    rw [List.length_append, ← List.length_pos_iff]
    omega
  unfold WriteAheadLog.openLog WriteAheadLog.replay openCalls
  rw [device.call_obliging obliging]
  simp only [Device.after, DiskOp.perform, Function.update_self, Option.getD_some, file, found, List.nil_append,
    offset, shorter]
  by_cases whole : tail = []
  · rw [if_neg (not_not.mpr whole), if_pos whole]
    refine ⟨_, _, rfl, rfl, rfl, ?_, rfl, rfl⟩
    simp [DiskOp.perform, Disk.performAll, file]
  · rw [if_pos whole, if_neg whole, Device.call_obliging (by exact obliging)]
    refine ⟨_, _, rfl, rfl, rfl, ?_, rfl, ?_⟩
    · simp [Device.after, DiskOp.perform, Disk.performAll, file]
    · simp [Device.after]

theorem performAll_openCalls {disk : Disk} {records : List WalRecord} {tail : Buffer}
    (file : (disk .log).getD [] = frames records ++ tail) :
    (disk.performAll (openCalls records tail) .log).getD [] = frames records ∧
      disk.performAll (openCalls records tail) .snapshot = disk .snapshot := by
  unfold openCalls
  split_ifs with whole
  · rw [whole, List.append_nil] at file
    simp [Disk.performAll, DiskOp.perform, file]
  · simp [Disk.performAll, DiskOp.perform, file]

/-- Opening the log can be cut short anywhere. -/
theorem crash_openCalls {disk : Disk} {records : List WalRecord} {tail : Buffer}
    (file : (disk .log).getD [] = frames records ++ tail) (stops : readRecord tail = none) (done : Nat) :
    disk.crash (openCalls records tail) done 0 .snapshot = disk .snapshot ∧
      ∃ tail', (disk.crash (openCalls records tail) done 0 .log).getD [] = frames records ++ tail' ∧
        readRecord tail' = none := by
  have all := performAll_openCalls file
  cases call : (openCalls records tail)[done]? with
  | none =>
    have crashed : disk.crash (openCalls records tail) done 0 = disk.performAll (openCalls records tail) := by
      unfold Disk.crash
      rw [call]
    rw [crashed]
    exact ⟨all.2, [], by rw [all.1, List.append_nil], readRecord_nil⟩
  | some op =>
    have inside := (List.getElem?_eq_some_iff.mp call).1
    have short : (openCalls records tail).length ≤ 2 := by
      unfold openCalls
      split_ifs <;> simp
    have early : done = 0 ∨ done = 1 := by omega
    rcases early with rfl | rfl
    · obtain rfl := Option.some.inj call
      exact ⟨rfl, tail, file, stops⟩
    · -- Only the cut is missing.
      unfold openCalls at call ⊢
      split_ifs at call ⊢ with whole
      · cases call
      · obtain rfl := Option.some.inj call
        refine ⟨?_, tail, ?_, stops⟩
        · simp [Disk.crash, DiskOp.performUpTo, Disk.performAll, DiskOp.perform]
        · simp [Disk.crash, DiskOp.performUpTo, Disk.performAll, DiskOp.perform, file]

/-- **Opening a directory** finds what it holds. -/
theorem Directory.openDir (directory : Directory instrument history point dropped disk)
    (storable : Storable history) (few : history.length ≤ kMaxOrders) (policy : SyncPolicy) :
    ∃ tail store device, ({} : DurableState).openDir { disk } policy = (store, device, true) ∧
      (disk .log).getD [] = frames ((history.drop dropped).map entryRecord) ++ tail ∧
        readRecord tail = none ∧ store.wal.isOpen = true ∧
          store.wal.records = (history.drop dropped).map entryRecord ∧
            store.snapshot = point.map (snapshotAt instrument history) ∧
              device.done = openCalls ((history.drop dropped).map entryRecord) tail ∧
                Directory instrument history point dropped device.disk ∧
                  (device.disk .log).getD [] = frames ((history.drop dropped).map entryRecord) := by
  obtain ⟨tail, file, stops⟩ := directory.onDisk.log
  rw [List.take_length] at file
  have fit : ∀ record ∈ (history.drop dropped).map entryRecord, record.Fits := by
    intro record member
    obtain ⟨entry, _, rfl⟩ := List.mem_map.mp member
    exact fits_entryRecord entry
  have obliging : Device.Obliging { disk } := fun _ => rfl
  obtain ⟨wal, device, opened, isOpen, records, runs⟩ := openLog_runs {} obliging policy file fit stops
  obtain ⟨log, kept⟩ := performAll_openCalls file
  replace log : (device.disk .log).getD [] = frames ((history.drop dropped).map entryRecord) := by
    rw [runs.disk]
    exact log
  replace kept : device.disk .snapshot =
      point.map fun count => snapshotFile (snapshotAt instrument history count) := by
    rw [runs.disk]
    exact kept.trans directory.onDisk.snapshot
  have snapshot : readSnapshotFile (device.disk .snapshot) = .ok (point.map (snapshotAt instrument history)) := by
    rw [kept]
    have readable := directory.readable few
    cases point with
    | none => rfl
    | some taken => exact readSnapshotFile_snapshotAt storable (readable taken rfl)
  unfold DurableState.openDir
  simp only [opened, snapshot]
  refine ⟨tail, _, _, rfl, file, stops, isOpen, records, rfl, runs.done, ?_, log⟩
  exact .of_files directory.joined directory.inside kept (log.trans (List.append_nil _).symm) readRecord_nil

variable (instrument history point) in
/-- **The recovered engine** mirrors the one that the history leads to. -/
theorem recoveredEngine_mirrors :
    (recoveredEngine instrument history point history.length).Consistent ∧
      (recoveredEngine instrument history point history.length).Mirrors (engineAfter instrument history) := by
  obtain ⟨consistent, mirrors⟩ := restoredEngine_mirrors instrument history point
  have whole : engineAfter instrument history =
      ((engineAfter instrument (history.take (point.getD 0))).applyAll
        ((history.drop (point.getD 0)).map (·.command))).1 := by
    unfold engineAfter MatchingEngine.replay
    rw [← MatchingEngine.applyAll_append, ← List.map_append, List.take_append_drop]
  unfold recoveredEngine
  rw [whole, List.take_length]
  exact ⟨MatchingEngine.applyAll_consistent consistent _,
    (mirrors.applyAll consistent (MatchingEngine.replay_consistent _ _) _).2⟩

namespace Lifetime

variable {life : Lifetime}

/-- **Every boot succeeds**, and goes on where the history ends. -/
theorem Sound.boot (sound : life.Sound) (few : life.journalled.length ≤ kMaxOrders) (policy : SyncPolicy) :
    (life.boot policy).Sound ∧ (life.boot policy).process.isSome = true := by
  obtain ⟨point, dropped, directory, _⟩ := sound.held
  have storable := storable_of_few sound.numbered sound.terms few
  obtain ⟨_, store, device, opened, _, _, isOpen, records, snapshot, _, after, file⟩ :=
    directory.openDir storable few policy
  have records' : store.wal.records =
      ((life.journalled.take life.journalled.length).drop dropped).map entryRecord := by
    rw [List.take_length]
    exact records
  obtain ⟨report, recovered⟩ := recover_eq storable (directory.readable few) (Nat.le_refl _) records' snapshot
  have all : reached (point.getD 0) dropped life.journalled.length = life.journalled.length := by
    unfold reached
    rw [if_pos directory.joined, Nat.max_eq_right directory.inside]
  rw [all] at recovered
  obtain ⟨consistent, mirrors⟩ := recoveredEngine_mirrors life.instrument life.journalled point
  unfold Lifetime.boot
  simp only [opened, recovered]
  refine ⟨⟨sound.numbered, sound.terms, point, dropped, after, ?_⟩, rfl⟩
  intro process started
  obtain rfl := Option.some.inj started
  exact
    { log := ⟨point.getD 0, directory.inside, rfl⟩
      consistent, mirrors, isOpen, records
      file := file.trans (congrArg frames records.symm) }

/-- **A crash while the directory is opened** leaves what was there. -/
theorem Sound.crashBooting (sound : life.Sound) (few : life.journalled.length ≤ kMaxOrders)
    (down : life.process = none) (policy : SyncPolicy) (done : Nat) :
    (life.crashBooting policy done).Sound := by
  obtain ⟨point, dropped, directory, _⟩ := sound.held
  have storable := storable_of_few sound.numbered sound.terms few
  obtain ⟨tail, store, device, opened, file, stops, _, _, _, calls, _⟩ := directory.openDir storable few policy
  obtain ⟨snapshot, tail', log, stops'⟩ := crash_openCalls file stops done
  have after : Directory life.instrument life.journalled point dropped
      (life.disk.crash (openCalls ((life.journalled.drop dropped).map entryRecord) tail) done 0) :=
    .of_files directory.joined directory.inside (snapshot.trans directory.onDisk.snapshot) log stops'
  unfold Lifetime.crashBooting
  rw [opened]
  dsimp only
  rw [calls]
  refine ⟨sound.numbered, sound.terms, point, dropped, after, fun process running => ?_⟩
  rw [Option.mem_def, down] at running
  cases running

end Lifetime

/-! ### Appending -/

theorem Process.appendEntry_runs (process : Process) (isOpen : process.store.wal.isOpen = true) (disk : Disk)
    (term : UInt64) (command : Command) :
    ∃ wal device, process.appendEntry disk term command = ({ process.store with wal }, device, true) ∧
      wal.isOpen = true ∧
        wal.records = process.store.wal.records ++ [entryRecord (process.nextEntry term command)] ∧
          Device.Runs { disk } [.write .log (entryRecord (process.nextEntry term command)).frame] device := by
  have obliging : Device.Obliging { disk } := fun _ => rfl
  obtain ⟨wal, device, appended, isOpen', added, runs⟩ :=
    WriteAheadLog.append_runs isOpen obliging (fits_entryRecord (process.nextEntry term command))
  refine ⟨wal, device, ?_, isOpen', added, runs⟩
  replace appended : process.store.wal.append { disk } (UInt32.ofNat (process.nextEntry term command).seq)
    (encodeLogEntry (process.nextEntry term command)) = _ := appended
  unfold Process.appendEntry DurableState.appendEntry
  rw [appended]

theorem Process.Sound.nextEntry_eq (sound : process.Sound instrument history point dropped disk) (term : UInt64)
    (command : Command) :
    process.nextEntry term command = { seq := history.length + 1, term := term.toNat, command } := by
  obtain ⟨start, _, log⟩ := sound.log
  unfold Process.nextEntry
  rw [log]
  rfl

/-- What is written of a frame is behind all that was there. -/
theorem perform_write (disk : Disk) (bytes : Buffer) :
    (DiskOp.perform disk (.write .log bytes) .log).getD [] = (disk .log).getD [] ++ bytes ∧
      DiskOp.perform disk (.write .log bytes) .snapshot = disk .snapshot := by
  simp [DiskOp.perform]

/-- **A frame in front of which nothing is missing** makes the directory one of the longer history. -/
theorem Directory.extend (directory : Directory instrument history point dropped disk)
    (file : (disk .log).getD [] = frames ((history.drop dropped).map entryRecord)) (entry : LogEntry) :
    Directory instrument (history ++ [entry]) point dropped
      (DiskOp.perform disk (.write .log (entryRecord entry).frame)) := by
  obtain ⟨log, kept⟩ := perform_write disk (entryRecord entry).frame
  have inside := directory.inside
  refine .of_files directory.joined ?_ ?_ ?_ readRecord_nil
  · rw [List.length_append]
    exact Nat.le_add_right_of_le inside
  · exact kept.trans (directory.onDisk.extend inside (Nat.le_refl _) [entry]).snapshot
  · rw [log, file, List.drop_append_of_le_length (directory.joined.trans inside), List.map_append,
      frames_append, List.append_nil]
    simp

namespace Lifetime

variable {life : Lifetime}

theorem Sound.numbered_append (sound : life.Sound) (entry : LogEntry) {term : UInt64}
    (seq : entry.seq = life.journalled.length + 1) (ofTerm : entry.term = term.toNat) :
    Numbered (life.journalled ++ [entry]) ∧ ∀ other ∈ life.journalled ++ [entry], other.term < 2 ^ 64 := by
  refine ⟨sound.numbered.append seq, fun other member => ?_⟩
  rcases List.mem_append.mp member with old | new
  · exact sound.terms other old
  · rw [List.mem_singleton.mp new, ofTerm]
    exact term.toNat_lt

/-- **An append is acknowledged, and applied.** -/
theorem Sound.append (sound : life.Sound) {process : Process} (running : process ∈ life.process)
    (term : UInt64) (command : Command) : (life.append process term command).Sound := by
  obtain ⟨point, dropped, directory, runningSound⟩ := sound.held
  have up := runningSound process running
  have entry := up.nextEntry_eq term command
  obtain ⟨wal, device, appended, isOpen, added, runs⟩ :=
    process.appendEntry_runs up.isOpen life.disk term command
  obtain ⟨start, inside, log⟩ := up.log
  obtain ⟨numbered, terms⟩ := sound.numbered_append (process.nextEntry term command)
    (congrArg LogEntry.seq entry) rfl
  have file := up.file
  rw [up.records] at file
  have after := directory.extend file (process.nextEntry term command)
  have disk : device.disk =
      DiskOp.perform life.disk (.write .log (entryRecord (process.nextEntry term command)).frame) := runs.disk
  have records : wal.records =
      ((life.journalled ++ [process.nextEntry term command]).drop dropped).map entryRecord := by
    rw [added, up.records, List.drop_append_of_le_length (directory.joined.trans directory.inside),
      List.map_append]
    rfl
  have whole := MatchingEngine.replay_consistent life.instrument (life.journalled.map (·.command))
  have grown : engineAfter life.instrument (life.journalled ++ [process.nextEntry term command]) =
      ((engineAfter life.instrument life.journalled).apply command).1 := by
    unfold engineAfter MatchingEngine.replay
    rw [List.map_append, MatchingEngine.applyAll_append]
    rfl
  unfold Lifetime.append
  rw [appended]
  dsimp only
  refine ⟨numbered, terms, point, dropped, disk ▸ after, fun other started => ?_⟩
  obtain rfl := Option.some.inj started
  exact
    { log := by
        refine ⟨start, ?_, ?_⟩
        · rw [List.length_append]
          exact Nat.le_add_right_of_le inside
        · rw [log, recoveredLog_append inside, List.length_append, entry]
          rfl
      consistent := MatchingEngine.apply_consistent up.consistent command
      mirrors := by
        rw [grown]
        exact (up.mirrors.apply up.consistent whole command).2
      isOpen, records
      file := by
        rw [disk, (perform_write _ _).1, up.file]
        show _ = frames wal.records
        rw [added, frames_append, frames_singleton] }

/-- **A crash in an append** leaves the entry if its last byte was written, and else nothing of it. -/
theorem Sound.crashAppending (sound : life.Sound) {process : Process} (running : process ∈ life.process)
    (term : UInt64) (command : Command) (amount : Nat) :
    (life.crashAppending process term command amount).Sound := by
  obtain ⟨point, dropped, directory, runningSound⟩ := sound.held
  have up := runningSound process running
  have entry := up.nextEntry_eq term command
  obtain ⟨wal, device, appended, _, _, runs⟩ := process.appendEntry_runs up.isOpen life.disk term command
  have file := up.file
  rw [up.records] at file
  have crashed : life.disk.crash device.done 0 amount = DiskOp.perform life.disk
      (.write .log ((entryRecord (process.nextEntry term command)).frame.take amount)) := by
    rw [runs.done]
    rfl
  unfold Lifetime.crashAppending
  rw [appended]
  dsimp only
  rw [crashed]
  split_ifs with whole
  · obtain ⟨numbered, terms⟩ := sound.numbered_append (process.nextEntry term command)
      (congrArg LogEntry.seq entry) rfl
    rw [List.take_of_length_le whole]
    exact ⟨numbered, terms, point, dropped, directory.extend file _, fun _ none => nomatch none⟩
  · obtain ⟨log, kept⟩ := perform_write life.disk
      ((entryRecord (process.nextEntry term command)).frame.take amount)
    refine ⟨sound.numbered, sound.terms, point, dropped, ?_, fun _ none => nomatch none⟩
    exact .of_files directory.joined directory.inside (kept.trans directory.onDisk.snapshot)
      (log.trans (congrArg (· ++ _) file)) (readRecord_take (fits_entryRecord _) (Nat.lt_of_not_le whole))

end Lifetime

/-! ### Taking a snapshot -/

/-- **The snapshot of the engine as it is** covers the whole log, which is emptied. -/
theorem Process.Sound.takeSnapshot_runs (sound : process.Sound instrument history point dropped disk)
    (directory : Directory instrument history point dropped disk) (numbered : Numbered history)
    (few : history.length ≤ kMaxOrders) :
    ∃ store device, process.takeSnapshot disk = (store, device, true) ∧ store.wal.isOpen = true ∧
      store.wal.records = [] ∧ Device.Runs { disk }
        (replaceSnapshot (snapshotFile (snapshotAt instrument history history.length)) ++ rewriteLog [])
          device := by
  have obliging : Device.Obliging { disk } := fun _ => rfl
  have fit : ∀ record ∈ process.store.wal.records, record.Fits := by
    intro record member
    rw [sound.records] at member
    obtain ⟨entry, _, rfl⟩ := List.mem_map.mp member
    exact fits_entryRecord entry
  obtain ⟨start, inside, log⟩ := sound.log
  have head : process.log.lastSeq = history.length := congrArg CommandLog.lastSeq log
  have record : DurableState.snapshotRecord process.engine process.log.lastSeq
      ((process.log.termAt process.log.lastSeq).getD 0) = snapshotAt instrument history history.length := by
    rw [head, log, termAt_recoveredLog numbered inside,
      snapshotRecord_mirrors sound.mirrors sound.consistent (MatchingEngine.replay_consistent _ _)]
    unfold snapshotAt
    rw [List.take_length]
  have nothing := filter_entryRecord numbered (Nat.lt_of_le_of_lt few (by decide)) (Nat.le_refl history.length)
    dropped
  rw [← sound.records, Nat.max_eq_right (directory.joined.trans directory.inside), List.drop_length,
    List.map_nil, ← head] at nothing
  obtain ⟨store, device, taken, isOpen, _, records, runs⟩ := Sententia.takeSnapshot_runs sound.isOpen obliging fit
    process.engine process.log.lastSeq ((process.log.termAt process.log.lastSeq).getD 0)
  rw [nothing] at records runs
  rw [record] at runs
  exact ⟨store, device, taken, isOpen, records, runs⟩

/-- The new snapshot, and nothing behind it. -/
theorem directory_snapshot
    (snapshot : disk .snapshot = some (snapshotFile (snapshotAt instrument history history.length)))
    (log : (disk .log).getD [] = []) :
    Directory instrument history (some history.length) history.length disk := by
  refine .of_files (Nat.le_refl _) (Nat.le_refl _) snapshot ?_ readRecord_nil
  rw [log, List.drop_length]
  rfl

/-- **A snapshot can be cut short anywhere**: there is the old one and the log behind it, or the new one and
the log behind the old one, or the new one alone. -/
theorem Directory.crash_snapshot (directory : Directory instrument history point dropped disk)
    (file : (disk .log).getD [] = frames ((history.drop dropped).map entryRecord)) (done amount : Nat) :
    ∃ point' dropped', Directory instrument history point' dropped' (disk.crash
      (replaceSnapshot (snapshotFile (snapshotAt instrument history history.length)) ++ rewriteLog [])
        done amount) := by
  generalize written : snapshotFile (snapshotAt instrument history history.length) = bytes
  obtain ⟨snapshot, log⟩ := performAll_replaceSnapshot disk bytes
  rcases Nat.lt_or_ge done 3 with before | beyond
  · rw [Disk.crash_append_left _ _ _ _ before]
    obtain ⟨snapshot', log'⟩ := crash_replaceSnapshot disk bytes (Nat.le_of_lt_succ before) amount
    refine ⟨point, dropped, .of_files directory.joined directory.inside
      (snapshot'.trans directory.onDisk.snapshot) ?_ readRecord_nil⟩
    rw [log', file, List.append_nil]
  · obtain ⟨more, rfl⟩ := Nat.exists_eq_add_of_le beyond
    have calls : 3 + more = (replaceSnapshot bytes).length + more := rfl
    rw [calls, Disk.crash_append_right]
    cases more with
    | zero =>
      refine ⟨some history.length, dropped, .of_files (directory.joined.trans directory.inside) (Nat.le_refl _)
        (snapshot.trans (congrArg some written.symm)) ?_ readRecord_nil⟩
      show (disk.performAll (replaceSnapshot bytes) .log).getD [] = _
      rw [log, file, List.append_nil]
    | succ more =>
      obtain ⟨emptied, kept⟩ := performAll_rewriteLog (disk.performAll (replaceSnapshot bytes)) []
      refine ⟨some history.length, history.length, directory_snapshot ?_ emptied⟩
      exact kept.trans (snapshot.trans (congrArg some written.symm))

namespace Lifetime

variable {life : Lifetime}

theorem Sound.snapshot (sound : life.Sound) (few : life.journalled.length ≤ kMaxOrders) {process : Process}
    (running : process ∈ life.process) : (life.snapshot process).Sound := by
  obtain ⟨point, dropped, directory, runningSound⟩ := sound.held
  have up := runningSound process running
  obtain ⟨store, device, taken, isOpen, records, runs⟩ := up.takeSnapshot_runs directory sound.numbered few
  obtain ⟨snapshot, _⟩ := performAll_replaceSnapshot life.disk
    (snapshotFile (snapshotAt life.instrument life.journalled life.journalled.length))
  obtain ⟨emptied, kept⟩ := performAll_rewriteLog (life.disk.performAll (replaceSnapshot
    (snapshotFile (snapshotAt life.instrument life.journalled life.journalled.length)))) []
  have disk := runs.disk
  unfold Disk.performAll at disk
  rw [List.foldl_append] at disk
  have log : (device.disk .log).getD [] = [] := by
    rw [disk]
    exact emptied
  have after : Directory life.instrument life.journalled (some life.journalled.length) life.journalled.length
      device.disk := directory_snapshot (by rw [disk]; exact kept.trans snapshot) log
  unfold Lifetime.snapshot
  rw [taken]
  dsimp only
  refine ⟨sound.numbered, sound.terms, some life.journalled.length, life.journalled.length, after, ?_⟩
  intro other started
  obtain rfl := Option.some.inj started
  exact
    { log := up.log
      consistent := up.consistent
      mirrors := up.mirrors
      isOpen
      records := by
        rw [List.drop_length]
        exact records
      file := by
        show _ = frames store.wal.records
        rw [log, records]
        rfl }

theorem Sound.crashSnapshot (sound : life.Sound) (few : life.journalled.length ≤ kMaxOrders)
    {process : Process} (running : process ∈ life.process) (done amount : Nat) :
    (life.crashSnapshot process done amount).Sound := by
  obtain ⟨point, dropped, directory, runningSound⟩ := sound.held
  have up := runningSound process running
  obtain ⟨store, device, taken, _, _, runs⟩ := up.takeSnapshot_runs directory sound.numbered few
  have file := up.file
  rw [up.records] at file
  obtain ⟨point', dropped', after⟩ := directory.crash_snapshot file done amount
  have calls : device.done = _ := runs.done
  unfold Lifetime.crashSnapshot
  rw [taken]
  dsimp only
  rw [calls]
  exact ⟨sound.numbered, sound.terms, point', dropped', after, fun _ none => nomatch none⟩

/-! ### Every life -/

theorem journalled_boot (life : Lifetime) (policy : SyncPolicy) :
    (life.boot policy).journalled = life.journalled := by
  unfold boot
  split
  · rfl
  · split <;> rfl

theorem journalled_append (life : Lifetime) (process : Process) (term : UInt64) (command : Command) :
    life.journalled <+: (life.append process term command).journalled := by
  unfold append
  split
  · exact List.prefix_rfl
  · exact List.prefix_append _ _

/-- What is journalled stays journalled. -/
theorem journalled_step {next : Lifetime} {step : LifeStep} (moved : life.step step = some next) :
    life.journalled <+: next.journalled := by
  cases step with
  | boot policy =>
    obtain ⟨_, moved⟩ := Option.ite_none_right_eq_some.mp moved
    obtain rfl := Option.some.inj moved
    rw [journalled_boot]
  | crashBooting policy done =>
    obtain ⟨_, moved⟩ := Option.ite_none_right_eq_some.mp moved
    obtain rfl := Option.some.inj moved
    exact List.prefix_rfl
  | append term command =>
    obtain ⟨process, _, rfl⟩ := Option.map_eq_some_iff.mp moved
    exact life.journalled_append process term command
  | snapshot =>
    obtain ⟨process, _, rfl⟩ := Option.map_eq_some_iff.mp moved
    exact List.prefix_rfl
  | crash =>
    obtain rfl := Option.some.inj moved
    exact List.prefix_rfl
  | crashAppending term command amount =>
    obtain ⟨process, _, rfl⟩ := Option.map_eq_some_iff.mp moved
    unfold crashAppending
    dsimp only
    split_ifs
    · exact List.prefix_append _ _
    · exact List.prefix_rfl
  | crashSnapshot done amount =>
    obtain ⟨process, _, rfl⟩ := Option.map_eq_some_iff.mp moved
    exact List.prefix_rfl

/-- **Every step keeps the invariant.** -/
theorem Sound.step (sound : life.Sound) (few : life.journalled.length ≤ kMaxOrders) {step : LifeStep}
    {next : Lifetime} (moved : life.step step = some next) : next.Sound := by
  cases step with
  | boot policy =>
    obtain ⟨_, moved⟩ := Option.ite_none_right_eq_some.mp moved
    obtain rfl := Option.some.inj moved
    exact (sound.boot few policy).1
  | crashBooting policy done =>
    obtain ⟨down, moved⟩ := Option.ite_none_right_eq_some.mp moved
    obtain rfl := Option.some.inj moved
    exact sound.crashBooting few (Option.isNone_iff_eq_none.mp down) policy done
  | append term command =>
    obtain ⟨process, running, rfl⟩ := Option.map_eq_some_iff.mp moved
    exact sound.append running term command
  | snapshot =>
    obtain ⟨process, running, rfl⟩ := Option.map_eq_some_iff.mp moved
    exact sound.snapshot few running
  | crash =>
    obtain rfl := Option.some.inj moved
    obtain ⟨point, dropped, directory, _⟩ := sound.held
    exact ⟨sound.numbered, sound.terms, point, dropped, directory, fun _ none => nomatch none⟩
  | crashAppending term command amount =>
    obtain ⟨process, running, rfl⟩ := Option.map_eq_some_iff.mp moved
    exact sound.crashAppending running term command amount
  | crashSnapshot done amount =>
    obtain ⟨process, running, rfl⟩ := Option.map_eq_some_iff.mp moved
    exact sound.crashSnapshot few running done amount

theorem sound_fresh (instrument : InstrumentId) : Sound { instrument } where
  numbered := Numbered.nil
  terms := List.forall_mem_nil _
  held := ⟨none, 0, .of_files (Nat.le_refl _) (Nat.le_refl _) rfl rfl readRecord_nil, fun _ none => nomatch none⟩

/-- What a node may rely on. -/
structure Intact (life : Lifetime) : Prop where
  boots : life.process = none → ∀ policy, (life.boot policy).process.isSome = true
  rebuilt : ∀ process ∈ life.process,
    Rebuilt life.instrument life.journalled process.engine process.log
  acknowledges : ∀ process ∈ life.process, ∀ term command,
    (life.append process term command).journalled = life.journalled ++ [process.nextEntry term command]

theorem Sound.intact (sound : life.Sound) (few : life.journalled.length ≤ kMaxOrders) : life.Intact := by
  obtain ⟨point, dropped, _, runningSound⟩ := sound.held
  refine ⟨fun _ policy => (sound.boot few policy).2, fun process running => ?_,
    fun process running term command => ?_⟩
  · have up := runningSound process running
    obtain ⟨start, _, log⟩ := up.log
    refine ⟨up.mirrors.sameState up.consistent (MatchingEngine.replay_consistent _ _), ?_, ?_⟩
    · rw [log]
      rfl
    · rw [log]
      unfold recoveredLog
      rw [List.take_length]
  · obtain ⟨wal, device, appended, _⟩ :=
      process.appendEntry_runs (runningSound process running).isOpen life.disk term command
    unfold Lifetime.append
    rw [appended]

/-- **Nothing that was acknowledged is lost in a node's lifetime**, however many processes it takes and
wherever they stop. -/
theorem lifetime_intact (instrument : InstrumentId) (steps : List LifeStep) :
    Always Lifetime.step (fun life => life.journalled.length ≤ kMaxOrders → life.Intact) { instrument } steps :=
  always_of_guarded (fun life => life.journalled.length ≤ kMaxOrders → life.Sound)
    (fun sound _ moved few =>
      have before := (journalled_step moved).length_le.trans few
      (sound before).step before moved)
    (fun sound few => (sound few).intact few) (fun _ => sound_fresh instrument) (guarded_true _ _)

end Lifetime

end

end Sententia
