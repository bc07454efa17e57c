/-
**Installing a received snapshot** (`DurableState::installSnapshot`). The snapshot is restored into the live
engine before its checksum is compared and before its file is written, and the file takes the place of the
stored one before the directory is flushed. What a failure leaves depends on how far the call has got.

* `installSnapshot` — the call, and where it returned.
* `Install.Unchanged` — nothing the node has, in memory or on disk, is different.
* `rebuilt_eq` — what a restart rebuilds depends on the record and the log that it finds.
* `rebuildsSame_withSnapshot_iff` — when the received file in place of the stored one makes no difference.
* `restore_succeeds_unchanged_iff` — when a restore that succeeds changes nothing.
* `installSnapshot_unchanged_iff` — when a call that fails before the reset of the log changes nothing.
-/

import Sententia.Engine.FailedRestore
import Sententia.Storage.Recovery

namespace Sententia

open Library

/-- Where `installSnapshot` returned. -/
inductive InstallResult
  /-- "received snapshot did not restore" -/
  | notRestored
  /-- "received snapshot restored to a different state than it claims" -/
  | otherState
  | notWritten
  | installed (reset : Bool)
deriving Repr, DecidableEq

/-- The result of the call as the source has it. -/
def InstallResult.ok : InstallResult → Bool
  | .installed reset => reset
  | _ => false

/-- Everything that `installSnapshot` has in its hands. -/
structure Install where
  state : DurableState
  device : Device
  engine : MatchingEngine
  log : CommandLog
  result : InstallResult

def DurableState.installSnapshot (state : DurableState) (device : Device) (snap : SnapshotRecord)
    (engine : MatchingEngine) (log : CommandLog) : Install :=
  match engine.restore snap.engine with
  | (engine, false) => { state, device, engine, log, result := .notRestored }
  | (engine, true) =>
    if engine.stateChecksum ≠ snap.stateChecksum then
      { state, device, engine, log, result := .otherState }
    else
      match writeSnapshotFile device snap with
      | (device, false) => { state, device, engine, log, result := .notWritten }
      | (device, true) =>
        let log := log.clear.setSnapshotBoundary snap.lastIncludedSeq snap.lastIncludedTerm
        let (wal, device, reset) := state.wal.reset device
        { state := { state with snapshot := some snap, wal }, device, engine, log,
          result := .installed reset }

/-! ### What a restart depends on -/

/-- Two disks with the same vote file, log and snapshot. -/
structure Disk.Agree (first second : Disk) : Prop where
  state : first .state = second .state
  log : first .log = second .log
  snapshot : first .snapshot = second .snapshot

theorem Disk.Agree.refl (disk : Disk) : disk.Agree disk := ⟨rfl, rfl, rfl⟩

/-- A temporary file is none of them. -/
theorem Disk.agree_update (disk : Disk) (content : Option Buffer) :
    Disk.Agree (Function.update disk .snapshotTemp content) disk where
  state := Function.update_of_ne (by decide) _ _
  log := Function.update_of_ne (by decide) _ _
  snapshot := Function.update_of_ne (by decide) _ _

/-- The record that `open` finds in a snapshot file; one that does not verify counts as none. -/
def recordIn (file : Option Buffer) : Option SnapshotRecord :=
  match readSnapshotFile file with
  | .ok snapshot => snapshot
  | .error _ => none

/-- The records that `open` finds in a log. -/
def recordsIn (file : Option Buffer) : List WalRecord :=
  (scan readRecord (file.getD []).length (file.getD [])).1

/-- The log that starts where a record ends. -/
def SnapshotRecord.startLog (snap : SnapshotRecord) : CommandLog :=
  ({} : CommandLog).setSnapshotBoundary snap.lastIncludedSeq snap.lastIncludedTerm

/-- What the log's records make of an engine that is restored from a record. -/
def SnapshotRecord.replayed (snap : SnapshotRecord) (records : List WalRecord) : MatchingEngine × CommandLog :=
  let engine := (({ instrument := snap.engine.instrument } : MatchingEngine).restore snap.engine).1
  let (engine, log, _) := DurableState.replayRecords snap.lastIncludedSeq records engine snap.startLog 0
  (engine, log)

/-- What a restart rebuilds: the engine and the log. -/
def rebuilt (instrument : InstrumentId) (policy : SyncPolicy) (disk : Disk) :
    Option (MatchingEngine × CommandLog) :=
  (restart instrument policy disk).2.map fun (engine, log, _) => (engine, log)

/-- What a restart rebuilds from what it finds. -/
def rebuiltFrom (instrument : InstrumentId) (records : List WalRecord) :
    Option SnapshotRecord → Option (MatchingEngine × CommandLog)
  | none =>
    let (engine, log, _) := DurableState.replayRecords 0 records { instrument } {} 0
    some (engine, log)
  | some snap => if snap.engine.instrument = instrument then some (snap.replayed records) else none

/-- A record that is read from a file restores. -/
theorem restores_of_readSnapshotFile {file : Option Buffer} {snap : SnapshotRecord}
    (read : readSnapshotFile file = .ok (some snap)) :
    (({ instrument := snap.engine.instrument } : MatchingEngine).restore snap.engine).2 = true := by
  unfold readSnapshotFile at read
  split at read
  · cases read
  · dsimp only at read
    split_ifs at read
    split at read
    · cases read
    · split at read
      · cases read
      · next restored =>
        split_ifs at read
        obtain rfl := Option.some.inj (Except.ok.inj read)
        rw [restored]

/-- A record that `open` finds restores. -/
theorem restores_of_recordIn {file : Option Buffer} {snap : SnapshotRecord} (found : recordIn file = some snap) :
    (({ instrument := snap.engine.instrument } : MatchingEngine).restore snap.engine).2 = true := by
  unfold recordIn at found
  cases read : readSnapshotFile file with
  | error reason =>
    rw [read] at found
    cases found
  | ok stored =>
    rw [read] at found
    obtain rfl : stored = some snap := found
    exact restores_of_readSnapshotFile read

/-- A restore into an engine of another instrument is refused. -/
theorem restore_foreign {engine : MatchingEngine} {snap : EngineSnapshot}
    (foreign : snap.instrument ≠ engine.instrument) : engine.restore snap = (engine, false) := by
  unfold MatchingEngine.restore
  rw [if_pos foreign]

/-- **What a restart rebuilds** depends on the record and the log that it finds. -/
theorem rebuilt_eq (instrument : InstrumentId) (policy : SyncPolicy) (disk : Disk) :
    rebuilt instrument policy disk =
      rebuiltFrom instrument (recordsIn (disk .log)) (recordIn (disk .snapshot)) := by
  obtain ⟨records, tail, file, fit, stops, scanned⟩ := scan_file ((disk .log).getD [])
  have obliging : Device.Obliging { disk } := fun _ => rfl
  obtain ⟨device, opened, _, after⟩ := WriteAheadLog.openLog_eq {} obliging policy file fit stops
  have snapshot : device.disk .snapshot = disk .snapshot := by
    rw [after, Function.update_of_ne (by decide)]
  have found : recordsIn (disk .log) = records := congrArg Prod.fst scanned
  have openDir : ∃ wal, wal.records = records ∧ ({} : DurableState).openDir { disk } policy =
      ({ wal, stable := StableState.load (disk .state), snapshot := recordIn (disk .snapshot) }, device, true) := by
    unfold DurableState.openDir
    simp only [opened, snapshot]
    exact ⟨_, rfl, rfl⟩
  obtain ⟨wal, sameRecords, openDir⟩ := openDir
  rw [found]
  unfold rebuilt restart
  rw [openDir]
  dsimp only
  unfold DurableState.recover DurableState.replayLog
  dsimp only
  rw [sameRecords]
  cases stored : recordIn (disk .snapshot) with
  | none => rfl
  | some snap =>
    dsimp only [rebuiltFrom]
    by_cases own : snap.engine.instrument = instrument
    · subst own
      have restores := restores_of_recordIn stored
      rw [if_pos rfl]
      unfold SnapshotRecord.replayed
      generalize ({ instrument := snap.engine.instrument } : MatchingEngine).restore snap.engine = result
        at restores
      obtain ⟨engine, succeeded⟩ := result
      cases restores
      rfl
    · have refused : ({ instrument } : MatchingEngine).restore snap.engine = ({ instrument }, false) :=
        restore_foreign own
      rw [refused, if_neg own]
      rfl

/-! ### What a failed write leaves -/

namespace Device

/-- A call that is answered so completes. -/
def Completes (device : Device) (after : Nat) (op : DiskOp) : Prop :=
  ∀ amount ∈ device.answers (device.calls + after), op.size ≤ amount

/-- `writeSnapshotFile` gets as far as the rename. -/
def Renames (device : Device) (snap : SnapshotRecord) : Prop :=
  device.Completes 0 (.create .snapshotTemp) ∧
    device.Completes 1 (.write .snapshotTemp (snapshotFile snap)) ∧
      device.answers (device.calls + 2) = none ∧
        device.Completes 3 (.rename .snapshotTemp .snapshot)

/-- The files with a received snapshot in place of the stored one. -/
def withSnapshot (device : Device) (snap : SnapshotRecord) : Disk :=
  Function.update device.disk .snapshot (some (snapshotFile snap))

theorem completes_after (device : Device) (op op' : DiskOp) (n : Nat) :
    (device.after op').Completes n op ↔ device.Completes (n + 1) op := by
  unfold Completes after
  rw [Nat.add_right_comm, Nat.add_assoc]

theorem call_of_not_completes {device : Device} {op : DiskOp} (fails : ¬ device.Completes 0 op) :
    ∃ amount, device.call op =
      ({ device with
          disk := op.performUpTo device.disk amount
          calls := device.calls + 1 }, false) := by
  unfold Completes at fails
  push Not at fails
  obtain ⟨amount, answered, short⟩ := fails
  exact ⟨amount, device.call_fails answered short⟩

end Device

/-- The files once the temporary file is written. -/
theorem disk_written (device : Device) (bytes : Buffer) :
    ((device.after (.create .snapshotTemp)).after (.write .snapshotTemp bytes)).disk =
      Function.update device.disk .snapshotTemp (some bytes) := by
  simp [Device.after, DiskOp.perform]

/-- What `writeSnapshotFile` leaves, whether or not it fails. -/
theorem writeSnapshotFile_agree (device : Device) (snap : SnapshotRecord) :
    (¬ device.Renames snap → (writeSnapshotFile device snap).1.disk.Agree device.disk) ∧
      (device.Renames snap →
        (writeSnapshotFile device snap).1.disk.Agree (device.withSnapshot snap)) := by
  have temporary := device.disk.agree_update
  unfold writeSnapshotFile Device.Renames Device.withSnapshot
  generalize snapshotFile snap = bytes
  by_cases created : device.Completes 0 (.create .snapshotTemp)
  · by_cases written : device.Completes 1 (.write .snapshotTemp bytes)
    · have written₁ := (device.completes_after (.write .snapshotTemp bytes) (.create .snapshotTemp) 0).mpr written
      have disk := disk_written device bytes
      rw [device.call_completes created]
      dsimp only
      rw [Device.call_completes written₁]
      dsimp only
      generalize full : (device.after (.create .snapshotTemp)).after (.write .snapshotTemp bytes) = whole
        at disk ⊢
      have calls : whole.calls = device.calls + 2 := full ▸ rfl
      have answers : whole.answers = device.answers := full ▸ rfl
      unfold Device.flush
      rw [answers, calls]
      cases flushed : device.answers (device.calls + 2) with
      | some amount =>
        refine ⟨fun _ => ?_, fun renames => absurd renames.2.2.1 nofun⟩
        show whole.disk.Agree device.disk
        rw [disk]
        exact temporary _
      | none =>
        dsimp only [Option.isNone_none]
        have last : Device.Completes
            { whole with answers := device.answers, calls := device.calls + 2 + 1 } 0
            (.rename .snapshotTemp .snapshot) ↔ device.Completes 3 (.rename .snapshotTemp .snapshot) :=
          Iff.rfl
        by_cases renamed : device.Completes 3 (.rename .snapshotTemp .snapshot)
        · rw [Device.call_completes (last.mpr renamed)]
          refine ⟨fun cut => absurd ⟨created, written, rfl, renamed⟩ cut, fun _ => ?_⟩
          show Disk.Agree (Function.update (Function.update whole.disk _ (whole.disk _)) _ none) _
          rw [disk, Function.update_self]
          exact ⟨by simp, by simp, by simp⟩
        · obtain ⟨amount, failed⟩ := Device.call_of_not_completes (last.not.mpr renamed)
          rw [failed]
          refine ⟨fun _ => ?_, fun renames => absurd renames.2.2.2 renamed⟩
          show whole.disk.Agree device.disk
          rw [disk]
          exact temporary _
    · have failed := (device.completes_after _ (.create .snapshotTemp) 0).not.mpr written
      obtain ⟨amount, failed⟩ := Device.call_of_not_completes failed
      rw [device.call_completes created]
      dsimp only
      rw [failed]
      refine ⟨fun _ => ?_, fun renames => absurd renames.2.1 written⟩
      show Disk.Agree (Function.update (Function.update device.disk _ _) .snapshotTemp _) device.disk
      rw [Function.update_idem]
      exact temporary _
  · obtain ⟨amount, failed⟩ := Device.call_of_not_completes created
    rw [failed]
    exact ⟨fun _ => .refl _, fun renames => absurd renames.1 created⟩

/-! ### What a restore leaves -/

namespace OrderBook

/-- A rebuild that succeeds meets no repeat. -/
theorem beforeRepeat_of_restAll (book : OrderBook) (seen orders : List RestingOrder)
    (known : ∀ id, book.contains id = seen.any fun earlier => earlier.id = id)
    (succeeded : (MatchingEngine.restAll book orders).2 = true) : beforeRepeat seen orders = orders := by
  induction orders generalizing book seen with
  | nil => rfl
  | cons order rest ih =>
    unfold beforeRepeat
    split_ifs with repeated
    · simp only [MatchingEngine.restAll, known, if_pos repeated] at succeeded
      cases succeeded
    · simp only [MatchingEngine.restAll, known, if_neg repeated] at succeeded
      rw [ih (book.rest order) (seen ++ [order]) (fun id => ?_) succeeded]
      rw [contains_rest, known, List.any_append]
      simp

end OrderBook

namespace MatchingEngine

/-- The engine is in the state of a snapshot already. -/
structure Shows (engine : MatchingEngine) (snap : EngineSnapshot) : Prop where
  commandSeq : engine.commandSeq = snap.commandSeq
  eventSeq : engine.eventSeq = snap.eventSeq
  arrivalCounter : engine.arrivalCounter = snap.arrivalCounter
  lastTop : engine.lastTop = snap.lastTop
  book : engine.book.Holds snap.orders

/-- **A restore that succeeds changes nothing** exactly if the engine is in the snapshot's state. -/
theorem restore_succeeds_unchanged_iff (engine : MatchingEngine) (snap : EngineSnapshot)
    (succeeded : (engine.restore snap).2 = true) :
    (engine.restore snap).1.SameState engine ↔ engine.Shows snap := by
  have rebuilt := OrderBook.restAll_holds snap.orders
  have same := OrderBook.beforeRepeat_of_restAll {} [] snap.orders fun _ => rfl
  unfold restore at succeeded ⊢
  by_cases foreign : snap.instrument ≠ engine.instrument
  · rw [if_pos foreign] at succeeded
    cases succeeded
  rw [if_neg foreign] at succeeded ⊢
  by_cases refused : snap.orders.any fun order => order.quantity = 0 ∨ order.price ≤ 0
  · rw [if_pos refused] at succeeded
    cases succeeded
  rw [if_neg refused] at succeeded ⊢
  generalize restAll {} snap.orders = result at succeeded rebuilt same ⊢
  obtain ⟨book, accepted⟩ := result
  cases accepted with
  | false => cases succeeded
  | true =>
    rw [same rfl] at rebuilt
    constructor
    · intro state
      exact ⟨state.commandSeq.symm, state.eventSeq.symm, state.arrivalCounter.symm, state.lastTop.symm,
        rebuilt.iff_same.mpr ⟨state.levels, state.index⟩⟩
    · intro shows
      have holds := rebuilt.iff_same.mp shows.book
      exact ⟨rfl, shows.commandSeq.symm, shows.eventSeq.symm, shows.arrivalCounter.symm,
        shows.lastTop.symm, holds.1, holds.2⟩

end MatchingEngine

/-! ### A call that fails before the reset of the log -/

/-- The same engine and the same log, or nothing. -/
inductive SameRecovery : Option (MatchingEngine × CommandLog) → Option (MatchingEngine × CommandLog) → Prop
  | rebuilt {engine engine' : MatchingEngine} {log log' : CommandLog} (same : engine.SameState engine')
      (sameLog : log = log') : SameRecovery (some (engine, log)) (some (engine', log'))
  | nothing : SameRecovery none none

theorem SameRecovery.refl (recovered : Option (MatchingEngine × CommandLog)) :
    SameRecovery recovered recovered := by
  cases recovered with
  | none => exact .nothing
  | some both => exact .rebuilt (MatchingEngine.SameState.refl _) rfl

/-- A restart from either disk rebuilds the same. -/
def RebuildsSame (first second : Disk) : Prop :=
  ∀ instrument policy, SameRecovery (rebuilt instrument policy first) (rebuilt instrument policy second)

theorem Disk.Agree.rebuildsSame_iff {first second third : Disk} (agree : first.Agree second) :
    RebuildsSame first third ↔ RebuildsSame second third := by
  unfold RebuildsSame
  simp only [rebuilt_eq, agree.log, agree.snapshot]

/-- **A record that stands in for the stored one**: both end at the same entry, and the entries that follow in
the log lead from the one to the state that they lead to from the other. -/
structure SnapshotRecord.StandsInFor (received stored : SnapshotRecord) (records : List WalRecord) : Prop where
  instrument : received.engine.instrument = stored.engine.instrument
  lastIncludedSeq : received.lastIncludedSeq = stored.lastIncludedSeq
  lastIncludedTerm : received.lastIncludedTerm = stored.lastIncludedTerm
  engine : (received.replayed records).1.SameState (stored.replayed records).1

/-- The same for what is found in two snapshot files. -/
inductive StandsIn (records : List WalRecord) : Option SnapshotRecord → Option SnapshotRecord → Prop
  | found {received stored : SnapshotRecord} (standsIn : received.StandsInFor stored records) :
      StandsIn records (some received) (some stored)
  | nothing : StandsIn records none none

theorem StandsIn.refl (records : List WalRecord) (found : Option SnapshotRecord) :
    StandsIn records found found := by
  cases found with
  | none => exact .nothing
  | some stored => exact .found ⟨rfl, rfl, rfl, MatchingEngine.SameState.refl _⟩

/-- What replay does to the log does not depend on the engine. -/
theorem replayRecords_log (start : Nat) (records : List WalRecord) (engine engine' : MatchingEngine)
    (log : CommandLog) (replayed : Nat) :
    (DurableState.replayRecords start records engine log replayed).2.1 =
      (DurableState.replayRecords start records engine' log replayed).2.1 := by
  induction records generalizing engine engine' log replayed with
  | nil => rfl
  | cons record rest ih =>
    rw [DurableState.replayRecords, DurableState.replayRecords]
    cases decodeLogEntry record.payload with
    | none => rfl
    | some entry =>
      dsimp only
      split_ifs with covered
      · exact ih engine engine' log replayed
      · cases log.appendAt entry.seq entry.term entry.command with
        | none => rfl
        | some log' =>
          exact ih (engine.apply entry.command).1 (engine'.apply entry.command).1 log' (replayed + 1)

/-- Replay keeps the boundary of the log. -/
theorem replayRecords_boundary (start : Nat) (records : List WalRecord) (engine : MatchingEngine)
    (log : CommandLog) (replayed : Nat) :
    (DurableState.replayRecords start records engine log replayed).2.1.snapshotSeq = log.snapshotSeq ∧
      (DurableState.replayRecords start records engine log replayed).2.1.snapshotTerm = log.snapshotTerm := by
  induction records generalizing engine log replayed with
  | nil => exact ⟨rfl, rfl⟩
  | cons record rest ih =>
    rw [DurableState.replayRecords]
    cases decodeLogEntry record.payload with
    | none => exact ⟨rfl, rfl⟩
    | some entry =>
      dsimp only
      split_ifs with covered
      · exact ih engine log replayed
      · cases appended : log.appendAt entry.seq entry.term entry.command with
        | none => exact ⟨rfl, rfl⟩
        | some log' =>
          have boundary : log'.snapshotSeq = log.snapshotSeq ∧ log'.snapshotTerm = log.snapshotTerm := by
            unfold CommandLog.appendAt at appended
            split_ifs at appended
            obtain rfl := Option.some.inj appended
            exact ⟨rfl, rfl⟩
          have later := ih (engine.apply entry.command).1 log' (replayed + 1)
          exact ⟨later.1.trans boundary.1, later.2.trans boundary.2⟩

/-- A restored record's log is the one that it started. -/
theorem SnapshotRecord.replayed_boundary (snap : SnapshotRecord) (records : List WalRecord) :
    (snap.replayed records).2.snapshotSeq = snap.lastIncludedSeq ∧
      (snap.replayed records).2.snapshotTerm = snap.lastIncludedTerm :=
  replayRecords_boundary snap.lastIncludedSeq records _ snap.startLog 0

/-- **Two files from which a restart rebuilds the same**, next to one log. -/
theorem rebuiltFrom_same_iff (records : List WalRecord) (received stored : Option SnapshotRecord) :
    (∀ instrument, SameRecovery (rebuiltFrom instrument records received)
        (rebuiltFrom instrument records stored)) ↔ StandsIn records received stored := by
  -- A record does not restore for another instrument; without one every instrument recovers.
  have other : ∀ instrument : InstrumentId, instrument ≠ instrument + 1 := by
    intro instrument
    simp
  constructor
  · intro same
    cases received with
    | none =>
      cases stored with
      | none => exact .nothing
      | some stored =>
        have differs := same (stored.engine.instrument + 1)
        dsimp only [rebuiltFrom] at differs
        rw [if_neg (other _)] at differs
        cases differs
    | some received =>
      cases stored with
      | none =>
        have differs := same (received.engine.instrument + 1)
        dsimp only [rebuiltFrom] at differs
        rw [if_neg (other _)] at differs
        cases differs
      | some stored =>
        have own := same received.engine.instrument
        dsimp only [rebuiltFrom] at own
        rw [if_pos rfl] at own
        by_cases instrument : stored.engine.instrument = received.engine.instrument
        · rw [if_pos instrument] at own
          obtain ⟨engine, log⟩ : (received.replayed records).1.SameState (stored.replayed records).1 ∧
              (received.replayed records).2 = (stored.replayed records).2 := by
            generalize received.replayed records = first at own
            generalize stored.replayed records = second at own
            cases own with
            | rebuilt engine log => exact ⟨engine, log⟩
          have boundary := received.replayed_boundary records
          have boundary' := stored.replayed_boundary records
          rw [log] at boundary
          exact .found ⟨instrument.symm, boundary.1.symm.trans boundary'.1,
            boundary.2.symm.trans boundary'.2, engine⟩
        · rw [if_neg instrument] at own
          cases own
  · intro standsIn instrument
    cases standsIn with
    | nothing => exact .refl _
    | @found received stored standsIn =>
      dsimp only [rebuiltFrom]
      rw [standsIn.instrument]
      split_ifs with own
      · have sameLog : received.startLog = stored.startLog := by
          unfold SnapshotRecord.startLog
          rw [standsIn.lastIncludedSeq, standsIn.lastIncludedTerm]
        refine .rebuilt standsIn.engine ?_
        show (DurableState.replayRecords received.lastIncludedSeq records _ received.startLog 0).2.1 = _
        rw [sameLog, standsIn.lastIncludedSeq]
        exact replayRecords_log _ records _ _ stored.startLog 0
      · exact .nothing

/-- A restart with a received snapshot in place of the stored one. -/
theorem rebuildsSame_withSnapshot_iff (device : Device) (snap : SnapshotRecord) :
    RebuildsSame (device.withSnapshot snap) device.disk ↔
      StandsIn (recordsIn (device.disk .log)) (recordIn (some (snapshotFile snap)))
        (recordIn (device.disk .snapshot)) := by
  have log : device.withSnapshot snap .log = device.disk .log := Function.update_of_ne (by decide) _ _
  have snapshot : device.withSnapshot snap .snapshot = some (snapshotFile snap) := by
    unfold Device.withSnapshot
    rw [Function.update_self]
  rw [← rebuiltFrom_same_iff]
  constructor
  · intro same instrument
    have once := same instrument .never
    rw [rebuilt_eq, rebuilt_eq, log, snapshot] at once
    exact once
  · intro same instrument policy
    rw [rebuilt_eq, rebuilt_eq, log, snapshot]
    exact same instrument

/-- **Nothing has changed**: the engine, the log, the durable state with its `snapshot()`, and what a later
recovery rebuilds. -/
structure Install.Unchanged (after : Install) (state : DurableState) (device : Device)
    (engine : MatchingEngine) (log : CommandLog) : Prop where
  engine : after.engine.SameState engine
  log : after.log = log
  state : after.state = state
  rebuilds : RebuildsSame after.device.disk device.disk

/-- What a failed call needs to change nothing: a restore that fails does not touch the book, or leaves the
orders that it holds; one that succeeds finds the engine in the state of the snapshot; and if the call fails
when the file has been renamed, at the flush of the directory, the received record stands in for the stored
one. -/
structure Harmless (device : Device) (snap : SnapshotRecord) (engine : MatchingEngine) : Prop where
  refused : (engine.restore snap.engine).2 = false →
    snap.engine.instrument ≠ engine.instrument ∨
      (∃ order ∈ snap.engine.orders, order.quantity = 0 ∨ order.price ≤ 0) ∨
        engine.book.Holds (beforeRepeat [] snap.engine.orders)
  restored : (engine.restore snap.engine).2 = true → engine.Shows snap.engine
  renamed : (engine.restore snap.engine).2 = true →
    (engine.restore snap.engine).1.stateChecksum = snap.stateChecksum → device.Renames snap →
      StandsIn (recordsIn (device.disk .log)) (recordIn (some (snapshotFile snap)))
        (recordIn (device.disk .snapshot))

/-- What a call leaves that fails before the reset of the log. -/
theorem installSnapshot_early {state : DurableState} {device : Device} {snap : SnapshotRecord}
    {engine : MatchingEngine} {log : CommandLog}
    (early : ∀ reset, (state.installSnapshot device snap engine log).result ≠ .installed reset) :
    ∃ result, state.installSnapshot device snap engine log =
      { state
        device :=
          if (engine.restore snap.engine).2 = true ∧
              (engine.restore snap.engine).1.stateChecksum = snap.stateChecksum then
            (writeSnapshotFile device snap).1 else device
        engine := (engine.restore snap.engine).1
        log
        result } := by
  unfold DurableState.installSnapshot at early ⊢
  generalize engine.restore snap.engine = restored at early ⊢
  obtain ⟨restored, succeeded⟩ := restored
  cases succeeded with
  | false => exact ⟨.notRestored, rfl⟩
  | true =>
    by_cases claimed : restored.stateChecksum = snap.stateChecksum
    · simp only [claimed, ne_eq, not_true_eq_false, if_false, and_self, if_true] at early ⊢
      generalize writeSnapshotFile device snap = file at early ⊢
      obtain ⟨device', written⟩ := file
      cases written with
      | false => exact ⟨.notWritten, rfl⟩
      | true => exact absurd rfl (early _)
    · simp only [claimed, ne_eq, not_false_eq_true, and_false, if_true, if_false]
      exact ⟨.otherState, rfl⟩

/-- **A failed install changes nothing** exactly if it was harmless. -/
theorem installSnapshot_unchanged_iff (state : DurableState) (device : Device) (snap : SnapshotRecord)
    (engine : MatchingEngine) (log : CommandLog)
    (early : ∀ reset, (state.installSnapshot device snap engine log).result ≠ .installed reset) :
    (state.installSnapshot device snap engine log).Unchanged state device engine log ↔
      Harmless device snap engine := by
  have whenRefused := engine.restore_failed_unchanged_iff snap.engine
  have whenRestored := engine.restore_succeeds_unchanged_iff snap.engine
  obtain ⟨unfinished, finished⟩ := writeSnapshotFile_agree device snap
  obtain ⟨result, left⟩ := installSnapshot_early early
  rw [left]
  constructor
  · intro unchanged
    refine ⟨fun refused => (whenRefused refused).mp unchanged.engine,
      fun restored => (whenRestored restored).mp unchanged.engine, fun restored claimed renames => ?_⟩
    have rebuilds := unchanged.rebuilds
    dsimp only at rebuilds
    rw [if_pos ⟨restored, claimed⟩, (finished renames).rebuildsSame_iff] at rebuilds
    rwa [rebuildsSame_withSnapshot_iff] at rebuilds
  · intro harmless
    refine ⟨?_, rfl, rfl, ?_⟩
    · show (engine.restore snap.engine).1.SameState engine
      cases succeeded : (engine.restore snap.engine).2 with
      | false => exact (whenRefused succeeded).mpr (harmless.refused succeeded)
      | true => exact (whenRestored succeeded).mpr (harmless.restored succeeded)
    · have before : RebuildsSame device.disk device.disk := fun _ _ => .refl _
      dsimp only
      split_ifs with written
      · by_cases renames : device.Renames snap
        · rw [(finished renames).rebuildsSame_iff, rebuildsSame_withSnapshot_iff]
          exact harmless.renamed written.1 written.2 renames
        · exact (unfinished renames).rebuildsSame_iff.mpr before
      · exact before

/-- A leader's snapshot after three commands. -/
def received : SnapshotRecord :=
  DurableState.snapshotRecord (MatchingEngine.replay 1 MatchingEngine.restingAsks) 3 1

/-- An engine that has been restored from it. -/
def restoredAsks : MatchingEngine := (({ instrument := 1 } : MatchingEngine).restore received.engine).1

/-- The snapshot is on disk already; the fifth call, the flush of the directory, fails. -/
def unflushed : Device where
  disk := Function.update (fun _ => none) .snapshot (some (snapshotFile received))
  answers call := if call = 4 then some 0 else none

theorem installSnapshot_unchanged_iff_unflushed :
    (DurableState.installSnapshot {} unflushed received restoredAsks {}).result = .notWritten ∧
      (DurableState.installSnapshot {} unflushed received restoredAsks {}).Unchanged {} unflushed
        restoredAsks {} := by
  have notWritten : (DurableState.installSnapshot {} unflushed received restoredAsks {}).result =
      .notWritten := by decide +kernel
  have early : ∀ reset, (DurableState.installSnapshot {} unflushed received restoredAsks {}).result ≠
      .installed reset := by
    rw [notWritten]
    nofun
  have restores : (restoredAsks.restore received.engine).2 = true := by decide +kernel
  have again : (restoredAsks.restore received.engine).1 = restoredAsks := rfl
  have harmless : Harmless unflushed received restoredAsks := by
    refine ⟨fun refused => ?_, fun _ => ?_, fun _ _ _ => ?_⟩
    · rw [restores] at refused
      cases refused
    · refine (restoredAsks.restore_succeeds_unchanged_iff received.engine restores).mp ?_
      rw [again]
      exact .refl _
    · exact .refl _ _
  exact ⟨notWritten, (installSnapshot_unchanged_iff {} unflushed received restoredAsks {} early).mpr harmless⟩

/-- A device that can open no file. -/
def sealed : Device where
  answers _ := some 0

/-- The snapshot's file cannot be written, and the engine has been replaced. -/
theorem installSnapshot_replaces_engine :
    (DurableState.installSnapshot {} sealed received { instrument := 1 } {}).result = .notWritten ∧
      ¬ (DurableState.installSnapshot {} sealed received { instrument := 1 } {}).Unchanged {} sealed
        { instrument := 1 } {} := by
  refine ⟨by decide +kernel, fun unchanged => ?_⟩
  have asks := congrArg OrderedMap.entries (unchanged.engine.levels .sell)
  exact absurd asks (by decide +kernel)

end Sententia
