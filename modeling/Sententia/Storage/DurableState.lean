/-
**The durability layer** (`durable_state.hpp`, `durable_state.cpp`, `stable_store.cpp`): the vote file,
the write-ahead log of entries and the snapshot of a node, and recovery from them. Recovery loads the
snapshot, if any, and replays the log entries after it.
-/

import Sententia.Net.CommandCodec
import Sententia.Net.Message
import Sententia.Replication.CommandLog
import Sententia.Storage.Snapshot

namespace Sententia

open Library WireReader Reader

/-! ### The encoding of an entry -/

/-- The command in an entry, written here a second time. -/
def encodeEntryCommand : Command → Buffer
  | .newOrder order =>
    WireWriter.u8 0 ++ WireWriter.u64 order.id ++ WireWriter.u32 order.instrument ++
      WireWriter.u8 order.side.toByte ++ WireWriter.u8 order.type.toByte ++
      WireWriter.u8 order.tif.toByte ++ WireWriter.i64 order.price ++ WireWriter.u64 order.quantity
  | .cancelOrder cancel => WireWriter.u8 1 ++ WireWriter.u64 cancel.id

def encodeLogEntry (entry : LogEntry) : Buffer :=
  WireWriter.u64 (UInt64.ofNat entry.seq) ++ WireWriter.u64 (UInt64.ofNat entry.term) ++
    encodeEntryCommand entry.command

/-- The branches of `decodeLogEntry` on the tag. -/
def readEntryCommand (tag : Byte) : Reader Command :=
  if tag = 0 then do
    let id ← u64
    let instrument ← u32
    let side ← u8
    let type ← u8
    let tif ← u8
    let price ← i64
    let quantity ← u64
    check (side ≤ 1 ∧ type ≤ 1 ∧ tif ≤ 1)
    pure (.newOrder
      { id, instrument, side := .ofByte side, type := .ofByte type, tif := .ofByte tif, price, quantity })
  else if tag = 1 then do
    let id ← u64
    pure (.cancelOrder { id })
  else fun _ => none

def readLogEntry : Reader LogEntry := do
  let seq ← u64
  let term ← u64
  let tag ← u8
  let command ← readEntryCommand tag
  pure { seq := seq.toNat, term := term.toNat, command }

def decodeLogEntry (data : Buffer) : Option LogEntry := decode readLogEntry data

/-- The two copies of the command encoding agree. -/
theorem encodeEntryCommand_eq (command : Command) : encodeEntryCommand command = encodeCommand command := by
  cases command <;> rfl

theorem readEntryCommand_eq (tag : Byte) : readEntryCommand tag = readCommand tag := rfl

/-! ### The vote file -/

structure StableState where
  currentTerm : UInt64 := 0
  /-- Zero when no vote is cast in this term. -/
  votedFor : NodeId := 0
deriving Repr, DecidableEq

namespace StableState

def kMagic : UInt32 := 0x42545353
def kFileSize : Nat := 20

/-- The part of the file that its checksum covers. -/
def body (state : StableState) : Buffer :=
  putU32 kMagic ++ WireWriter.u64 state.currentTerm ++ putU32 state.votedFor

/-- `StableStore::open`: the first bytes of the file; a missing or corrupt one is a fresh node. -/
def load (file : Option Buffer) : StableState :=
  match file with
  | none => {}
  | some file =>
    let buf := file.take kFileSize
    if buf.length ≠ kFileSize ∨ getU32 buf ≠ kMagic ∨
        crc32 (buf.take (kFileSize - 4)) ≠ getU32 (buf.drop (kFileSize - 4)) then {}
    else
      { currentTerm := UInt64.ofNat (ofLittleEndian ((buf.drop 4).take 8))
        votedFor := getU32 (buf.drop 12) }

/-- `StableStore::save`, up to the state it keeps. -/
def save (device : Device) (state : StableState) : Device × Bool :=
  match device.call (.create .stateTemp) with
  | (device, false) => (device, false)
  | (device, true) =>
    match device.call (.write .stateTemp (state.body ++ putU32 (crc32 state.body))) with
    | (device, false) => (device, false)
    | (device, true) =>
      match device.flush with
      | (device, false) => (device, false)
      | (device, true) =>
        match device.call (.rename .stateTemp .state) with
        | (device, false) => (device, false)
        | (device, true) => device.flush

end StableState

/-! ### The durable state -/

structure RecoveryReport where
  hadSnapshot : Bool := false
  snapshotSeq : Nat := 0
  entriesReplayed : Nat := 0
  lastLogSeq : Nat := 0
  currentTerm : UInt64 := 0
  votedFor : NodeId := 0
  tornTailDiscarded : Bool := false
  tornTailBytes : Nat := 0
deriving Repr, DecidableEq

structure DurableState where
  wal : WriteAheadLog := {}
  stable : StableState := {}
  snapshot : Option SnapshotRecord := none

namespace DurableState

/-- `open`. A snapshot that does not verify counts as none. -/
def openDir (state : DurableState) (device : Device) (policy : SyncPolicy) :
    DurableState × Device × Bool :=
  let stable := StableState.load (device.disk .state)
  match state.wal.openLog device policy with
  | (wal, device, false) => ({ state with stable, wal }, device, false)
  | (wal, device, true) =>
    let snapshot := match readSnapshotFile (device.disk .snapshot) with
      | .ok snapshot => snapshot
      | .error _ => none
    ({ stable, wal, snapshot }, device, true)

/-- The replay loop of `recover`: the engine, the log and the number of entries replayed. -/
def replayRecords (startAfter : Nat) :
    List WalRecord → MatchingEngine → CommandLog → Nat → MatchingEngine × CommandLog × Nat
  | [], engine, log, replayed => (engine, log, replayed)
  | record :: rest, engine, log, replayed =>
    match decodeLogEntry record.payload with
    | none => (engine, log, replayed)
    | some entry =>
      -- Already reflected in the restored engine.
      if entry.seq ≤ startAfter then replayRecords startAfter rest engine log replayed
      else
        match log.appendAt entry.seq entry.term entry.command with
        | none => (engine, log, replayed)
        | some log =>
          replayRecords startAfter rest (engine.apply entry.command).1 log (replayed + 1)

/-- The entries of the log after the snapshot, and the report. -/
def replayLog (state : DurableState) (startAfter : Nat) (engine : MatchingEngine) (log : CommandLog)
    (report : RecoveryReport) : MatchingEngine × CommandLog × RecoveryReport :=
  let (engine, log, replayed) := replayRecords startAfter state.wal.records engine log 0
  (engine, log, { report with entriesReplayed := replayed, lastLogSeq := log.lastSeq })

/-- Rebuilds the engine and the log; the error text when the snapshot does not restore. -/
def recover (state : DurableState) (engine : MatchingEngine) (log : CommandLog) :
    (MatchingEngine × CommandLog × RecoveryReport) × Option String :=
  let report : RecoveryReport :=
    { currentTerm := state.stable.currentTerm
      votedFor := state.stable.votedFor
      tornTailDiscarded := state.wal.stats.tailWasTorn
      tornTailBytes := state.wal.stats.truncatedTailBytes }
  match state.snapshot with
  | none => (state.replayLog 0 engine log report, none)
  | some snap =>
    match engine.restore snap.engine with
    | (engine, false) => ((engine, log, report), some "snapshot did not restore into this engine")
    | (engine, true) =>
      let log := log.setSnapshotBoundary snap.lastIncludedSeq snap.lastIncludedTerm
      let report := { report with hadSnapshot := true, snapshotSeq := snap.lastIncludedSeq }
      (state.replayLog snap.lastIncludedSeq engine log report, none)

def appendEntry (state : DurableState) (device : Device) (entry : LogEntry) :
    DurableState × Device × Bool :=
  let (wal, device, ok) := state.wal.append device (UInt32.ofNat entry.seq) (encodeLogEntry entry)
  ({ state with wal }, device, ok)

def saveVote (state : DurableState) (device : Device) (term : UInt64) (votedFor : NodeId) :
    DurableState × Device × Bool :=
  let next : StableState := { currentTerm := term, votedFor }
  match StableState.save device next with
  | (device, false) => (state, device, false)
  | (device, true) => ({ state with stable := next }, device, true)

/-- The record of an engine at a point of the log. -/
def snapshotRecord (engine : MatchingEngine) (lastIncludedSeq lastIncludedTerm : Nat) :
    SnapshotRecord :=
  { lastIncludedSeq
    lastIncludedTerm
    stateChecksum := engine.stateChecksum
    engine := engine.snapshot }

/-- Snapshot first, then truncate the log. -/
def takeSnapshot (state : DurableState) (device : Device) (engine : MatchingEngine)
    (lastIncludedSeq lastIncludedTerm : Nat) : DurableState × Device × Bool :=
  let snap := snapshotRecord engine lastIncludedSeq lastIncludedTerm
  match writeSnapshotFile device snap with
  | (device, false) => (state, device, false)
  | (device, true) =>
    let (wal, device, ok) := state.wal.truncateThrough device (UInt32.ofNat lastIncludedSeq)
    ({ state with snapshot := some snap, wal }, device, ok)

end DurableState

end Sententia
