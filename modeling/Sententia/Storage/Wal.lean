/-
**The write-ahead log** (`wal.hpp`, `wal.cpp`). A record is a 16-byte header (magic, sequence, length,
checksum of the payload) and its payload. Opening the log replays records until one fails to verify, and
cuts the file there.
-/

import Sententia.Storage.Device

namespace Sententia

open Library

def kWalMagic : UInt32 := 0x4C41575F
def kWalHeaderSize : Nat := 16
def kMaxRecordSize : Nat := 8 <<< 20

/-! ### The checksum of a payload -/

/-- One of the eight rounds of a table entry. -/
def crcRound (c : UInt32) : UInt32 :=
  if c &&& 1 = 0 then c >>> 1 else (0xEDB88320 : UInt32) ^^^ (c >>> 1)

def crcTable : List UInt32 :=
  (List.range 256).map fun i => crcRound^[8] (UInt32.ofNat i)

def crcStep (c : UInt32) (byte : Byte) : UInt32 :=
  crcTable.getD ((c ^^^ byte.toUInt32) &&& 0xFF).toNat 0 ^^^ (c >>> 8)

def crc32 (data : Buffer) : UInt32 := data.foldl crcStep (0xFFFFFFFF : UInt32) ^^^ 0xFFFFFFFF

/-! ### Records -/

inductive SyncPolicy
  | everyWrite
  | batched
  | never
deriving Repr, DecidableEq

structure WalRecord where
  seq : UInt32
  payload : Buffer
deriving Repr, DecidableEq

structure WalStats where
  appends : Nat := 0
  fsyncs : Nat := 0
  bytesWritten : Nat := 0
  recordsReplayed : Nat := 0
  truncatedTailBytes : Nat := 0
  tailWasTorn : Bool := false
deriving Repr, DecidableEq

def putU32 (value : UInt32) : Buffer := WireWriter.u32 value

def getU32 (bytes : Buffer) : UInt32 := UInt32.ofNat (ofLittleEndian (bytes.take 4))

/-- A record as it is written. -/
def WalRecord.frame (record : WalRecord) : Buffer :=
  putU32 kWalMagic ++ putU32 record.seq ++ putU32 (UInt32.ofNat record.payload.length) ++
    putU32 (crc32 record.payload) ++ record.payload

/-- One iteration of the loop of `replay`, on what is left of the file. -/
def readRecord (input : Buffer) : Option (WalRecord × Buffer) :=
  if input.length < kWalHeaderSize then none
  else
    let magic := getU32 input
    let seq := getU32 (input.drop 4)
    let length := (getU32 (input.drop 8)).toNat
    let expectedCrc := getU32 (input.drop 12)
    if magic ≠ kWalMagic ∨ length > kMaxRecordSize then none
    -- The header is complete but the payload is not.
    else if input.length < kWalHeaderSize + length then none
    else
      let payload := (input.drop kWalHeaderSize).take length
      if crc32 payload ≠ expectedCrc then none
      else some ({ seq, payload }, input.drop (kWalHeaderSize + length))

/-! ### The log -/

structure WriteAheadLog where
  isOpen : Bool := false
  policy : SyncPolicy := .everyWrite
  batchSize : Nat := 64
  sinceSync : Nat := 0
  bytesOnDisk : Nat := 0
  /-- The mirror of what is on disk. -/
  records : List WalRecord := []
  stats : WalStats := {}

namespace WriteAheadLog

/-- Reads every valid record and cuts off the rest of the file. -/
def replay (wal : WriteAheadLog) (device : Device) : WriteAheadLog × Device × Bool :=
  let file := (device.disk .log).getD []
  let (found, tail) := scan readRecord file.length file
  let offset := file.length - tail.length
  let wal := { wal with
    records := wal.records ++ found
    stats := { wal.stats with recordsReplayed := wal.stats.recordsReplayed + found.length } }
  if offset < file.length then
    let wal := { wal with
      stats := { wal.stats with tailWasTorn := true, truncatedTailBytes := file.length - offset } }
    match device.call (.truncate .log offset) with
    | (device, false) => (wal, device, false)
    | (device, true) => ({ wal with bytesOnDisk := offset }, device, true)
  else ({ wal with bytesOnDisk := offset }, device, true)

/-- `open`. -/
def openLog (wal : WriteAheadLog) (device : Device) (policy : SyncPolicy) :
    WriteAheadLog × Device × Bool :=
  let wal := { wal with isOpen := false, policy, records := [], stats := {}, sinceSync := 0 }
  match device.call (.openOrCreate .log) with
  | (device, false) => (wal, device, false)
  | (device, true) => { wal with isOpen := true }.replay device

def close (wal : WriteAheadLog) : WriteAheadLog := { wal with isOpen := false }

def sync (wal : WriteAheadLog) (device : Device) : WriteAheadLog × Device × Bool :=
  if ¬ wal.isOpen then (wal, device, true)
  else if wal.policy = .never then ({ wal with sinceSync := 0 }, device, true)
  else
    match device.flush with
    | (device, false) => (wal, device, false)
    | (device, true) =>
      ({ wal with sinceSync := 0, stats := { wal.stats with fsyncs := wal.stats.fsyncs + 1 } },
        device, true)

/-- Whether an append has to flush. -/
def syncDue (wal : WriteAheadLog) : Bool :=
  wal.policy = .everyWrite ∨ (wal.policy = .batched ∧ wal.batchSize ≤ wal.sinceSync)

/-- The log once a frame is written, before it is flushed. -/
def mirror (wal : WriteAheadLog) (record : WalRecord) : WriteAheadLog :=
  { wal with
    bytesOnDisk := wal.bytesOnDisk + record.frame.length
    stats := { wal.stats with
      bytesWritten := wal.stats.bytesWritten + record.frame.length
      appends := wal.stats.appends + 1 }
    sinceSync := wal.sinceSync + 1
    records := wal.records ++ [record] }

def append (wal : WriteAheadLog) (device : Device) (seq : UInt32) (data : Buffer) :
    WriteAheadLog × Device × Bool :=
  let record : WalRecord := { seq, payload := data }
  if ¬ wal.isOpen then (wal, device, false)
  else if data.length > kMaxRecordSize then (wal, device, false)
  else
    match device.call (.write .log record.frame) with
    | (device, false) => (wal, device, false)
    | (device, true) =>
      let wal := wal.mirror record
      if wal.syncDue then wal.sync device else (wal, device, true)

/-- Replaces the log with a fresh one containing nothing. -/
def reset (wal : WriteAheadLog) (device : Device) : WriteAheadLog × Device × Bool :=
  if ¬ wal.isOpen then (wal, device, false)
  else
    match device.call (.truncate .log 0) with
    | (device, false) => (wal, device, false)
    | (device, true) => { wal with records := [], bytesOnDisk := 0, sinceSync := 0 }.sync device

/-- The loop of `truncateThrough`. -/
def appendAll (wal : WriteAheadLog) (device : Device) :
    List WalRecord → WriteAheadLog × Device × Bool
  | [] => (wal, device, true)
  | record :: rest =>
    match wal.append device record.seq record.payload with
    | (wal, device, false) => (wal, device, false)
    | (wal, device, true) => wal.appendAll device rest

/-- Rewrites the log keeping only records after `seq`. -/
def truncateThrough (wal : WriteAheadLog) (device : Device) (seq : UInt32) :
    WriteAheadLog × Device × Bool :=
  if ¬ wal.isOpen then (wal, device, false)
  else
    let keep := wal.records.filter fun record => record.seq > seq
    match wal.reset device with
    | (wal, device, false) => (wal, device, false)
    | (wal, device, true) =>
      match wal.appendAll device keep with
      | (wal, device, false) => (wal, device, false)
      | (wal, device, true) => wal.sync device

end WriteAheadLog

end Sententia
