/-
**Engine snapshots on disk** (`snapshot.hpp`, `snapshot.cpp`). A snapshot file is the encoded record and a
checksum of it. It is written to a temporary file that then takes the place of the old one. Reading it
back checks the checksum, and that the restored engine has the state checksum the record claims.
-/

import Sententia.Engine.Snapshot
import Sententia.Net.CommandCodec
import Sententia.Storage.WalSpec

namespace Sententia

open Library

def kSnapshotMagic : UInt32 := 0x50414E53
def kSnapshotVersion : UInt16 := 1
def kMaxOrders : Nat := 50 <<< 20

/-- A snapshot and where it sits in the log. -/
structure SnapshotRecord where
  lastIncludedSeq : Nat := 0
  lastIncludedTerm : Nat := 0
  stateChecksum : UInt64 := 0
  engine : EngineSnapshot
deriving Repr, DecidableEq

/-! ### The encoding -/

def encodeOrder (order : RestingOrder) : Buffer :=
  WireWriter.u64 order.id ++ WireWriter.u8 order.side.toByte ++ WireWriter.i64 order.price ++
    WireWriter.u64 order.quantity ++ WireWriter.u64 (UInt64.ofNat order.arrival)

def encodeSnapshot (snap : SnapshotRecord) : Buffer :=
  WireWriter.u32 kSnapshotMagic ++ WireWriter.u16 kSnapshotVersion ++
    WireWriter.u64 (UInt64.ofNat snap.lastIncludedSeq) ++
    WireWriter.u64 (UInt64.ofNat snap.lastIncludedTerm) ++ WireWriter.u64 snap.stateChecksum ++
    WireWriter.u32 snap.engine.instrument ++ WireWriter.u64 (UInt64.ofNat snap.engine.commandSeq) ++
    WireWriter.u64 (UInt64.ofNat snap.engine.eventSeq) ++
    WireWriter.u64 (UInt64.ofNat snap.engine.arrivalCounter) ++
    WireWriter.u8 (boolByte snap.engine.lastTop.hasBid) ++
    WireWriter.i64 snap.engine.lastTop.bidPrice ++ WireWriter.u64 snap.engine.lastTop.bidQuantity ++
    WireWriter.u8 (boolByte snap.engine.lastTop.hasAsk) ++
    WireWriter.i64 snap.engine.lastTop.askPrice ++ WireWriter.u64 snap.engine.lastTop.askQuantity ++
    WireWriter.u32 (UInt32.ofNat snap.engine.orders.length) ++ snap.engine.orders.flatMap encodeOrder

open WireReader Reader

def readOrder : Reader RestingOrder := do
  let id ← u64
  let side ← u8
  let price ← i64
  let quantity ← u64
  let arrival ← u64
  check (side ≤ 1)
  pure { id, side := .ofByte side, price, quantity, arrival := arrival.toNat }

def readSnapshot : Reader SnapshotRecord := do
  let magic ← u32
  let version ← u16
  check (magic = kSnapshotMagic ∧ version = kSnapshotVersion)
  let lastIncludedSeq ← u64
  let lastIncludedTerm ← u64
  let stateChecksum ← u64
  let instrument ← u32
  let commandSeq ← u64
  let eventSeq ← u64
  let arrivalCounter ← u64
  let hasBid ← u8
  let bidPrice ← i64
  let bidQuantity ← u64
  let hasAsk ← u8
  let askPrice ← i64
  let askQuantity ← u64
  check (hasBid ≤ 1 ∧ hasAsk ≤ 1)
  let count ← u32
  check (count.toNat ≤ kMaxOrders)
  let orders ← many readOrder count.toNat
  pure
    { lastIncludedSeq := lastIncludedSeq.toNat
      lastIncludedTerm := lastIncludedTerm.toNat
      stateChecksum
      engine :=
        { instrument
          commandSeq := commandSeq.toNat
          eventSeq := eventSeq.toNat
          arrivalCounter := arrivalCounter.toNat
          lastTop :=
            { hasBid := hasBid = 1
              bidPrice
              bidQuantity
              hasAsk := hasAsk = 1
              askPrice
              askQuantity }
          orders } }

def decodeSnapshot (data : Buffer) : Option SnapshotRecord := decode readSnapshot data

/-! ### The file -/

def snapshotFile (snap : SnapshotRecord) : Buffer :=
  encodeSnapshot snap ++ putU32 (crc32 (encodeSnapshot snap))

/-- Writes to a temporary file, flushes it, and renames it over the target. -/
def writeSnapshotFile (device : Device) (snap : SnapshotRecord) : Device × Bool :=
  match device.call (.create .snapshotTemp) with
  | (device, false) => (device, false)
  | (device, true) =>
    match device.call (.write .snapshotTemp (snapshotFile snap)) with
    | (device, false) => (device, false)
    | (device, true) =>
      match device.flush with
      | (device, false) => (device, false)
      | (device, true) =>
        match device.call (.rename .snapshotTemp .snapshot) with
        | (device, false) => (device, false)
        | (device, true) => device.flush

/-- Loads and verifies; nothing when the file is absent, an error when it does not verify. -/
def readSnapshotFile (file : Option Buffer) : Except String (Option SnapshotRecord) :=
  match file with
  | none => .ok none
  | some file =>
    if file.length < 4 then .error "snapshot too small"
    else
      let body := file.take (file.length - 4)
      let stored := getU32 (file.drop (file.length - 4))
      if crc32 body ≠ stored then .error "snapshot checksum mismatch (torn or corrupt file)"
      else
        match decodeSnapshot body with
        | none => .error "snapshot failed to decode"
        | some snap =>
          match ({ instrument := snap.engine.instrument } : MatchingEngine).restore snap.engine with
          | (_, false) => .error "snapshot did not restore cleanly"
          | (probe, true) =>
            if probe.stateChecksum ≠ snap.stateChecksum then
              .error "snapshot restored to a different state than recorded"
            else .ok (some snap)

/-! ### What is encoded is decoded -/

theorem reads_order {order : RestingOrder} (small : order.arrival < 2 ^ 64) :
    Reads readOrder (encodeOrder order) order := by
  unfold encodeOrder readOrder
  simp only [List.append_assoc]
  refine (reads_u64 order.id).bind ((reads_u8 order.side.toByte).bind ((reads_i64 order.price).bind
    ((reads_u64 order.quantity).bind ((reads_u64 (UInt64.ofNat order.arrival)).map ?_))))
  refine Reads.check (decide_eq_true order.side.toByte_le) ?_
  rw [Side.ofByte_toByte, toNat_ofNat_of_lt small]
  exact Reads.pure order

/-- Every counter fits in its field, and there are not too many orders. -/
structure SnapshotRecord.Fits (snap : SnapshotRecord) : Prop where
  lastIncludedSeq : snap.lastIncludedSeq < 2 ^ 64
  lastIncludedTerm : snap.lastIncludedTerm < 2 ^ 64
  commandSeq : snap.engine.commandSeq < 2 ^ 64
  eventSeq : snap.engine.eventSeq < 2 ^ 64
  arrivalCounter : snap.engine.arrivalCounter < 2 ^ 64
  arrivals : ∀ order ∈ snap.engine.orders, order.arrival < 2 ^ 64
  count : snap.engine.orders.length ≤ kMaxOrders

/-- **A snapshot decodes from its encoding.** -/
theorem decodeSnapshot_encodeSnapshot {snap : SnapshotRecord} (fits : snap.Fits) :
    decodeSnapshot (encodeSnapshot snap) = some snap := by
  have count : (UInt32.ofNat snap.engine.orders.length).toNat = snap.engine.orders.length := by
    rw [UInt32.toNat_ofNat', Nat.mod_eq_of_lt (Nat.lt_of_le_of_lt fits.count (by decide))]
  have orders : Reads (many readOrder (UInt32.ofNat snap.engine.orders.length).toNat)
      (snap.engine.orders.flatMap encodeOrder) snap.engine.orders := by
    rw [count]
    exact Reads.many fun order member => reads_order (fits.arrivals order member)
  refine decode_of_reads ?_
  unfold encodeSnapshot readSnapshot
  simp only [List.append_assoc]
  refine (reads_u32 _).bind ((reads_u16 _).bind (Reads.check (by decide) ?_))
  refine (reads_u64 _).bind ((reads_u64 _).bind ((reads_u64 _).bind ((reads_u32 _).bind ?_)))
  refine (reads_u64 _).bind ((reads_u64 _).bind ((reads_u64 _).bind ?_))
  refine (reads_u8 _).bind ((reads_i64 _).bind ((reads_u64 _).bind ?_))
  refine (reads_u8 _).bind ((reads_i64 _).bind ((reads_u64 _).bind ?_))
  refine Reads.check (decide_eq_true ⟨boolByte_le _, boolByte_le _⟩) ((reads_u32 _).bind ?_)
  refine Reads.check (decide_eq_true (count.symm ▸ fits.count)) (orders.map ?_)
  simp only [decide_boolByte, toNat_ofNat_of_lt fits.lastIncludedSeq,
    toNat_ofNat_of_lt fits.lastIncludedTerm, toNat_ofNat_of_lt fits.commandSeq,
    toNat_ofNat_of_lt fits.eventSeq, toNat_ofNat_of_lt fits.arrivalCounter]
  exact Reads.pure snap

/-- **A snapshot file is read back**, if its engine restores to the checksum it claims. -/
theorem readSnapshotFile_snapshotFile {snap : SnapshotRecord} (fits : snap.Fits)
    {probe : MatchingEngine}
    (restores : ({ instrument := snap.engine.instrument } : MatchingEngine).restore snap.engine =
      (probe, true))
    (checksum : probe.stateChecksum = snap.stateChecksum) :
    readSnapshotFile (some (snapshotFile snap)) = .ok (some snap) := by
  have length : (snapshotFile snap).length = (encodeSnapshot snap).length + 4 := by
    rw [snapshotFile, List.length_append, length_putU32]
  have body : (snapshotFile snap).take ((snapshotFile snap).length - 4) = encodeSnapshot snap := by
    rw [length, Nat.add_sub_cancel]
    exact List.take_left
  have stored : getU32 ((snapshotFile snap).drop ((snapshotFile snap).length - 4)) =
      crc32 (encodeSnapshot snap) := by
    rw [length, Nat.add_sub_cancel, snapshotFile, List.drop_left,
      ← List.append_nil (putU32 (crc32 (encodeSnapshot snap)))]
    exact getU32_putU32 _ _
  unfold readSnapshotFile
  simp only [body, stored, decodeSnapshot_encodeSnapshot fits, restores, checksum, ne_eq,
    not_true_eq_false, if_false]
  rw [if_neg (by omega)]

end Sententia
