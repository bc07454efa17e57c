/-
**Damage to a payload is always found.** A change confined to four neighbouring bytes of one payload changes
its checksum (`Crc.run_ne_of_window`), and opening the log stops in front of that record.
-/

import Sententia.Library.Crc
import Sententia.Storage.LogFile

namespace Sententia

open Library

/-! ### The checksum -/

/-- The polynomial of the table. -/
def kCrcPoly : UInt32 := 0xEDB88320

theorem crcTable_getD {index : Nat} (inside : index < 256) :
    crcTable.getD index 0 = Crc.word kCrcPoly (UInt32.ofNat index) := by
  unfold crcTable
  rw [List.getD_eq_getElem?_getD, List.getElem?_map, List.getElem?_range inside]
  rfl

/-- **One byte of `crc32`** is one step of the reflected checksum. -/
theorem crcStep_eq (c : UInt32) (byte : Byte) : crcStep c byte = Crc.step kCrcPoly c byte := by
  have inside : ((c ^^^ byte.toUInt32) &&& 0xFF).toNat < 256 := by
    rw [UInt32.toNat_and]
    exact Nat.lt_of_le_of_lt Nat.and_le_right (by decide)
  unfold crcStep Crc.step
  rw [crcTable_getD inside, UInt32.ofNat_toNat]

theorem crc32_eq (data : Buffer) : crc32 data = Crc.run kCrcPoly 0xFFFFFFFF data ^^^ 0xFFFFFFFF := by
  have sameStep : crcStep = Crc.step kCrcPoly := funext fun c => funext fun byte => crcStep_eq c byte
  unfold crc32 Crc.run
  rw [sameStep]

/-- The strings have one length and agree outside the window. -/
def ConfinedTo (first last : Nat) (data data' : Buffer) : Prop :=
  data'.length = data.length ∧ ∀ i, i < first ∨ last ≤ i → data'[i]? = data[i]?

namespace ConfinedTo

variable {first last : Nat} {data data' : Buffer}

theorem take (confined : ConfinedTo first last data data') {count : Nat} (before : count ≤ first) :
    data'.take count = data.take count := by
  refine List.ext_getElem? fun i => ?_
  rw [List.getElem?_take, List.getElem?_take]
  split_ifs with inside
  · exact confined.2 i (Or.inl (by omega))
  · rfl

theorem drop (confined : ConfinedTo first last data data') {count : Nat} (behind : last ≤ count) :
    data'.drop count = data.drop count := by
  refine List.ext_getElem? fun i => ?_
  rw [List.getElem?_drop, List.getElem?_drop]
  exact confined.2 _ (Or.inr (by omega))

/-- The part of the strings between two positions. -/
theorem slice (confined : ConfinedTo first last data data') {start : Nat} (before : start ≤ first)
    (count : Nat) : ConfinedTo (first - start) (last - start) ((data.drop start).take count)
      ((data'.drop start).take count) := by
  refine ⟨?_, fun i outside => ?_⟩
  · rw [List.length_take, List.length_take, List.length_drop, List.length_drop, confined.1]
  · rw [List.getElem?_take, List.getElem?_take, List.getElem?_drop, List.getElem?_drop]
    split_ifs
    · exact confined.2 _ (by omega)
    · rfl

end ConfinedTo

/-- **A change of at most four neighbouring bytes changes `crc32`.** -/
theorem crc32_ne {first last : Nat} (short : last ≤ first + 4) {data data' : Buffer}
    (confined : ConfinedTo first last data data') (changed : data' ≠ data) :
    crc32 data' ≠ crc32 data := by
  have split : ∀ bytes : Buffer,
      bytes = bytes.take first ++ ((bytes.drop first).take 4 ++ bytes.drop (first + 4)) := by
    intro bytes
    rw [← List.drop_drop, List.take_append_drop, List.take_append_drop]
  have sameFront := confined.take (Nat.le_refl first)
  have sameBack := confined.drop short
  have different : (data'.drop first).take 4 ≠ (data.drop first).take 4 := by
    intro same
    refine changed ?_
    rw [split data', split data, sameFront, sameBack, same]
  have sameLength : ((data'.drop first).take 4).length = ((data.drop first).take 4).length := by
    rw [List.length_take, List.length_take, List.length_drop, List.length_drop, confined.1]
  have fewBytes : ((data'.drop first).take 4).length ≤ 4 := List.length_take_le _ _
  have apart := @Crc.run_ne_of_window kCrcPoly (by decide) _ _ sameLength fewBytes different
    0xFFFFFFFF (data.take first) (data.drop (first + 4))
  rw [crc32_eq, crc32_eq, split data', split data, sameFront, sameBack, ← split data]
  intro same
  refine apart ?_
  rw [← split data]
  exact (UInt32.xor_left_inj _).mp same

/-! ### The log -/

/-- Where the payload of a record starts in the file. -/
def payloadStart (records : List WalRecord) (k : Nat) : Nat :=
  (frames (records.take k)).length + kWalHeaderSize

/-- A header in front of a payload that does not match its checksum. -/
theorem readRecord_mismatch (seq : UInt32) {length crc : UInt32} {payload : Buffer}
    (sized : length.toNat = payload.length) (mismatch : crc32 payload ≠ crc) (rest : Buffer) :
    readRecord (putU32 kWalMagic ++ (putU32 seq ++ (putU32 length ++ (putU32 crc ++ (payload ++ rest))))) =
      none := by
  obtain ⟨_, _, lengthRead, crcRead, payloadRead⟩ :=
    header_fields kWalMagic seq length crc (payload ++ rest)
  unfold readRecord
  dsimp only
  rw [lengthRead, crcRead, payloadRead, sized, List.take_left, if_pos mismatch, ite_self, ite_self, ite_self]

/-- The header of a frame. -/
def WalRecord.header (record : WalRecord) : Buffer :=
  putU32 kWalMagic ++ (putU32 record.seq ++ (putU32 (UInt32.ofNat record.payload.length) ++
    putU32 (crc32 record.payload)))

theorem frame_eq (record : WalRecord) : record.frame = record.header ++ record.payload := by
  simp only [WalRecord.frame, WalRecord.header, List.append_assoc]

theorem length_header (record : WalRecord) : record.header.length = kWalHeaderSize := by
  simp [WalRecord.header, kWalHeaderSize]

/-- The file around one of its payloads. -/
theorem frames_around {records : List WalRecord} {k : Nat} (inside : k < records.length) :
    frames records = (frames (records.take k) ++ records[k].header) ++
      (records[k].payload ++ frames (records.drop (k + 1))) := by
  have split : frames records = frames (records.take k) ++ frames (records.drop k) := by
    rw [← frames_append, List.take_append_drop]
  rw [split, List.drop_eq_getElem_cons inside, show frames (records[k] :: records.drop (k + 1)) =
    records[k].frame ++ frames (records.drop (k + 1)) from List.flatMap_cons, frame_eq]
  simp only [List.append_assoc]

/-- **Payload corruption is always caught.** In every log of records within the limit, every change of at most
four neighbouring bytes of the payload of record `k` makes opening the log stop in front of that record. The
reason is a property of `crc32` alone: strings of one length that differ within such a window only have
different checksums. -/
theorem payload_damage_caught {records : List WalRecord} (fit : ∀ record ∈ records, record.Fits) {k : Nat}
    (inside : k < records.length) {first last : Nat} (short : last ≤ first + 4)
    (behindHeader : payloadStart records k ≤ first)
    (withinPayload : last ≤ payloadStart records k + records[k].payload.length) {handle : LogHandle}
    (confined : ConfinedTo first last (frames records) handle.file.contents)
    (changed : handle.file.contents ≠ frames records) (policy : SyncPolicy) :
    ((handle.openLog policy).2 = true ∧ (handle.openLog policy).1.wal.records = records.take k ∧
        (handle.openLog policy).1.file.contents = frames (records.take k)) ∧
      ∀ start data data', ConfinedTo start (start + 4) data data' → data' ≠ data →
        crc32 data' ≠ crc32 data := by
  refine ⟨?_, fun start data data' => crc32_ne (Nat.le_refl _)⟩
  generalize stored : handle.file.contents = file at confined changed
  have around := frames_around inside
  have fitsHere : records[k].Fits := fit _ (List.getElem_mem inside)
  generalize records[k] = record at around withinPayload fitsHere
  have frontLength : (frames (records.take k) ++ record.header).length = payloadStart records k := by
    rw [List.length_append, length_header]
    rfl
  generalize payloadStart records k = start at frontLength behindHeader withinPayload
  -- What the damage leaves alone, and what is now in the place of the payload.
  have front : file.take start = frames (records.take k) ++ record.header := by
    rw [confined.take behindHeader, around]
    exact List.take_left' frontLength
  have back : file.drop (start + record.payload.length) = frames (records.drop (k + 1)) := by
    rw [confined.drop withinPayload, around, ← List.drop_drop, List.drop_left' frontLength, List.drop_left]
  have intact : ((frames records).drop start).take record.payload.length = record.payload := by
    rw [around, List.drop_left' frontLength, List.take_left]
  have slice := confined.slice behindHeader record.payload.length
  rw [intact] at slice
  have split : file = frames (records.take k) ++ (record.header ++
      ((file.drop start).take record.payload.length ++ frames (records.drop (k + 1)))) := by
    rw [← back, ← List.drop_drop, List.take_append_drop, ← List.append_assoc, ← front,
      List.take_append_drop]
  generalize (file.drop start).take record.payload.length = payload at slice split
  have damaged : payload ≠ record.payload := by
    rintro rfl
    refine changed ?_
    rw [split, around, List.append_assoc]
  have mismatch : crc32 payload ≠ crc32 record.payload := crc32_ne (by omega) slice damaged
  have stops : readRecord (record.header ++ (payload ++ frames (records.drop (k + 1)))) = none := by
    have read := readRecord_mismatch record.seq (fitsHere.toNat_length.trans slice.1.symm) mismatch
      (frames (records.drop (k + 1)))
    simpa only [WalRecord.header, List.append_assoc] using read
  have kept : ∀ other ∈ records.take k, WalRecord.Fits other :=
    fun other member => fit other (List.mem_of_mem_take member)
  rw [handle.openLog_eq policy (stored.trans split) kept stops]
  exact ⟨rfl, rfl, rfl⟩

/-- Two records. -/
def twoRecords : List WalRecord := [{ seq := 1, payload := [5] }, { seq := 2, payload := [6, 7] }]

/-- The log of the two, with one bit of the last byte flipped. -/
def damagedLog : LogHandle where
  file := { contents := (frames twoRecords).set 34 6 }

theorem payload_damage_caught_pair :
    ((damagedLog.openLog .everyWrite).2 = true ∧
        (damagedLog.openLog .everyWrite).1.wal.records = [{ seq := 1, payload := [5] }] ∧
        (damagedLog.openLog .everyWrite).1.file.contents = frames [{ seq := 1, payload := [5] }]) ∧
      ∀ start data data', ConfinedTo start (start + 4) data data' → data' ≠ data →
        crc32 data' ≠ crc32 data := by
  have fit : ∀ record ∈ twoRecords, WalRecord.Fits record := by decide
  have confined : ConfinedTo 34 35 (frames twoRecords) damagedLog.file.contents :=
    ⟨List.length_set, fun i outside => List.getElem?_set_ne (by omega)⟩
  exact payload_damage_caught fit (k := 1) (by decide) (by decide) (by decide) (by decide) confined
    (by decide +kernel) .everyWrite

end Sententia
