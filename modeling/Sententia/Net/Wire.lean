/-
**The byte-level encoding** (`wire.hpp`). Every integer is written as explicit little-endian bytes. A
reader is bounds-checked and stays failed: a decoder that asks for more than there is returns nothing.
-/

import Sententia.Types
import Sententia.Library.Codec

namespace Sententia

open Library

abbrev Byte := UInt8

abbrev Buffer := List Byte

namespace WireWriter

def u8 (value : UInt8) : Buffer := [value]

def u16 (value : UInt16) : Buffer := littleEndian 2 value.toNat

def u32 (value : UInt32) : Buffer := littleEndian 4 value.toNat

def u64 (value : UInt64) : Buffer := littleEndian 8 value.toNat

/-- Two's complement in the unsigned encoding. -/
def i64 (value : Int64) : Buffer := u64 value.toUInt64

end WireWriter

namespace WireReader

open Reader

def u8 : Reader UInt8
  | [] => none
  | byte :: rest => some (byte, rest)

def u16 : Reader UInt16 := do
  let bytes ← take 2
  pure (UInt16.ofNat (ofLittleEndian bytes))

def u32 : Reader UInt32 := do
  let bytes ← take 4
  pure (UInt32.ofNat (ofLittleEndian bytes))

def u64 : Reader UInt64 := do
  let bytes ← take 8
  pure (UInt64.ofNat (ofLittleEndian bytes))

def i64 : Reader Int64 := do
  let raw ← u64
  pure raw.toInt64

/-- The decoder succeeds only if it has consumed everything. -/
def decode {α : Type} (reader : Reader α) (data : Buffer) : Option α :=
  match reader data with
  | some (value, []) => some value
  | _ => none

/-! ### What is written is read back -/

theorem reads_u8 (value : UInt8) : Reads u8 (WireWriter.u8 value) value := fun _ => rfl

/-- The bytes of a number that fits, through any constructor. -/
theorem reads_littleEndian {α : Type} {width value : Nat} (fits : value < 256 ^ width) (build : Nat → α) :
    Reads (do let bytes ← take width; pure (build (ofLittleEndian bytes))) (littleEndian width value)
      (build value) := by
  have bytes := reads_take (littleEndian width value)
  rw [length_littleEndian] at bytes
  refine bytes.map ?_
  rw [ofLittleEndian_littleEndian fits]
  exact Reads.pure _

theorem reads_u16 (value : UInt16) : Reads u16 (WireWriter.u16 value) value := by
  have fits : value.toNat < 256 ^ 2 := Nat.lt_of_lt_of_eq value.toNat_lt (by decide)
  have read := reads_littleEndian fits UInt16.ofNat
  rwa [UInt16.ofNat_toNat] at read

theorem reads_u32 (value : UInt32) : Reads u32 (WireWriter.u32 value) value := by
  have fits : value.toNat < 256 ^ 4 := Nat.lt_of_lt_of_eq value.toNat_lt (by decide)
  have read := reads_littleEndian fits UInt32.ofNat
  rwa [UInt32.ofNat_toNat] at read

theorem reads_u64 (value : UInt64) : Reads u64 (WireWriter.u64 value) value := by
  have fits : value.toNat < 256 ^ 8 := Nat.lt_of_lt_of_eq value.toNat_lt (by decide)
  have read := reads_littleEndian fits UInt64.ofNat
  rwa [UInt64.ofNat_toNat] at read

theorem reads_i64 (value : Int64) : Reads i64 (WireWriter.i64 value) value := by
  refine (reads_u64 value.toUInt64).map ?_
  rw [Int64.toInt64_toUInt64]
  exact Reads.pure _

/-! ### What is read is what was written -/

theorem takes_u8 : Takes u8 fun value bytes => bytes = WireWriter.u8 value := by
  intro input value rest read
  cases input with
  | nil => cases read
  | cons byte others =>
    cases read
    exact ⟨[value], rfl, rfl⟩

/-- The bytes of a number, through any constructor that keeps it. -/
theorem takes_littleEndian {α : Type} {width : Nat} {build : Nat → α} {number : α → Nat}
    (kept : ∀ value < 256 ^ width, number (build value) = value) :
    Takes (do let bytes ← take width; pure (build (ofLittleEndian bytes)))
      fun value bytes => bytes = littleEndian width (number value) := by
  refine (takes_take width).bind fun value bytes ⟨same, length⟩ => Takes.pure ?_
  have small : ofLittleEndian value < 256 ^ width := length ▸ ofLittleEndian_lt value
  have back := littleEndian_ofLittleEndian value
  rw [length] at back
  rw [List.append_nil, same, kept _ small, back]

theorem takes_u16 : Takes u16 fun value bytes => bytes = WireWriter.u16 value :=
  takes_littleEndian fun value small => by
    rw [UInt16.toNat_ofNat', Nat.mod_eq_of_lt (Nat.lt_of_lt_of_eq small (by decide))]

theorem takes_u32 : Takes u32 fun value bytes => bytes = WireWriter.u32 value :=
  takes_littleEndian fun value small => by
    rw [UInt32.toNat_ofNat', Nat.mod_eq_of_lt (Nat.lt_of_lt_of_eq small (by decide))]

theorem takes_u64 : Takes u64 fun value bytes => bytes = WireWriter.u64 value :=
  takes_littleEndian fun value small => by
    rw [UInt64.toNat_ofNat', Nat.mod_eq_of_lt (Nat.lt_of_lt_of_eq small (by decide))]

theorem takes_i64 : Takes i64 fun value bytes => bytes = WireWriter.i64 value := by
  refine takes_u64.bind fun raw bytes same => Takes.pure ?_
  unfold WireWriter.i64
  rw [List.append_nil, same, UInt64.toUInt64_toInt64]

/-! ### Whole inputs -/

theorem decode_of_reads {α : Type} {reader : Reader α} {bytes : Buffer} {value : α}
    (reads : Reads reader bytes value) : decode reader bytes = some value := by
  have all := reads []
  rw [List.append_nil] at all
  unfold decode
  rw [all]

theorem spec_of_decode {α : Type} {reader : Reader α} {spec : α → Buffer → Prop} {bytes : Buffer}
    {value : α} (takes : Takes reader spec) (decoded : decode reader bytes = some value) :
    spec value bytes := by
  unfold decode at decoded
  split at decoded
  · rename_i value' read
    obtain rfl := Option.some.inj decoded
    obtain ⟨taken, same, holds⟩ := takes _ _ _ read
    rw [List.append_nil] at same
    rwa [same]
  · cases decoded

end WireReader

end Sententia
