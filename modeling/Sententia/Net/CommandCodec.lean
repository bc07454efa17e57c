/-
**The encoding of a command**, shared by messages (`encodeCommand`, `decodeCommand` in `message.cpp`) and log
entries (`durable_state.cpp`): a tag byte, then the fields of the command. Enumerations are one byte each,
and are checked before they are cast.
-/

import Sententia.Net.Wire

namespace Sententia

open Library WireReader Reader

/-! ### Enumerations as bytes -/

namespace Side

def toByte : Side → Byte
  | .buy => 0
  | .sell => 1

/-- The cast from a byte that has been found to be at most one. -/
def ofByte (byte : Byte) : Side := if byte = 0 then .buy else .sell

end Side

def boolByte (value : Bool) : Byte := if value then 1 else 0

namespace OrderType

def toByte : OrderType → Byte
  | .limit => 0
  | .market => 1

def ofByte (byte : Byte) : OrderType := if byte = 0 then .limit else .market

end OrderType

namespace TimeInForce

def toByte : TimeInForce → Byte
  | .goodTillCancel => 0
  | .immediateOrCancel => 1

def ofByte (byte : Byte) : TimeInForce := if byte = 0 then .goodTillCancel else .immediateOrCancel

end TimeInForce

def encodeCommand : Command → Buffer
  | .newOrder order =>
    WireWriter.u8 0 ++ WireWriter.u64 order.id ++ WireWriter.u32 order.instrument ++
      WireWriter.u8 order.side.toByte ++ WireWriter.u8 order.type.toByte ++
      WireWriter.u8 order.tif.toByte ++ WireWriter.i64 order.price ++ WireWriter.u64 order.quantity
  | .cancelOrder cancel => WireWriter.u8 1 ++ WireWriter.u64 cancel.id

def readNewOrder : Reader Command := do
  let id ← u64
  let instrument ← u32
  let side ← u8
  let type ← u8
  let tif ← u8
  let price ← i64
  let quantity ← u64
  check (side ≤ 1 ∧ type ≤ 1 ∧ tif ≤ 1)
  pure (.newOrder
    { id, instrument, side := .ofByte side, type := .ofByte type, tif := .ofByte tif, price, quantity })

def readCancelOrder : Reader Command := do
  let id ← u64
  pure (.cancelOrder { id })

/-- The command behind a tag. -/
def readCommand (tag : Byte) : Reader Command :=
  if tag = 0 then readNewOrder
  else if tag = 1 then readCancelOrder
  else fun _ => none

def decodeCommand : Reader Command := do
  let tag ← u8
  readCommand tag

/-! ### What is encoded is decoded -/

@[simp] theorem Side.ofByte_toByte (side : Side) : Side.ofByte side.toByte = side := by
  cases side <;> rfl

theorem Side.toByte_le (side : Side) : side.toByte ≤ 1 := by
  cases side <;> decide

theorem boolByte_le (value : Bool) : boolByte value ≤ 1 := by
  cases value <;> decide

@[simp] theorem decide_boolByte (value : Bool) : decide (boolByte value = 1) = value := by
  cases value <;> rfl

theorem toNat_ofNat_of_lt {value : Nat} (small : value < 2 ^ 64) : (UInt64.ofNat value).toNat = value := by
  rw [UInt64.toNat_ofNat', Nat.mod_eq_of_lt small]

@[simp] theorem OrderType.ofByte_toByte (type : OrderType) : OrderType.ofByte type.toByte = type := by
  cases type <;> rfl

@[simp] theorem TimeInForce.ofByte_toByte (tif : TimeInForce) : TimeInForce.ofByte tif.toByte = tif := by
  cases tif <;> rfl

theorem OrderType.toByte_le (type : OrderType) : type.toByte ≤ 1 := by
  cases type <;> decide

theorem TimeInForce.toByte_le (tif : TimeInForce) : tif.toByte ≤ 1 := by
  cases tif <;> decide

/-- The bytes of a command after its tag. -/
theorem reads_command (command : Command) :
    ∃ tag bytes, encodeCommand command = WireWriter.u8 tag ++ bytes ∧
      Reads (readCommand tag) bytes command := by
  cases command with
  | newOrder order =>
    refine ⟨0, WireWriter.u64 order.id ++ (WireWriter.u32 order.instrument ++
      (WireWriter.u8 order.side.toByte ++ (WireWriter.u8 order.type.toByte ++
        (WireWriter.u8 order.tif.toByte ++ (WireWriter.i64 order.price ++
          WireWriter.u64 order.quantity))))), ?_, ?_⟩
    · unfold encodeCommand
      simp only [List.append_assoc]
    show Reads readNewOrder _ _
    unfold readNewOrder
    refine (reads_u64 _).bind ((reads_u32 _).bind ((reads_u8 _).bind ((reads_u8 _).bind ?_)))
    refine (reads_u8 _).bind ((reads_i64 _).bind ((reads_u64 _).map ?_))
    refine Reads.check (decide_eq_true ⟨order.side.toByte_le, order.type.toByte_le, order.tif.toByte_le⟩) ?_
    rw [Side.ofByte_toByte, OrderType.ofByte_toByte, TimeInForce.ofByte_toByte]
    exact Reads.pure _
  | cancelOrder cancel =>
    refine ⟨1, _, rfl, ?_⟩
    show Reads readCancelOrder _ _
    exact (reads_u64 cancel.id).map (Reads.pure _)

theorem reads_decodeCommand (command : Command) : Reads decodeCommand (encodeCommand command) command := by
  obtain ⟨tag, bytes, tagged, reads⟩ := reads_command command
  rw [tagged]
  exact (reads_u8 tag).bind reads

theorem length_encodeCommand (command : Command) : (encodeCommand command).length ≤ 32 := by
  cases command <;>
    simp [encodeCommand, WireWriter.u8, WireWriter.u32, WireWriter.i64, WireWriter.u64]

/-! ### What is decoded was encoded -/

theorem byte_le_one {byte : Byte} (small : byte ≤ 1) : byte = 0 ∨ byte = 1 := by
  have bound := UInt8.le_iff_toNat_le.mp small
  rw [← UInt8.toNat_inj, ← UInt8.toNat_inj]
  simp only [UInt8.toNat_zero, UInt8.toNat_one] at bound ⊢
  omega

theorem Side.toByte_ofByte {byte : Byte} (small : byte ≤ 1) : (Side.ofByte byte).toByte = byte := by
  rcases byte_le_one small with rfl | rfl <;> rfl

theorem OrderType.toByte_ofByte {byte : Byte} (small : byte ≤ 1) : (OrderType.ofByte byte).toByte = byte := by
  rcases byte_le_one small with rfl | rfl <;> rfl

theorem TimeInForce.toByte_ofByte {byte : Byte} (small : byte ≤ 1) :
    (TimeInForce.ofByte byte).toByte = byte := by
  rcases byte_le_one small with rfl | rfl <;> rfl

theorem boolByte_decide {byte : Byte} (small : byte ≤ 1) : boolByte (decide (byte = 1)) = byte := by
  rcases byte_le_one small with rfl | rfl <;> rfl

theorem takes_readNewOrder : Takes readNewOrder fun command bytes =>
    WireWriter.u8 0 ++ bytes = encodeCommand command := by
  unfold readNewOrder
  refine takes_u64.bind ?_
  rintro id _ rfl
  refine takes_u32.bind ?_
  rintro instrument _ rfl
  refine takes_u8.bind ?_
  rintro side _ rfl
  refine takes_u8.bind ?_
  rintro type _ rfl
  refine takes_u8.bind ?_
  rintro tif _ rfl
  refine takes_i64.bind ?_
  rintro price _ rfl
  refine takes_u64.bind ?_
  rintro quantity _ rfl
  refine Takes.check fun passes => Takes.pure ?_
  obtain ⟨sideSmall, typeSmall, tifSmall⟩ := of_decide_eq_true passes
  simp only [encodeCommand, Side.toByte_ofByte sideSmall, OrderType.toByte_ofByte typeSmall,
    TimeInForce.toByte_ofByte tifSmall, List.append_assoc, List.append_nil]

theorem takes_readCancelOrder : Takes readCancelOrder fun command bytes =>
    WireWriter.u8 1 ++ bytes = encodeCommand command := by
  refine takes_u64.bind ?_
  rintro id _ rfl
  exact Takes.pure (by rw [List.append_nil]; rfl)

/-- **Whatever decodes to a command is its encoding.** -/
theorem takes_decodeCommand : Takes decodeCommand fun command bytes => bytes = encodeCommand command := by
  refine takes_u8.bind ?_
  rintro tag _ rfl
  unfold readCommand
  split_ifs with isNew isCancel
  · rw [isNew]
    exact takes_readNewOrder
  · rw [isCancel]
    exact takes_readCancelOrder
  · exact fun _ _ _ read => by cases read

end Sententia
