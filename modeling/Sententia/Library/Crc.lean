/-
**Reflected 32-bit checksums.** A checksum takes its data byte by byte: the low byte of the state, combined
with the byte of the data, picks a word from a table, and the rest of the state moves down by a byte. The
words are what eight rounds of division leave of the index.

Everything is read backwards, from the bits that two results share. The polynomial has its highest bit, so a
round puts the bit that it shifts out at the top, and nothing is lost.

* `rounds_back`, `step_back` — what two results share, their arguments share.
* `run_injective` — for given data the checksum depends on every bit of the state.
* `run_ne_of_window` — data that differ in at most four neighbouring bytes have different checksums.
-/

import Mathlib.Logic.Function.Iterate

namespace Sententia.Library

/-! ### Bits of words -/

/-- The words have the same bits from `m` up. -/
def AgreeFrom (m : Nat) (c d : UInt32) : Prop :=
  ∀ i, m ≤ i → c.toBitVec.getLsbD i = d.toBitVec.getLsbD i

/-- The words have the same bits below `n`. -/
def AgreeBelow (n : Nat) (c d : UInt32) : Prop :=
  ∀ i, i < n → c.toBitVec.getLsbD i = d.toBitVec.getLsbD i

theorem eq_of_bits {c d : UInt32} (same : ∀ i, c.toBitVec.getLsbD i = d.toBitVec.getLsbD i) : c = d :=
  UInt32.toBitVec_inj.mp (BitVec.eq_of_getLsbD_eq fun i _ => same i)

theorem low_bit_eq_zero (c : UInt32) : c &&& 1 = 0 ↔ c.toBitVec.getLsbD 0 = false := by
  rw [← UInt32.toBitVec_inj, UInt32.toBitVec_and, UInt32.toBitVec_one,
    BitVec.and_one_eq_setWidth_ofBool_getLsbD]
  cases c.toBitVec.getLsbD 0 <;> simp

theorem bit_low_byte (c : UInt32) (i : Nat) :
    (c &&& 0xFF).toBitVec.getLsbD i = (decide (i < 8) && c.toBitVec.getLsbD i) := by
  have mask : (0xFF : UInt32).toBitVec.getLsbD i = decide (i < 8) := by
    show (BitVec.ofNat 32 (2 ^ 8 - 1)).getLsbD i = _
    rw [BitVec.getLsbD_ofNat, Nat.testBit_two_pow_sub_one]
    by_cases low : i < 8
    · simp [low, show i < 32 by omega]
    · simp [low]
  rw [UInt32.toBitVec_and, BitVec.getLsbD_and, mask, Bool.and_comm]

theorem bit_toUInt32 (byte : UInt8) (i : Nat) : byte.toUInt32.toBitVec.getLsbD i = byte.toBitVec.getLsbD i := by
  rw [UInt8.toBitVec_toUInt32, BitVec.getLsbD_setWidth]
  by_cases inside : i < 8
  · simp [show i < 32 by omega]
  · simp [BitVec.getLsbD_of_ge byte.toBitVec i (by omega)]

namespace Crc

/-- One round of division. -/
def round (poly c : UInt32) : UInt32 := if c &&& 1 = 0 then c >>> 1 else poly ^^^ (c >>> 1)

/-- The word of the table at an index. -/
def word (poly index : UInt32) : UInt32 := (round poly)^[8] index

def step (poly c : UInt32) (byte : UInt8) : UInt32 :=
  word poly ((c ^^^ byte.toUInt32) &&& 0xFF) ^^^ (c >>> 8)

def run (poly c : UInt32) (data : List UInt8) : UInt32 := data.foldl (step poly) c

variable {poly : UInt32}

theorem bit_round (poly c : UInt32) (i : Nat) :
    (round poly c).toBitVec.getLsbD i =
      (c.toBitVec.getLsbD (1 + i) ^^ (c.toBitVec.getLsbD 0 && poly.toBitVec.getLsbD i)) := by
  unfold round
  cases low : c.toBitVec.getLsbD 0 with
  | false =>
    rw [if_pos ((low_bit_eq_zero c).mpr low)]
    simp
  | true =>
    rw [if_neg fun even => by rw [(low_bit_eq_zero c).mp even] at low; cases low]
    simp [Bool.xor_comm]

theorem bit_step (poly c : UInt32) (byte : UInt8) (i : Nat) :
    (step poly c byte).toBitVec.getLsbD i =
      ((word poly ((c ^^^ byte.toUInt32) &&& 0xFF)).toBitVec.getLsbD i ^^ c.toBitVec.getLsbD (8 + i)) := by
  unfold step
  simp

section Back

variable (high : poly.toBitVec.getLsbD 31 = true)

include high

/-- **Rounds read backwards**: each round has put the bit it shifted out at the top. -/
theorem rounds_back {n m : Nat} (fits : m + n ≤ 32) {c d : UInt32}
    (agree : AgreeFrom m ((round poly)^[n] c) ((round poly)^[n] d)) :
    AgreeFrom (m + n) c d ∧ AgreeBelow n c d := by
  induction n generalizing c d with
  | zero => exact ⟨agree, fun i inside => absurd inside (Nat.not_lt_zero i)⟩
  | succ n ih =>
    obtain ⟨above, below⟩ := ih (by omega) agree
    have top := above 31 (by omega)
    rw [bit_round, bit_round, high, BitVec.getLsbD_of_ge c.toBitVec _ (by decide),
      BitVec.getLsbD_of_ge d.toBitVec _ (by decide), Bool.and_true, Bool.and_true, Bool.false_xor,
      Bool.false_xor] at top
    -- What was shifted out is the same, so what was kept is.
    have kept : ∀ {i}, (round poly c).toBitVec.getLsbD i = (round poly d).toBitVec.getLsbD i →
        c.toBitVec.getLsbD (i + 1) = d.toBitVec.getLsbD (i + 1) := by
      intro i same
      rw [bit_round, bit_round, top] at same
      rw [Nat.add_comm]
      exact Bool.xor_left_inj.mp same
    refine ⟨fun i inside => ?_, fun i inside => ?_⟩
    · obtain ⟨j, rfl⟩ : ∃ j, i = j + 1 := ⟨i - 1, by omega⟩
      exact kept (above j (by omega))
    · cases i with
      | zero => exact top
      | succ j => exact kept (below j (by omega))

/-- **A byte read backwards**: two results that share their highest byte come from the same word of the
table. -/
theorem step_back {m : Nat} (fits : m ≤ 24) {c d : UInt32} {byte byte' : UInt8}
    (agree : AgreeFrom m (step poly c byte) (step poly d byte')) :
    AgreeBelow 8 (c ^^^ byte.toUInt32) (d ^^^ byte'.toUInt32) ∧ AgreeFrom (m + 8) c d := by
  have words : AgreeFrom 24 (word poly ((c ^^^ byte.toUInt32) &&& 0xFF))
      (word poly ((d ^^^ byte'.toUInt32) &&& 0xFF)) := by
    intro i inside
    have same := agree i (Nat.le_trans fits inside)
    rw [bit_step, bit_step, BitVec.getLsbD_of_ge c.toBitVec _ (by omega),
      BitVec.getLsbD_of_ge d.toBitVec _ (by omega), Bool.xor_false, Bool.xor_false] at same
    exact same
  obtain ⟨_, low⟩ := rounds_back high (show 24 + 8 ≤ 32 by decide) words
  have index : (c ^^^ byte.toUInt32) &&& 0xFF = (d ^^^ byte'.toUInt32) &&& 0xFF := by
    refine eq_of_bits fun i => ?_
    by_cases inside : i < 8
    · exact low i inside
    · rw [bit_low_byte, bit_low_byte, decide_eq_false inside, Bool.false_and, Bool.false_and]
  refine ⟨fun i inside => ?_, fun i inside => ?_⟩
  · have same := low i inside
    rw [bit_low_byte, bit_low_byte, decide_eq_true inside, Bool.true_and, Bool.true_and] at same
    exact same
  · have same := agree (i - 8) (by omega)
    rw [bit_step, bit_step, index, show 8 + (i - 8) = i by omega] at same
    exact Bool.xor_right_inj.mp same

/-- A step takes every state to another one. -/
theorem step_injective (byte : UInt8) : Function.Injective fun c => step poly c byte := by
  intro c d same
  have agree : AgreeFrom 0 (step poly c byte) (step poly d byte) :=
    fun i _ => congrArg (·.toBitVec.getLsbD i) same
  obtain ⟨low, above⟩ := step_back high (Nat.zero_le 24) agree
  refine eq_of_bits fun i => ?_
  by_cases inside : i < 8
  · have bits := low i inside
    rw [UInt32.toBitVec_xor, UInt32.toBitVec_xor, BitVec.getLsbD_xor, BitVec.getLsbD_xor] at bits
    exact Bool.xor_left_inj.mp bits
  · exact above i (by omega)

theorem run_injective (data : List UInt8) : Function.Injective fun c => run poly c data := by
  induction data with
  | nil => exact fun _ _ same => same
  | cons byte rest ih => exact fun c d same => step_injective high byte (ih same)

/-- Each of a few bytes costs eight of the bits that the results share. -/
theorem run_back {m : Nat} {data data' : List UInt8} (sameLength : data.length = data'.length)
    (fits : m + 8 * data.length ≤ 32) {c d : UInt32}
    (agree : AgreeFrom m (run poly c data) (run poly d data')) : AgreeFrom (m + 8 * data.length) c d := by
  induction data generalizing data' c d with
  | nil =>
    cases data' with
    | nil => exact agree
    | cons byte' rest' => cases sameLength
  | cons byte rest ih =>
    cases data' with
    | nil => cases sameLength
    | cons byte' rest' =>
      rw [List.length_cons] at fits ⊢
      have before := ih (Nat.succ.inj sameLength) (by omega) agree
      rw [Nat.mul_succ, ← Nat.add_assoc]
      exact (step_back high (by omega) before).2

/-- **From one state, at most four bytes are determined by the state they lead to.** -/
theorem eq_of_run {data data' : List UInt8} (sameLength : data.length = data'.length)
    (short : data.length ≤ 4) {c : UInt32} (same : run poly c data = run poly c data') : data = data' := by
  induction data generalizing data' c with
  | nil =>
    cases data' with
    | nil => rfl
    | cons byte' rest' => cases sameLength
  | cons byte rest ih =>
    cases data' with
    | nil => cases sameLength
    | cons byte' rest' =>
      have sameLength' := Nat.succ.inj sameLength
      rw [List.length_cons] at short
      have after := run_back high (m := 0) sameLength' (by omega)
        (fun i _ => congrArg (·.toBitVec.getLsbD i) same)
      obtain ⟨low, _⟩ := step_back high (by omega) after
      have first : byte = byte' := by
        refine UInt8.toBitVec_inj.mp (BitVec.eq_of_getLsbD_eq fun i inside => ?_)
        have bits := low i inside
        rw [UInt32.toBitVec_xor, UInt32.toBitVec_xor, BitVec.getLsbD_xor, BitVec.getLsbD_xor,
          bit_toUInt32, bit_toUInt32] at bits
        exact Bool.xor_right_inj.mp bits
      subst first
      rw [ih sameLength' (by omega) same]

/-- **A change of at most four neighbouring bytes changes the checksum.** -/
theorem run_ne_of_window {window window' : List UInt8} (sameLength : window.length = window'.length)
    (short : window.length ≤ 4) (changed : window ≠ window') (c : UInt32) (front back : List UInt8) :
    run poly c (front ++ (window ++ back)) ≠ run poly c (front ++ (window' ++ back)) := by
  intro same
  unfold run at same
  simp only [List.foldl_append] at same
  exact changed (eq_of_run high sameLength short (run_injective high back same))

end Back

end Crc

end Sententia.Library
