/-
**Byte codecs.** Little-endian integers, readers that consume a front of their input, and streams of
frames.

* `Reads reader bytes value` — the reader takes exactly `bytes` and returns `value`, whatever follows.
  Readers compose by `Reads.bind`.
* `Takes reader spec` — the converse: whatever the reader accepts, the bytes and the value are as `spec`
  says. The rules have the same shape.
* `scan next` — frame after frame, up to the first that `next` does not accept. `scan_flatMap`: a stream
  of encoded frames is scanned back, and a tail that is no frame is left over. `scan_enough`: any fuel that
  covers the input gives the same.
-/

import Mathlib.Data.List.Basic
import Mathlib.Tactic.Ring

namespace Sententia.Library

/-! ### Little-endian integers -/

/-- The low `width` bytes of a number, least significant first. -/
def littleEndian : Nat → Nat → List UInt8
  | 0, _ => []
  | width + 1, value => UInt8.ofNat value :: littleEndian width (value / 256)

def ofLittleEndian : List UInt8 → Nat
  | [] => 0
  | byte :: rest => byte.toNat + 256 * ofLittleEndian rest

@[simp] theorem length_littleEndian (width value : Nat) : (littleEndian width value).length = width := by
  induction width generalizing value with
  | zero => rfl
  | succ width ih => simp [littleEndian, ih]

theorem ofLittleEndian_littleEndian {width value : Nat} (fits : value < 256 ^ width) :
    ofLittleEndian (littleEndian width value) = value := by
  induction width generalizing value with
  | zero =>
    rw [Nat.pow_zero] at fits
    simp [littleEndian, ofLittleEndian]
    omega
  | succ width ih =>
    have fits' : value / 256 < 256 ^ width := by
      rw [Nat.div_lt_iff_lt_mul (by decide)]
      exact Nat.pow_succ .. ▸ fits
    have low : (UInt8.ofNat value).toNat = value % 256 := by simp
    rw [littleEndian, ofLittleEndian, ih fits', low]
    omega

theorem littleEndian_ofLittleEndian (bytes : List UInt8) :
    littleEndian bytes.length (ofLittleEndian bytes) = bytes := by
  induction bytes with
  | nil => rfl
  | cons byte rest ih =>
    have low : UInt8.ofNat (byte.toNat + 256 * ofLittleEndian rest) = byte := by
      rw [← UInt8.toNat_inj, UInt8.toNat_ofNat', Nat.add_mul_mod_self_left]
      exact Nat.mod_eq_of_lt byte.toNat_lt
    have high : (byte.toNat + 256 * ofLittleEndian rest) / 256 = ofLittleEndian rest := by
      have small := byte.toNat_lt
      omega
    rw [List.length_cons, ofLittleEndian, littleEndian, low, high, ih]

theorem ofLittleEndian_lt (bytes : List UInt8) : ofLittleEndian bytes < 256 ^ bytes.length := by
  induction bytes with
  | nil => exact Nat.one_pos
  | cons byte rest ih =>
    have small := byte.toNat_lt
    rw [ofLittleEndian, List.length_cons, Nat.pow_succ]
    omega

/-! ### Readers -/

/-- A reader returns a value and what it has not consumed, or fails. -/
abbrev Reader (α : Type) := StateT (List UInt8) Option α

namespace Reader

variable {α β : Type}

/-- The next `count` bytes. -/
def take (count : Nat) : Reader (List UInt8) := fun input =>
  if input.length < count then none else some (input.take count, input.drop count)

/-- As many values as asked for, one after the other. -/
def many (reader : Reader α) : Nat → Reader (List α)
  | 0 => pure []
  | count + 1 => do
    let first ← reader
    let rest ← many reader count
    pure (first :: rest)

/-- Fails unless the condition holds. -/
def check (holds : Bool) : Reader Unit := fun input => if holds then some ((), input) else none

theorem pure_apply (value : α) (input : List UInt8) :
    (pure value : Reader α) input = some (value, input) := rfl

theorem bind_apply (reader : Reader α) (next : α → Reader β) (input : List UInt8) :
    (reader >>= next) input = (reader input).bind fun result => next result.1 result.2 := rfl

/-- The reader takes exactly `bytes` and returns `value`, whatever follows them. -/
def Reads (reader : Reader α) (bytes : List UInt8) (value : α) : Prop :=
  ∀ rest, reader (bytes ++ rest) = some (value, rest)

theorem Reads.pure (value : α) : Reads (pure value) [] value := fun _ => rfl

theorem Reads.bind {reader : Reader α} {next : α → Reader β} {bytes bytes' : List UInt8} {value : α}
    {result : β} (first : Reads reader bytes value) (second : Reads (next value) bytes' result) :
    Reads (reader >>= next) (bytes ++ bytes') result := by
  intro rest
  show (reader (bytes ++ bytes' ++ rest)).bind _ = _
  rw [List.append_assoc, first]
  exact second rest

/-- A last step that reads nothing more. -/
theorem Reads.map {reader : Reader α} {next : α → Reader β} {bytes : List UInt8} {value : α}
    {result : β} (first : Reads reader bytes value) (second : Reads (next value) [] result) :
    Reads (reader >>= next) bytes result := by
  have both := first.bind second
  rwa [List.append_nil] at both

theorem Reads.check {next : Unit → Reader β} {holds : Bool} (passes : holds = true) {bytes : List UInt8}
    {result : β} (second : Reads (next ()) bytes result) :
    Reads (Reader.check holds >>= next) bytes result := by
  have passed : Reads (Reader.check holds) [] () := by
    intro rest
    simp [Reader.check, passes]
  exact passed.bind second

theorem reads_take (bytes : List UInt8) : Reads (take bytes.length) bytes bytes := by
  intro rest
  simp [take]

theorem Reads.many {reader : Reader α} {encode : α → List UInt8} {values : List α}
    (each : ∀ value ∈ values, Reads reader (encode value) value) :
    Reads (Reader.many reader values.length) (values.flatMap encode) values := by
  induction values with
  | nil => exact Reads.pure []
  | cons value rest ih =>
    rw [List.flatMap_cons]
    refine (each value List.mem_cons_self).bind (Reads.map (ih fun later member => ?_) (Reads.pure _))
    exact each later (List.mem_cons_of_mem _ member)

/-- **What a reader accepts**: the bytes it takes stand to the value it returns as `spec` says. -/
def Takes (reader : Reader α) (spec : α → List UInt8 → Prop) : Prop :=
  ∀ input value rest, reader input = some (value, rest) → ∃ bytes, input = bytes ++ rest ∧ spec value bytes

theorem Takes.pure {value : α} {spec : α → List UInt8 → Prop} (holds : spec value []) :
    Takes (pure value) spec := by
  intro input value' rest read
  obtain ⟨rfl, rfl⟩ := Prod.mk.inj (Option.some.inj read)
  exact ⟨[], rfl, holds⟩

theorem Takes.bind {reader : Reader α} {next : α → Reader β} {spec : α → List UInt8 → Prop}
    {spec' : β → List UInt8 → Prop} (first : Takes reader spec)
    (second : ∀ value bytes, spec value bytes →
      Takes (next value) fun result more => spec' result (bytes ++ more)) :
    Takes (reader >>= next) spec' := by
  intro input result rest read
  obtain ⟨⟨value, middle⟩, read', later⟩ := Option.bind_eq_some_iff.mp read
  obtain ⟨bytes, rfl, holds⟩ := first input value middle read'
  obtain ⟨more, rfl, holds'⟩ := second value bytes holds middle result rest later
  exact ⟨bytes ++ more, (List.append_assoc _ _ _).symm, holds'⟩

theorem Takes.check {next : Unit → Reader β} {holds : Bool} {spec : β → List UInt8 → Prop}
    (second : holds = true → Takes (next ()) spec) : Takes (Reader.check holds >>= next) spec := by
  intro input result rest read
  obtain ⟨⟨_, middle⟩, passed, later⟩ := Option.bind_eq_some_iff.mp read
  unfold Reader.check at passed
  split_ifs at passed with passes
  cases passed
  exact second passes _ result rest later

theorem takes_take (count : Nat) : Takes (take count) fun value bytes => bytes = value ∧ value.length = count := by
  intro input value rest read
  unfold take at read
  split_ifs at read with short
  obtain ⟨rfl, rfl⟩ := Prod.mk.inj (Option.some.inj read)
  exact ⟨input.take count, (List.take_append_drop count input).symm, rfl,
    List.length_take_of_le (Nat.le_of_not_lt short)⟩

theorem Takes.many {reader : Reader α} {encode : α → List UInt8} {valid : α → Prop}
    (each : Takes reader fun value bytes => bytes = encode value ∧ valid value) (count : Nat) :
    Takes (Reader.many reader count) fun values bytes =>
      bytes = values.flatMap encode ∧ values.length = count ∧ ∀ value ∈ values, valid value := by
  induction count with
  | zero => exact Takes.pure ⟨rfl, rfl, fun _ member => absurd member List.not_mem_nil⟩
  | succ count ih =>
    refine Takes.bind each ?_
    rintro value _ ⟨rfl, isValid⟩
    refine Takes.bind ih ?_
    rintro values _ ⟨rfl, length, valid'⟩
    refine Takes.pure ⟨?_, congrArg (· + 1) length, List.forall_mem_cons.mpr ⟨isValid, valid'⟩⟩
    rw [List.append_nil]
    rfl

end Reader

/-! ### Streams of frames -/

section Frames

variable {ρ : Type}

/-- Frame after frame, at most `fuel` of them; the frames and the tail that is left. -/
def scan (next : List UInt8 → Option (ρ × List UInt8)) : Nat → List UInt8 → List ρ × List UInt8
  | 0, input => ([], input)
  | fuel + 1, input =>
    match next input with
    | none => ([], input)
    | some (record, rest) => (record :: (scan next fuel rest).1, (scan next fuel rest).2)

/-- **A stream of encoded frames is scanned back**, and a tail that is no frame is left over. -/
theorem scan_flatMap {next : List UInt8 → Option (ρ × List UInt8)} {encode : ρ → List UInt8}
    {records : List ρ} {tail : List UInt8}
    (accepted : ∀ record ∈ records, ∀ rest, next (encode record ++ rest) = some (record, rest))
    (stops : next tail = none) {fuel : Nat} (enough : records.length ≤ fuel) :
    scan next fuel (records.flatMap encode ++ tail) = (records, tail) := by
  induction records generalizing fuel with
  | nil =>
    cases fuel with
    | zero => rfl
    | succ fuel => simp [scan, stops]
  | cons record rest ih =>
    obtain ⟨fuel, rfl⟩ : ∃ less, fuel = less + 1 := ⟨fuel - 1, by rw [List.length_cons] at enough; omega⟩
    have others := ih (fun later member => accepted later (List.mem_cons_of_mem _ member))
      (Nat.le_of_succ_le_succ enough)
    rw [List.flatMap_cons, List.append_assoc, scan, accepted record List.mem_cons_self]
    simp only [others]

/-- **What is scanned is what the input starts with**, and with enough fuel the scan stops only at a tail
that is no frame. -/
theorem scan_sound {next : List UInt8 → Option (ρ × List UInt8)} {encode : ρ → List UInt8}
    {valid : ρ → Prop}
    (sound : ∀ input record rest, next input = some (record, rest) →
      input = encode record ++ rest ∧ valid record)
    (nonempty : ∀ record, encode record ≠ []) (fuel : Nat) (input : List UInt8) :
    input = (scan next fuel input).1.flatMap encode ++ (scan next fuel input).2 ∧
      (∀ record ∈ (scan next fuel input).1, valid record) ∧
        (input.length ≤ fuel → next (scan next fuel input).2 = none) := by
  have ending : next [] = none := by
    cases found : next [] with
    | none => rfl
    | some result =>
      have split := (sound [] result.1 result.2 found).1
      exact absurd (List.append_eq_nil_iff.mp split.symm).1 (nonempty result.1)
  induction fuel generalizing input with
  | zero =>
    refine ⟨rfl, nofun, fun short => ?_⟩
    rw [List.length_eq_zero_iff.mp (Nat.le_zero.mp short)]
    exact ending
  | succ fuel ih =>
    cases found : next input with
    | none =>
      rw [scan, found]
      exact ⟨rfl, nofun, fun _ => found⟩
    | some result =>
      obtain ⟨record, rest⟩ := result
      obtain ⟨split, isValid⟩ := sound input record rest found
      obtain ⟨split', valid', stops⟩ := ih rest
      rw [scan, found]
      refine ⟨?_, ?_, fun enough => stops ?_⟩
      · show input = (record :: (scan next fuel rest).1).flatMap encode ++ (scan next fuel rest).2
        rw [List.flatMap_cons, List.append_assoc, ← split', ← split]
      · exact List.forall_mem_cons.mpr ⟨isValid, valid'⟩
      · have positive := List.length_pos_iff.mpr (nonempty record)
        rw [split, List.length_append] at enough
        omega

/-- More fuel than there are bytes changes nothing, where every frame has a byte at least. -/
theorem scan_enough {next : List UInt8 → Option (ρ × List UInt8)}
    (shrinks : ∀ {input record rest}, next input = some (record, rest) → rest.length < input.length)
    {fuel fuel' : Nat} {input : List UInt8} (enough : input.length ≤ fuel) (enough' : input.length ≤ fuel') :
    scan next fuel input = scan next fuel' input := by
  have nothing : next [] = none := by
    by_contra isRecord
    obtain ⟨⟨record, rest⟩, found⟩ := Option.ne_none_iff_exists'.mp isRecord
    exact Nat.not_lt_zero _ (shrinks found)
  induction fuel generalizing input fuel' with
  | zero =>
    obtain rfl := List.length_eq_zero_iff.mp (Nat.le_zero.mp enough)
    cases fuel' with
    | zero => rfl
    | succ fuel' => rw [scan, scan, nothing]
  | succ fuel ih =>
    cases fuel' with
    | zero =>
      obtain rfl := List.length_eq_zero_iff.mp (Nat.le_zero.mp enough')
      rw [scan, scan, nothing]
    | succ fuel' =>
      rw [scan, scan]
      cases found : next input with
      | none => rfl
      | some result =>
        have less := shrinks found
        simp only [ih (show result.2.length ≤ fuel by omega) (show result.2.length ≤ fuel' by omega)]

end Frames

end Sententia.Library
