/-
**Framing depends only on the bytes.** A reference parser runs once over the whole byte string: all complete
frames in front of the first that is incomplete or has a bad header, then what is wrong with that header. The
reader gives the same frames and the same status however the string is cut into chunks and whenever `next` is
called in between.

* `nextFrame`, `faultOf`, `parseFrames` — the reference.
* `FrameReader.next_cases` — one call of `next`, in their terms.
* `framing_reference` — any sequence of `append` and `next`, and a drain at the end.
-/

import Sententia.Net.Framing

namespace Sententia

open Library WireReader Reader

/-! ### The reference parser -/

/-- What is wrong with a header. -/
def FrameHeader.fault (header : FrameHeader) : FrameStatus :=
  if header.magic ≠ kMagic then .badMagic
  else if header.version ≠ kVersion then .badVersion
  else if header.length.toNat > kMaxPayload then .payloadTooLarge
  else .ok

/-- The complete frame at the front of a byte string, and what follows it. -/
def nextFrame (bytes : Buffer) : Option (Frame × Buffer) :=
  (readHeader bytes).bind fun (header, body) =>
    if header.fault = .ok ∧ header.length.toNat ≤ body.length then
      some ({ type := header.type, payload := body.take header.length.toNat },
        body.drop header.length.toNat)
    else none

/-- What is wrong with the header at the front of a byte string, if all of it is there. -/
def faultOf (bytes : Buffer) : FrameStatus :=
  match readHeader bytes with
  | none => .ok
  | some (header, _) => header.fault

/-- The whole byte string, parsed once. -/
def parseFrames (bytes : Buffer) : List Frame × FrameStatus :=
  let (frames, tail) := scan nextFrame bytes.length bytes
  (frames, faultOf tail)

/-! #### Headers -/

theorem exists_littleEndian {width : Nat} {bytes : Buffer} (long : width ≤ bytes.length) :
    ∃ value < 256 ^ width, ∃ rest, bytes = littleEndian width value ++ rest ∧
      rest.length + width = bytes.length := by
  have length := List.length_take_of_le long
  have back := littleEndian_ofLittleEndian (bytes.take width)
  have small := ofLittleEndian_lt (bytes.take width)
  rw [length] at back small
  refine ⟨_, small, bytes.drop width, ?_, ?_⟩
  · rw [back, List.take_append_drop]
  · rw [List.length_drop]
    omega

theorem exists_u16 {bytes : Buffer} (long : 2 ≤ bytes.length) :
    ∃ value rest, bytes = WireWriter.u16 value ++ rest ∧ rest.length + 2 = bytes.length := by
  obtain ⟨value, small, rest, same, length⟩ := exists_littleEndian long
  refine ⟨UInt16.ofNat value, rest, ?_, length⟩
  rw [WireWriter.u16, UInt16.toNat_ofNat', Nat.mod_eq_of_lt (Nat.lt_of_lt_of_eq small (by decide)), same]

theorem exists_u32 {bytes : Buffer} (long : 4 ≤ bytes.length) :
    ∃ value rest, bytes = WireWriter.u32 value ++ rest ∧ rest.length + 4 = bytes.length := by
  obtain ⟨value, small, rest, same, length⟩ := exists_littleEndian long
  refine ⟨UInt32.ofNat value, rest, ?_, length⟩
  rw [WireWriter.u32, UInt32.toNat_ofNat', Nat.mod_eq_of_lt (Nat.lt_of_lt_of_eq small (by decide)), same]

/-- Twelve bytes are a header. -/
theorem exists_header {bytes : Buffer} (long : kHeaderSize ≤ bytes.length) :
    ∃ header body, bytes = encodeHeader header ++ body := by
  unfold kHeaderSize at long
  obtain ⟨magic, rest₁, rfl, length₁⟩ := exists_u32 (show 4 ≤ bytes.length by omega)
  obtain ⟨version, rest₂, rfl, length₂⟩ := exists_u16 (show 2 ≤ rest₁.length by omega)
  obtain ⟨type, rest₃, rfl, length₃⟩ := exists_u16 (show 2 ≤ rest₂.length by omega)
  obtain ⟨length, body, rfl, length₄⟩ := exists_u32 (show 4 ≤ rest₃.length by omega)
  refine ⟨{ magic, version, type, length }, body, ?_⟩
  simp only [encodeHeader, List.append_assoc]

theorem takes_header : Takes readHeader fun header bytes => bytes = encodeHeader header := by
  refine takes_u32.bind fun magic _ isMagic => takes_u16.bind fun version _ isVersion =>
    takes_u16.bind fun type _ isType => takes_u32.bind fun length _ isLength => Takes.pure ?_
  rw [isMagic, isVersion, isType, isLength, List.append_nil]
  rfl

/-- A header is read exactly if its twelve bytes are there. -/
theorem readHeader_eq_none_iff (bytes : Buffer) :
    readHeader bytes = none ↔ bytes.length < kHeaderSize := by
  constructor
  · intro nothing
    by_contra long
    obtain ⟨header, body, rfl⟩ := exists_header (Nat.le_of_not_lt long)
    rw [reads_header header body] at nothing
    cases nothing
  · intro few
    by_contra isFrame
    obtain ⟨⟨header, body⟩, found⟩ := Option.ne_none_iff_exists'.mp isFrame
    obtain ⟨_, rfl, rfl⟩ := takes_header bytes header body found
    rw [List.length_append, length_encodeHeader] at few
    exact absurd few (Nat.not_lt.mpr (Nat.le_add_right _ _))

/-- What has been read of a header stays as it is, whatever follows. -/
theorem readHeader_append {bytes body : Buffer} {header : FrameHeader}
    (found : readHeader bytes = some (header, body)) (more : Buffer) :
    readHeader (bytes ++ more) = some (header, body ++ more) := by
  obtain ⟨_, rfl, rfl⟩ := takes_header bytes header body found
  rw [List.append_assoc]
  exact reads_header header (body ++ more)

/-! #### Frames -/

theorem nextFrame_eq_some {bytes rest : Buffer} {frame : Frame} :
    nextFrame bytes = some (frame, rest) ↔ ∃ header body, readHeader bytes = some (header, body) ∧
      header.fault = .ok ∧ header.length.toNat ≤ body.length ∧
        frame = { type := header.type, payload := body.take header.length.toNat } ∧
          rest = body.drop header.length.toNat := by
  unfold nextFrame
  constructor
  · intro found
    obtain ⟨⟨header, body⟩, read, whole⟩ := Option.bind_eq_some_iff.mp found
    obtain ⟨⟨good, there⟩, same⟩ := Option.ite_none_right_eq_some.mp whole
    obtain ⟨rfl, rfl⟩ := Prod.mk.inj (Option.some.inj same)
    exact ⟨header, body, read, good, there, rfl, rfl⟩
  · rintro ⟨header, body, read, good, there, rfl, rfl⟩
    rw [read]
    exact if_pos ⟨good, there⟩

theorem length_nextFrame {bytes rest : Buffer} {frame : Frame}
    (found : nextFrame bytes = some (frame, rest)) : rest.length < bytes.length := by
  obtain ⟨header, body, read, _, _, _, rfl⟩ := nextFrame_eq_some.mp found
  obtain ⟨_, rfl, rfl⟩ := takes_header bytes header body read
  have positive : 0 < kHeaderSize := by decide
  rw [List.length_append, length_encodeHeader, List.length_drop]
  omega

theorem nextFrame_append {bytes rest : Buffer} {frame : Frame}
    (found : nextFrame bytes = some (frame, rest)) (more : Buffer) :
    nextFrame (bytes ++ more) = some (frame, rest ++ more) := by
  obtain ⟨header, body, read, good, there, rfl, rfl⟩ := nextFrame_eq_some.mp found
  refine nextFrame_eq_some.mpr ⟨header, body ++ more, readHeader_append read more, good, ?_, ?_, ?_⟩
  · rw [List.length_append]
    omega
  · rw [List.take_append_of_le_length there]
  · rw [List.drop_append_of_le_length there]

/-- Behind a bad header there is no frame. -/
theorem nextFrame_of_fault {bytes : Buffer} (bad : faultOf bytes ≠ .ok) : nextFrame bytes = none := by
  by_contra isFrame
  obtain ⟨⟨frame, rest⟩, found⟩ := Option.ne_none_iff_exists'.mp isFrame
  obtain ⟨header, body, read, good, _⟩ := nextFrame_eq_some.mp found
  unfold faultOf at bad
  rw [read] at bad
  exact bad good

theorem faultOf_append {bytes : Buffer} (bad : faultOf bytes ≠ .ok) (more : Buffer) :
    faultOf (bytes ++ more) = faultOf bytes := by
  unfold faultOf at bad ⊢
  cases read : readHeader bytes with
  | none =>
    rw [read] at bad
    exact absurd rfl bad
  | some result => rw [readHeader_append read more]

theorem parseFrames_of_frame {bytes rest : Buffer} {frame : Frame}
    (found : nextFrame bytes = some (frame, rest)) :
    parseFrames bytes = (frame :: (parseFrames rest).1, (parseFrames rest).2) := by
  have less := length_nextFrame found
  have fuel : scan nextFrame (bytes.length - 1) rest = scan nextFrame rest.length rest :=
    scan_enough length_nextFrame (by omega) (Nat.le_refl _)
  have length : bytes.length = bytes.length - 1 + 1 := by omega
  unfold parseFrames
  rw [length, scan, found]
  simp only [fuel]

theorem parseFrames_of_none {bytes : Buffer} (nothing : nextFrame bytes = none) :
    parseFrames bytes = ([], faultOf bytes) := by
  unfold parseFrames
  cases bytes.length with
  | zero => rfl
  | succ fuel => rw [scan, nothing]

/-! ### The reader -/

namespace FrameReader

/-- **One call of `next`**: the first frame of what is unread, or nothing and what is wrong with its
header. -/
theorem next_cases {reader : FrameReader} (ok : reader.status = .ok) :
    (∃ frame reader', nextFrame reader.unread = some (frame, reader'.unread) ∧
        reader.next = (reader', some frame) ∧ reader'.status = .ok) ∨
      (nextFrame reader.unread = none ∧
        reader.next = ({ reader with status := faultOf reader.unread }, none)) := by
  have same : { reader with status := .ok } = reader := by rw [← ok]
  by_cases few : reader.buffered < kHeaderSize
  · have nothing := (readHeader_eq_none_iff reader.unread).mpr (by rw [length_unread]; exact few)
    refine Or.inr ⟨by rw [nextFrame, nothing]; rfl, ?_⟩
    rw [next_of_few few, faultOf, nothing, same]
  · obtain ⟨header, body, unread⟩ := exists_header
      (show kHeaderSize ≤ reader.unread.length by rw [length_unread]; exact Nat.le_of_not_lt few)
    have read : readHeader reader.unread = some (header, body) := by
      rw [unread]
      exact reads_header header body
    have fault : faultOf reader.unread = header.fault := by rw [faultOf, read]
    have refused : header.fault ≠ .ok → nextFrame reader.unread = none := fun bad =>
      nextFrame_of_fault (fault ▸ bad)
    unfold next
    rw [failed_eq_false ok, if_neg Bool.false_ne_true, if_neg few, fault]
    simp only [read]
    by_cases magic : header.magic ≠ kMagic
    · have bad : header.fault = .badMagic := if_pos magic
      rw [if_pos magic, bad]
      exact Or.inr ⟨refused (by rw [bad]; decide), rfl⟩
    by_cases version : header.version ≠ kVersion
    · have bad : header.fault = .badVersion := (if_neg magic).trans (if_pos version)
      rw [if_neg magic, if_pos version, bad]
      exact Or.inr ⟨refused (by rw [bad]; decide), rfl⟩
    by_cases large : header.length.toNat > kMaxPayload
    · have bad : header.fault = .payloadTooLarge :=
        (if_neg magic).trans ((if_neg version).trans (if_pos large))
      rw [if_neg magic, if_neg version, if_pos large, bad]
      exact Or.inr ⟨refused (by rw [bad]; decide), rfl⟩
    have good : header.fault = .ok := (if_neg magic).trans ((if_neg version).trans (if_neg large))
    rw [if_neg magic, if_neg version, if_neg large, good]
    have length : reader.buffered = kHeaderSize + body.length := by
      rw [← length_unread, unread, List.length_append, length_encodeHeader]
    by_cases short : reader.buffered < kHeaderSize + header.length.toNat
    · rw [dif_pos short, same]
      refine Or.inr ⟨?_, rfl⟩
      rw [nextFrame, read]
      exact if_neg fun whole => by omega
    · rw [dif_neg short]
      refine Or.inl ⟨_, _, nextFrame_eq_some.mpr ⟨header, body, read, good, by omega, rfl, ?_⟩, rfl, ?_⟩
      · rw [unread_advance, unread, ← List.drop_drop, ← length_encodeHeader header, List.drop_left]
      · rw [status_advance, ok]

theorem next_of_failed {reader : FrameReader} (bad : reader.status ≠ .ok) : reader.next = (reader, none) := by
  have failed : reader.failed = true := decide_eq_true bad
  unfold next
  rw [failed, if_pos rfl]

theorem buffered_next {reader reader' : FrameReader} {frame : Frame}
    (yields : reader.next = (reader', some frame)) : reader'.buffered < reader.buffered := by
  by_cases ok : reader.status = .ok
  · rcases next_cases ok with ⟨frame', later, found, yields', _⟩ | ⟨_, waits⟩
    · cases yields.symm.trans yields'
      have less := length_nextFrame found
      rw [length_unread, length_unread] at less
      exact less
    · cases yields.symm.trans waits
  · cases yields.symm.trans (next_of_failed ok)

/-- `next`, until it yields nothing. -/
def drain (reader : FrameReader) : FrameReader × List Frame :=
  match _yields : reader.next with
  | (reader', none) => (reader', [])
  | (reader', some frame) => (reader'.drain.1, frame :: reader'.drain.2)
termination_by reader.buffered
decreasing_by exact buffered_next _yields

theorem drain_of_none {reader reader' : FrameReader} (waits : reader.next = (reader', none)) :
    reader.drain = (reader', []) := by
  rw [drain]
  split
  · next later same =>
    cases same.symm.trans waits
    rfl
  · next later frame same => cases same.symm.trans waits

theorem drain_of_some {reader reader' : FrameReader} {frame : Frame}
    (yields : reader.next = (reader', some frame)) :
    reader.drain = (reader'.drain.1, frame :: reader'.drain.2) := by
  rw [drain]
  split
  · next later same => cases same.symm.trans yields
  · next later frame' same =>
    cases same.symm.trans yields
    rfl

end FrameReader

/-! ### Reading a stream in chunks -/

/-- What the socket layer does with its reader. -/
inductive ReaderCall
  | append (data : Buffer)
  | next

/-- The reader, and the frames it has yielded, oldest first. -/
structure Reading where
  reader : FrameReader
  frames : List Frame

namespace Reading

def fresh : Reading where
  reader := FrameReader.fresh
  frames := []

def perform (reading : Reading) : ReaderCall → Reading
  | .append data => { reading with reader := reading.reader.append data }
  | .next =>
    { reader := reading.reader.next.1, frames := reading.frames ++ reading.reader.next.2.toList }

/-- The bytes of the calls, in order. -/
def fed (calls : List ReaderCall) : Buffer :=
  calls.flatMap fun call =>
    match call with
    | .append data => data
    | .next => []

/-- **The invariant**: whatever follows, the frames yielded and the parse of what is unread are the parse of
everything fed; once the reader has failed, nothing that follows matters. -/
def Agrees (reading : Reading) (bytes : Buffer) : Prop :=
  ∀ more, parseFrames (bytes ++ more) =
    if reading.reader.status = .ok then
      (reading.frames ++ (parseFrames (reading.reader.unread ++ more)).1,
        (parseFrames (reading.reader.unread ++ more)).2)
    else (reading.frames, reading.reader.status)

theorem agrees_fresh : fresh.Agrees [] := fun _ => rfl

variable {reading : Reading} {bytes : Buffer}

theorem Agrees.append (agrees : reading.Agrees bytes) (data : Buffer) :
    (reading.perform (.append data)).Agrees (bytes ++ data) := by
  intro more
  have status : (reading.perform (.append data)).reader.status = reading.reader.status :=
    FrameReader.status_append reading.reader data
  rw [List.append_assoc, agrees (data ++ more), status]
  by_cases ok : reading.reader.status = .ok
  · rw [if_pos ok, if_pos ok]
    show _ = (reading.frames ++ (parseFrames ((reading.reader.append data).unread ++ more)).1,
      (parseFrames ((reading.reader.append data).unread ++ more)).2)
    rw [FrameReader.unread_append ok, List.append_assoc]
  · rw [if_neg ok, if_neg ok]
    rfl

theorem Agrees.next (agrees : reading.Agrees bytes) : (reading.perform .next).Agrees bytes := by
  intro more
  rw [agrees more]
  by_cases ok : reading.reader.status = .ok
  · rw [if_pos ok]
    rcases FrameReader.next_cases ok with ⟨frame, reader', found, yields, ok'⟩ | ⟨nothing, waits⟩
    · have performed : reading.perform .next =
          { reader := reader', frames := reading.frames ++ [frame] } := by
        unfold perform
        rw [yields]
        rfl
      rw [performed, if_pos ok', parseFrames_of_frame (nextFrame_append found more), List.append_assoc]
      rfl
    · have performed : reading.perform .next =
          { reading with reader := { reading.reader with status := faultOf reading.reader.unread } } := by
        unfold perform
        rw [waits]
        simp only [Option.toList_none, List.append_nil]
      rw [performed]
      by_cases good : faultOf reading.reader.unread = .ok
      · rw [if_pos good]
        rfl
      · have bad := faultOf_append good more
        rw [if_neg good, parseFrames_of_none (nextFrame_of_fault (bad ▸ good)), bad, List.append_nil]
  · have performed : reading.perform .next = reading := by
      unfold perform
      rw [FrameReader.next_of_failed ok]
      simp only [Option.toList_none, List.append_nil]
    rw [performed, if_neg ok]

theorem Agrees.run (agrees : reading.Agrees bytes) (calls : List ReaderCall) :
    (calls.foldl perform reading).Agrees (bytes ++ fed calls) := by
  induction calls generalizing reading bytes with
  | nil =>
    show reading.Agrees (bytes ++ [])
    rw [List.append_nil]
    exact agrees
  | cons call rest ih =>
    rw [List.foldl_cons]
    cases call with
    | append data =>
      have later := ih (agrees.append data)
      rw [List.append_assoc] at later
      exact later
    | next => exact ih agrees.next

/-- Draining the reader parses what it has not read. -/
theorem drain_eq (reader : FrameReader) (ok : reader.status = .ok) :
    (reader.drain.2, reader.drain.1.status) = parseFrames reader.unread := by
  induction left : reader.buffered using Nat.strong_induction_on generalizing reader with
  | _ left ih =>
    rcases FrameReader.next_cases ok with ⟨frame, reader', found, yields, ok'⟩ | ⟨nothing, waits⟩
    · have less := FrameReader.buffered_next yields
      have rest := ih reader'.buffered (by omega) reader' ok' rfl
      rw [FrameReader.drain_of_some yields, parseFrames_of_frame found, ← rest]
    · rw [FrameReader.drain_of_none waits, parseFrames_of_none nothing]

end Reading

/-- **Framing depends only on the bytes.** However a byte string is cut into chunks and whenever `next` is
called in between, after a drain the frames and the status are those of one parse of the whole string. -/
theorem framing_reference (calls : List ReaderCall) :
    ((calls.foldl Reading.perform Reading.fresh).frames ++
        (calls.foldl Reading.perform Reading.fresh).reader.drain.2,
      (calls.foldl Reading.perform Reading.fresh).reader.drain.1.status) =
      parseFrames (Reading.fed calls) := by
  have agrees := Reading.agrees_fresh.run calls []
  rw [List.nil_append, List.append_nil, List.append_nil] at agrees
  rw [agrees]
  generalize calls.foldl Reading.perform Reading.fresh = reading
  by_cases ok : reading.reader.status = .ok
  · rw [if_pos ok, ← Reading.drain_eq reading.reader ok]
  · rw [if_neg ok, FrameReader.drain_of_none (FrameReader.next_of_failed ok), List.append_nil]

/-- A heartbeat, and a header that is none. -/
example : parseFrames (encode (.heartbeat ⟨1, 7⟩) ++ List.replicate 12 0) =
    ([{ type := (typeOf (.heartbeat ⟨1, 7⟩)).toWire, payload := encodeBody (.heartbeat ⟨1, 7⟩) }],
      .badMagic) := by decide

end Sententia
