/-
**Message framing over a byte stream** (`framing.hpp`, `framing.cpp`): the writer keeps the bytes the socket
has not taken, the reader the bytes that are no whole frame yet. Both keep them behind a moving offset and
slide them to the front of the buffer once the offset is large.

* `FrameReader.next_of_short`, `next_of_whole` — against a stream of frames the reader waits for the first
  of them or yields it.
* `Stream.Aligned` — the bytes on the way, whoever holds them, are the frames of the messages on the way.
* `stream_delivery` — what is delivered is, in every interleaving, a prefix of what was enqueued.
-/

import Sententia.Library.Transition
import Sententia.Net.MessageCodec

namespace Sententia

open Library WireReader Reader

/-- Once consumed bytes exceed this, the remainder is slid to the front. -/
def kCompactThreshold : Nat := 64 * 1024

/-- The type is the value from the wire: whether it is one of ours is for `decodeBody` to say. -/
structure Frame where
  type : UInt16
  payload : Buffer
deriving Repr, DecidableEq

/-! ### The reader -/

/-- `FrameReader::Status`. -/
inductive FrameStatus
  | ok
  | badMagic
  | badVersion
  | payloadTooLarge
deriving Repr, DecidableEq

structure FrameReader where
  buf : Buffer
  readPos : Nat
  status : FrameStatus
  within : readPos ≤ buf.length

namespace FrameReader

def fresh : FrameReader where
  buf := []
  readPos := 0
  status := .ok
  within := Nat.le_refl 0

def failed (reader : FrameReader) : Bool := reader.status ≠ .ok

def buffered (reader : FrameReader) : Nat := reader.buf.length - reader.readPos

/-- The bytes from the offset on. -/
def unread (reader : FrameReader) : Buffer := reader.buf.drop reader.readPos

def append (reader : FrameReader) (data : Buffer) : FrameReader :=
  if reader.failed ∨ data.length = 0 then reader
  else
    { reader with
      buf := reader.buf ++ data
      within := Nat.le_trans reader.within (by rw [List.length_append]; exact Nat.le_add_right ..) }

def compact (reader : FrameReader) : FrameReader :=
  if reader.readPos = 0 then reader
  else { reader with buf := reader.buf.drop reader.readPos, readPos := 0, within := Nat.zero_le _ }

/-- The end of `next`: the offset moves past the frame, and the buffer is compacted when it is large. -/
def advance (reader : FrameReader) (count : Nat) (room : count ≤ reader.buffered) : FrameReader :=
  let reader := { reader with
    readPos := reader.readPos + count
    within := by
      have within := reader.within
      unfold buffered at room
      omega }
  if reader.readPos ≥ kCompactThreshold then reader.compact else reader

/-- The next complete frame. The four reads of the header cannot fail once `kHeaderSize` bytes are there. -/
def next (reader : FrameReader) : FrameReader × Option Frame :=
  if reader.failed then (reader, none)
  else if reader.buffered < kHeaderSize then (reader, none)
  else
    match readHeader reader.unread with
    | none => (reader, none)
    | some (header, body) =>
      if header.magic ≠ kMagic then ({ reader with status := .badMagic }, none)
      else if header.version ≠ kVersion then ({ reader with status := .badVersion }, none)
      else if header.length.toNat > kMaxPayload then ({ reader with status := .payloadTooLarge }, none)
      else if short : reader.buffered < kHeaderSize + header.length.toNat then (reader, none)
      else
        (reader.advance (kHeaderSize + header.length.toNat) (Nat.le_of_not_lt short),
          some { type := header.type, payload := body.take header.length.toNat })

theorem length_unread (reader : FrameReader) : reader.unread.length = reader.buffered :=
  List.length_drop

theorem unread_compact (reader : FrameReader) : reader.compact.unread = reader.unread := by
  unfold compact
  split
  · rfl
  · rfl

theorem status_compact (reader : FrameReader) : reader.compact.status = reader.status := by
  unfold compact
  split
  · rfl
  · rfl

theorem unread_advance (reader : FrameReader) (count : Nat) (room : count ≤ reader.buffered) :
    (reader.advance count room).unread = reader.unread.drop count := by
  have moved : reader.buf.drop (reader.readPos + count) = (reader.buf.drop reader.readPos).drop count :=
    List.drop_drop.symm
  unfold advance
  dsimp only
  split
  · rw [unread_compact]
    exact moved
  · exact moved

theorem status_advance (reader : FrameReader) (count : Nat) (room : count ≤ reader.buffered) :
    (reader.advance count room).status = reader.status := by
  unfold advance
  dsimp only
  split
  · rw [status_compact]
  · rfl

theorem failed_eq_false {reader : FrameReader} (ok : reader.status = .ok) : reader.failed = false := by
  simp [failed, ok]

theorem status_append (reader : FrameReader) (data : Buffer) :
    (reader.append data).status = reader.status := by
  unfold append
  split
  · rfl
  · rfl

theorem unread_append {reader : FrameReader} (ok : reader.status = .ok) (data : Buffer) :
    (reader.append data).unread = reader.unread ++ data := by
  unfold append
  split
  · next ignored =>
    have empty : data = [] := by
      rcases ignored with failed | empty
      · rw [failed_eq_false ok] at failed
        cases failed
      · exact List.length_eq_zero_iff.mp empty
    rw [empty, List.append_nil]
  · exact List.drop_append_of_le_length reader.within

/-! ### The reader against a stream of frames -/

theorem toNat_length_headerOf {msg : Message} (fits : msg.Fits) :
    (headerOf msg).length.toNat = (encodeBody msg).length := by
  have cap : kMaxPayload < 2 ^ 32 := by decide
  show (UInt32.ofNat _).toNat = _
  rw [UInt32.toNat_ofNat', Nat.mod_eq_of_lt (Nat.lt_of_le_of_lt (length_encodeBody fits) cap)]

theorem length_encode (msg : Message) : (encode msg).length = kHeaderSize + (encodeBody msg).length := by
  rw [encode_eq, List.length_append, length_encodeHeader]

theorem next_of_few {reader : FrameReader} (few : reader.buffered < kHeaderSize) :
    reader.next = (reader, none) := by
  unfold next
  rw [if_pos few, ite_self]

/-- Behind the header of a message the reader passes its three checks and looks at the length only. -/
theorem next_of_header {reader : FrameReader} (ok : reader.status = .ok) {msg : Message} (fits : msg.Fits)
    {body : Buffer} (bytes : reader.unread = encodeHeader (headerOf msg) ++ body) :
    reader.next = if short : reader.buffered < kHeaderSize + (headerOf msg).length.toNat then (reader, none)
      else (reader.advance (kHeaderSize + (headerOf msg).length.toNat) (Nat.le_of_not_lt short),
        some { type := (typeOf msg).toWire, payload := body.take (headerOf msg).length.toNat }) := by
  have enough : ¬ reader.buffered < kHeaderSize := by
    rw [← length_unread, bytes, List.length_append, length_encodeHeader]
    exact Nat.not_lt.mpr (Nat.le_add_right ..)
  have small : ¬ (headerOf msg).length.toNat > kMaxPayload := by
    rw [toNat_length_headerOf fits]
    exact Nat.not_lt.mpr (length_encodeBody fits)
  unfold next
  rw [failed_eq_false ok, if_neg Bool.false_ne_true, if_neg enough, bytes, reads_header (headerOf msg) body]
  dsimp only
  rw [if_neg (fun wrong => wrong rfl), if_neg (fun wrong => wrong rfl), if_neg small]
  rfl

/-- **A frame that is not all there is waited for.** -/
theorem next_of_short {reader : FrameReader} (ok : reader.status = .ok) {msg : Message} (fits : msg.Fits)
    {later rest : Buffer} (bytes : reader.unread ++ later = encode msg ++ rest)
    (short : reader.unread.length < (encode msg).length) : reader.next = (reader, none) := by
  by_cases few : reader.buffered < kHeaderSize
  · exact next_of_few few
  · have front : encodeHeader (headerOf msg) <+: reader.unread ++ later := by
      rw [bytes, encode_eq, List.append_assoc]
      exact List.prefix_append ..
    have header : encodeHeader (headerOf msg) <+: reader.unread := by
      refine List.prefix_of_prefix_length_le front (List.prefix_append ..) ?_
      rw [length_encodeHeader, length_unread]
      exact Nat.le_of_not_lt few
    obtain ⟨body, unread⟩ := header
    rw [next_of_header ok fits unread.symm, dif_pos]
    rw [← length_unread, toNat_length_headerOf fits, ← length_encode]
    exact short

/-- **A frame that is all there is yielded**, and the reader moves on to what follows it. -/
theorem next_of_whole {reader : FrameReader} (ok : reader.status = .ok) {msg : Message} (fits : msg.Fits)
    {rest : Buffer} (bytes : reader.unread = encode msg ++ rest) :
    ∃ reader', reader.next = (reader', some { type := (typeOf msg).toWire, payload := encodeBody msg }) ∧
      reader'.status = .ok ∧ reader'.unread = rest := by
  have length := toNat_length_headerOf fits
  have enough : ¬ reader.buffered < kHeaderSize + (headerOf msg).length.toNat := by
    rw [← length_unread, bytes, length, ← length_encode, List.length_append]
    exact Nat.not_lt.mpr (Nat.le_add_right ..)
  have split : reader.unread = encodeHeader (headerOf msg) ++ (encodeBody msg ++ rest) := by
    rw [bytes, encode_eq, List.append_assoc]
  have payload : (encodeBody msg ++ rest).take (headerOf msg).length.toNat = encodeBody msg := by
    rw [length, List.take_left]
  refine ⟨reader.advance _ (Nat.le_of_not_lt enough), ?_, ?_, ?_⟩
  · rw [next_of_header ok fits split, dif_neg enough, payload]
  · rw [status_advance, ok]
  · rw [unread_advance, length, ← length_encode, bytes, List.drop_left]

end FrameReader

/-! ### The writer -/

/-- The high-water mark is for the caller to look at and does not bear on what is written. -/
structure FrameWriter where
  buf : Buffer
  writePos : Nat
  within : writePos ≤ buf.length

namespace FrameWriter

def fresh : FrameWriter where
  buf := []
  writePos := 0
  within := Nat.le_refl 0

def data (writer : FrameWriter) : Buffer := writer.buf.drop writer.writePos

def size (writer : FrameWriter) : Nat := writer.buf.length - writer.writePos

def empty (writer : FrameWriter) : Bool := writer.writePos = writer.buf.length

def enqueue (writer : FrameWriter) (msg : Message) : FrameWriter :=
  { writer with
    buf := encodeTo writer.buf msg
    within := by
      rw [encodeTo_eq, List.length_append]
      exact Nat.le_trans writer.within (Nat.le_add_right ..) }

def compact (writer : FrameWriter) : FrameWriter :=
  if writer.writePos = 0 then writer
  else { writer with buf := writer.buf.drop writer.writePos, writePos := 0, within := Nat.zero_le _ }

/-- `count` bytes starting at `data` were written. -/
def consume (writer : FrameWriter) (count : Nat) : FrameWriter :=
  let writer := { writer with
    writePos := writer.writePos + min count writer.size
    within := by
      have within := writer.within
      unfold size
      omega }
  if writer.writePos = writer.buf.length then { writer with buf := [], writePos := 0, within := Nat.le_refl 0 }
  else if writer.writePos ≥ kCompactThreshold then writer.compact
  else writer

theorem length_data (writer : FrameWriter) : writer.data.length = writer.size :=
  List.length_drop

theorem empty_iff (writer : FrameWriter) : writer.empty = true ↔ writer.data = [] := by
  have within := writer.within
  unfold empty data
  rw [decide_eq_true_iff, List.drop_eq_nil_iff]
  omega

theorem data_enqueue (writer : FrameWriter) (msg : Message) :
    (writer.enqueue msg).data = writer.data ++ encode msg := by
  show (encodeTo writer.buf msg).drop writer.writePos = _
  rw [encodeTo_eq, List.drop_append_of_le_length writer.within, encode_eq]
  rfl

theorem data_compact (writer : FrameWriter) : writer.compact.data = writer.data := by
  unfold compact
  split
  · rfl
  · rfl

theorem data_consume (writer : FrameWriter) {count : Nat} (taken : count ≤ writer.size) :
    (writer.consume count).data = writer.data.drop count := by
  have moved : writer.buf.drop (writer.writePos + min count writer.size)
      = (writer.buf.drop writer.writePos).drop count := by
    rw [Nat.min_eq_left taken, List.drop_drop]
  unfold consume
  dsimp only
  split
  · next drained =>
    show [] = (writer.buf.drop writer.writePos).drop count
    rw [← moved, drained, List.drop_length]
  · split
    · rw [data_compact]
      exact moved
    · exact moved

end FrameWriter

/-! ### A connection -/

/-- The two ends of a connection, the bytes copied out of the writer that have not reached the reader, and
the messages that went in and came out. -/
structure Stream where
  writer : FrameWriter
  wire : Buffer
  reader : FrameReader
  enqueued : List Message
  delivered : List Message

/-- `transfer` is a write of any number of the bytes there are, `receive` a read, `deliver` a call of `next`
with `decodeBody` on the frame it yields. -/
inductive StreamLabel
  | enqueue (msg : Message)
  | transfer (count : Nat)
  | receive (count : Nat)
  | deliver

namespace Stream

def fresh : Stream where
  writer := FrameWriter.fresh
  wire := []
  reader := FrameReader.fresh
  enqueued := []
  delivered := []

/-- The message of a frame, if there was one and it decodes. -/
def received (frame : Option Frame) : List Message :=
  (frame.bind fun frame => decodeBody frame.type frame.payload).toList

theorem received_frame {msg : Message} (fits : msg.Fits) :
    received (some { type := (typeOf msg).toWire, payload := encodeBody msg }) = [msg] := by
  show (decodeBody (typeOf msg).toWire (encodeBody msg)).toList = _
  rw [decodeBody_encodeBody fits]
  rfl

def step (stream : Stream) : StreamLabel → Option Stream
  | .enqueue msg =>
    some { stream with writer := stream.writer.enqueue msg, enqueued := stream.enqueued ++ [msg] }
  | .transfer count =>
    if count ≤ stream.writer.size then
      some { stream with
        writer := stream.writer.consume count
        wire := stream.wire ++ stream.writer.data.take count }
    else none
  | .receive count =>
    if count ≤ stream.wire.length then
      some { stream with
        wire := stream.wire.drop count
        reader := stream.reader.append (stream.wire.take count) }
    else none
  | .deliver =>
    let (reader, frame) := stream.reader.next
    some { stream with reader, delivered := stream.delivered ++ received frame }

theorem step_deliver (stream : Stream) :
    stream.step .deliver = some { stream with
      reader := stream.reader.next.1
      delivered := stream.delivered ++ received stream.reader.next.2 } := rfl

/-- Nothing is left with the writer or on the wire, and the reader has no frame to yield. -/
def Drained (stream : Stream) : Prop :=
  stream.writer.empty = true ∧ stream.wire = [] ∧ stream.reader.next.2 = none

/-- Writing all there is, reading all of it and calling `next` often enough drains the stream. -/
def Drains (stream : Stream) : Prop :=
  ∃ calls final, run step stream (.transfer stream.writer.size ::
    .receive (stream.wire.length + stream.writer.size) :: List.replicate calls .deliver) = some final ∧
      final.Drained

/-- What has been delivered is a prefix of what was enqueued, and all of it once the stream is drained. -/
def Delivers (stream : Stream) : Prop :=
  stream.delivered <+: stream.enqueued ∧ stream.reader.failed = false ∧
    (stream.Drained → stream.delivered = stream.enqueued)

/-- **The invariant.** The bytes on the way, with the reader, on the wire and with the writer, are the frames
of the messages on the way. -/
structure Aligned (stream : Stream) (waiting : List Message) : Prop where
  ok : stream.reader.status = .ok
  fits : ∀ msg ∈ waiting, msg.Fits
  messages : stream.enqueued = stream.delivered ++ waiting
  bytes : stream.reader.unread ++ (stream.wire ++ stream.writer.data) = waiting.flatMap encode

theorem aligned_fresh : fresh.Aligned [] where
  ok := rfl
  fits := fun _ member => absurd member List.not_mem_nil
  messages := rfl
  bytes := rfl

theorem Aligned.enqueue {stream : Stream} {waiting : List Message} (aligned : stream.Aligned waiting)
    {msg : Message} (fits : msg.Fits) :
    Aligned { stream with writer := stream.writer.enqueue msg, enqueued := stream.enqueued ++ [msg] }
      (waiting ++ [msg]) where
  ok := aligned.ok
  fits := by
    intro other member
    rcases List.mem_append.mp member with old | new
    · exact aligned.fits other old
    · rw [List.mem_singleton.mp new]
      exact fits
  messages := by
    show stream.enqueued ++ [msg] = stream.delivered ++ (waiting ++ [msg])
    rw [aligned.messages, List.append_assoc]
  bytes := by
    show stream.reader.unread ++ (stream.wire ++ (stream.writer.enqueue msg).data) = _
    rw [FrameWriter.data_enqueue, List.flatMap_append, ← aligned.bytes]
    simp only [List.append_assoc, List.flatMap_cons, List.flatMap_nil, List.append_nil]

theorem Aligned.transfer {stream : Stream} {waiting : List Message} (aligned : stream.Aligned waiting)
    {count : Nat} (there : count ≤ stream.writer.size) :
    Aligned { stream with
      writer := stream.writer.consume count
      wire := stream.wire ++ stream.writer.data.take count } waiting where
  ok := aligned.ok
  fits := aligned.fits
  messages := aligned.messages
  bytes := by
    show stream.reader.unread ++ (stream.wire ++ stream.writer.data.take count
      ++ (stream.writer.consume count).data) = _
    rw [FrameWriter.data_consume _ there, List.append_assoc stream.wire, List.take_append_drop]
    exact aligned.bytes

theorem Aligned.receive {stream : Stream} {waiting : List Message} (aligned : stream.Aligned waiting)
    (count : Nat) :
    Aligned { stream with
      wire := stream.wire.drop count
      reader := stream.reader.append (stream.wire.take count) } waiting where
  ok := (FrameReader.status_append ..).trans aligned.ok
  fits := aligned.fits
  messages := aligned.messages
  bytes := by
    show (stream.reader.append (stream.wire.take count)).unread
      ++ (stream.wire.drop count ++ stream.writer.data) = _
    rw [FrameReader.unread_append aligned.ok, List.append_assoc, ← List.append_assoc (stream.wire.take count),
      List.take_append_drop]
    exact aligned.bytes

/-- The first message on the way, when all of its frame has reached the reader. -/
theorem unread_split {stream : Stream} {msg : Message} {waiting : List Message}
    (aligned : stream.Aligned (msg :: waiting))
    (whole : (encode msg).length ≤ stream.reader.unread.length) :
    ∃ rest, stream.reader.unread = encode msg ++ rest := by
  have bytes := aligned.bytes
  rw [List.flatMap_cons] at bytes
  have front : encode msg <+: stream.reader.unread := by
    refine List.prefix_of_prefix_length_le (List.prefix_append _ (waiting.flatMap encode)) ?_ whole
    rw [← bytes]
    exact List.prefix_append ..
  obtain ⟨rest, unread⟩ := front
  exact ⟨rest, unread.symm⟩

/-- **What `next` does on an aligned stream**: it waits, or it yields the first message on the way. -/
theorem Aligned.next {stream : Stream} {waiting : List Message} (aligned : stream.Aligned waiting) :
    stream.reader.next = (stream.reader, none) ∨
      ∃ msg rest reader, waiting = msg :: rest ∧
        stream.reader.next = (reader, some { type := (typeOf msg).toWire, payload := encodeBody msg }) ∧
          Aligned { stream with reader, delivered := stream.delivered ++ [msg] } rest := by
  cases waiting with
  | nil =>
    left
    have unread : stream.reader.unread = [] := (List.append_eq_nil_iff.mp aligned.bytes).1
    refine FrameReader.next_of_few ?_
    rw [← FrameReader.length_unread, unread]
    exact Nat.succ_pos 11
  | cons msg rest =>
    have fits : msg.Fits := aligned.fits msg List.mem_cons_self
    have bytes := aligned.bytes
    rw [List.flatMap_cons] at bytes
    by_cases whole : (encode msg).length ≤ stream.reader.unread.length
    · right
      obtain ⟨more, unread⟩ := unread_split aligned whole
      obtain ⟨reader, yields, ok, left⟩ := FrameReader.next_of_whole aligned.ok fits unread
      refine ⟨msg, rest, reader, rfl, yields, ?_⟩
      rw [unread, List.append_assoc] at bytes
      refine ⟨ok, fun other member => aligned.fits other (List.mem_cons_of_mem _ member), ?_, ?_⟩
      · show stream.enqueued = stream.delivered ++ [msg] ++ rest
        rw [aligned.messages, List.append_assoc]
        rfl
      · show reader.unread ++ (stream.wire ++ stream.writer.data) = _
        rw [left]
        exact List.append_cancel_left bytes
    · left
      exact FrameReader.next_of_short aligned.ok fits bytes (Nat.lt_of_not_le whole)

/-- The step lemma: every step keeps the stream aligned, where what is enqueued is within the codec's
limits. -/
theorem Aligned.step {stream next : Stream} {waiting : List Message} (aligned : stream.Aligned waiting)
    {label : StreamLabel} (fits : ∀ msg, label = .enqueue msg → msg.Fits)
    (stepped : stream.step label = some next) : ∃ waiting', next.Aligned waiting' := by
  cases label with
  | enqueue msg =>
    cases stepped
    exact ⟨waiting ++ [msg], aligned.enqueue (fits msg rfl)⟩
  | transfer count =>
    obtain ⟨there, stepped⟩ := Option.ite_none_right_eq_some.mp stepped
    cases stepped
    exact ⟨waiting, aligned.transfer there⟩
  | receive count =>
    obtain ⟨_, stepped⟩ := Option.ite_none_right_eq_some.mp stepped
    cases stepped
    exact ⟨waiting, aligned.receive count⟩
  | deliver =>
    rw [← Option.some.inj ((step_deliver stream).symm.trans stepped)]
    rcases aligned.next with waits | ⟨msg, rest, reader, rfl, yields, aligned'⟩
    · rw [waits]
      refine ⟨waiting, aligned.ok, aligned.fits, ?_, aligned.bytes⟩
      show stream.enqueued = stream.delivered ++ [] ++ waiting
      rw [List.append_nil]
      exact aligned.messages
    · rw [yields]
      refine ⟨rest, ?_⟩
      dsimp only
      rw [received_frame (aligned.fits msg List.mem_cons_self)]
      exact aligned'

theorem Aligned.delivers {stream : Stream} {waiting : List Message} (aligned : stream.Aligned waiting) :
    stream.Delivers := by
  refine ⟨⟨waiting, aligned.messages.symm⟩, FrameReader.failed_eq_false aligned.ok, ?_⟩
  rintro ⟨written, wire, drained⟩
  cases waiting with
  | nil => rw [aligned.messages, List.append_nil]
  | cons msg rest =>
    -- all the bytes on the way are with the reader, so it has the first frame to yield
    have bytes := aligned.bytes
    rw [wire, (FrameWriter.empty_iff _).mp written, List.nil_append, List.append_nil, List.flatMap_cons] at bytes
    obtain ⟨reader, yields, _⟩ :=
      FrameReader.next_of_whole aligned.ok (aligned.fits msg List.mem_cons_self) bytes
    rw [yields] at drained
    cases drained

/-- Once the reader has all the bytes, each call of `next` delivers a message. -/
theorem Aligned.drains_reader {stream : Stream} {waiting : List Message} (aligned : stream.Aligned waiting)
    (written : stream.writer.empty = true) (wire : stream.wire = []) :
    ∃ calls final, run Stream.step stream (List.replicate calls .deliver) = some final ∧ final.Drained := by
  induction waiting generalizing stream with
  | nil =>
    refine ⟨0, stream, rfl, written, wire, ?_⟩
    rcases aligned.next with waits | ⟨_, _, _, more, _⟩
    · rw [waits]
    · cases more
  | cons msg rest ih =>
    rcases aligned.next with waits | ⟨msg', rest', reader, same, yields, aligned'⟩
    · -- a reader that waits has drained the stream already
      exact ⟨0, stream, rfl, written, wire, congrArg Prod.snd waits⟩
    · cases same
      obtain ⟨calls, final, ran, drained⟩ := ih aligned' written wire
      refine ⟨calls + 1, final, ?_, drained⟩
      rw [List.replicate_succ]
      refine Option.bind_eq_some_iff.mpr ⟨_, step_deliver stream, ?_⟩
      rw [yields]
      dsimp only
      rw [received_frame (aligned.fits msg List.mem_cons_self)]
      exact ran

theorem Aligned.drains {stream : Stream} {waiting : List Message} (aligned : stream.Aligned waiting) :
    stream.Drains := by
  have length : (stream.wire ++ stream.writer.data.take stream.writer.size).length
      = stream.wire.length + stream.writer.size := by
    rw [← FrameWriter.length_data, List.take_length, List.length_append]
  have all := (aligned.transfer (Nat.le_refl _)).receive (stream.wire.length + stream.writer.size)
  have written : (stream.writer.consume stream.writer.size).empty = true := by
    rw [FrameWriter.empty_iff, FrameWriter.data_consume _ (Nat.le_refl _), ← FrameWriter.length_data,
      List.drop_length]
  obtain ⟨calls, final, ran, drained⟩ :=
    all.drains_reader written (List.drop_of_length_le (Nat.le_of_eq length))
  refine ⟨calls, final, ?_, drained⟩
  refine Option.bind_eq_some_iff.mpr ⟨_, if_pos (Nat.le_refl _), ?_⟩
  exact Option.bind_eq_some_iff.mpr ⟨_, if_pos (Nat.le_of_eq length.symm), ran⟩

end Stream

/-- **End-to-end delivery.** In every interleaving of enqueues, short writes, reads of any size and calls of
`next`, the messages delivered are at every moment a prefix of the messages enqueued and the reader has not
failed; the stream can always be drained, and then all of them are delivered. -/
theorem stream_delivery {labels : List StreamLabel} (fits : ∀ msg, .enqueue msg ∈ labels → msg.Fits) :
    Always Stream.step (fun stream => stream.Delivers ∧ stream.Drains) Stream.fresh labels := by
  have guarded : Guarded Stream.step (fun _ label => ∀ msg, label = .enqueue msg → msg.Fits) Stream.fresh
      labels := by
    refine guarded_of_mem ?_ Stream.fresh
    rintro label member msg rfl
    exact fits msg member
  refine always_of_guarded (fun stream => ∃ waiting, stream.Aligned waiting) ?_ ?_ ⟨[], Stream.aligned_fresh⟩
    guarded
  · rintro stream label next ⟨waiting, aligned⟩ allowed stepped
    exact aligned.step allowed stepped
  · rintro stream ⟨waiting, aligned⟩
    exact ⟨aligned.delivers, aligned.drains⟩

/-- Two heartbeats, the first of them written in two pieces and read across the boundary of the frames. -/
theorem stream_delivery_heartbeats :
    let labels : List StreamLabel :=
      [.enqueue (.heartbeat ⟨1, 7⟩), .transfer 5, .enqueue (.heartbeat ⟨1, 8⟩), .receive 5, .deliver,
        .transfer 30, .receive 25, .deliver, .deliver]
    Always Stream.step (fun stream => stream.Delivers ∧ stream.Drains) Stream.fresh labels ∧
      (run Stream.step Stream.fresh labels).map Stream.delivered = some [.heartbeat ⟨1, 7⟩] := by
  intro labels
  refine ⟨stream_delivery ?_, by decide⟩
  intro msg member
  have heartbeat : msg = .heartbeat ⟨1, 7⟩ ∨ msg = .heartbeat ⟨1, 8⟩ := by
    simpa [labels] using member
  rcases heartbeat with rfl | rfl
  · trivial
  · trivial

end Sententia
