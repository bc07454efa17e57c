/-
**The binary encoding of messages** (`message.hpp`, `message.cpp`): a frame is a header of twelve bytes with
the length of the body in it, and the body.

* `encode_eq` — the length patched into the header is that of the body.
* `reads_body`, `takes_body` — one type at a time, what is encoded is decoded and what is decoded was
  encoded.
* `messageCodec_exact` — the codec is a bijection between the messages within its limits and the bodies it
  accepts.
-/

import Sententia.Net.CommandCodec
import Sententia.Net.Message

namespace Sententia

open Library WireReader Reader

def kMagic : UInt32 := 0x544E4553
def kVersion : UInt16 := 1
def kHeaderSize : Nat := 12

/-- The cap on the length field, which arrives from the network. -/
def kMaxPayload : Nat := 1 <<< 20

def kMaxAddressLen : Nat := 256

inductive MessageType
  | hello
  | heartbeat
  | commandForward
  | eventAck
  | appendEntries
  | appendResponse
  | requestVote
  | voteResponse
deriving Repr, DecidableEq

namespace MessageType

/-- The values of the enumeration. -/
def toWire : MessageType → UInt16
  | .hello => 1
  | .heartbeat => 2
  | .commandForward => 3
  | .eventAck => 4
  | .appendEntries => 10
  | .appendResponse => 11
  | .requestVote => 20
  | .voteResponse => 21

/-- The type behind a value from the wire, if there is one. -/
def ofWire? (raw : UInt16) : Option MessageType :=
  [.hello, .heartbeat, .commandForward, .eventAck, .appendEntries, .appendResponse, .requestVote,
    .voteResponse].find? fun type => type.toWire = raw

theorem ofWire?_toWire (type : MessageType) : ofWire? type.toWire = some type := by
  cases type <;> rfl

theorem toWire_of_ofWire? {raw : UInt16} {type : MessageType} (known : ofWire? raw = some type) :
    type.toWire = raw := by
  have found := List.find?_some known
  exact of_decide_eq_true found

end MessageType

def typeOf : Message → MessageType
  | .hello _ => .hello
  | .heartbeat _ => .heartbeat
  | .commandForward _ => .commandForward
  | .eventAck _ => .eventAck
  | .appendEntries _ => .appendEntries
  | .appendResponse _ => .appendResponse
  | .requestVote _ => .requestVote
  | .voteResponse _ => .voteResponse

/-! ### Encoding -/

/-- A counter of the model in the 64 bits of its field. -/
def WireWriter.counter (value : Nat) : Buffer := WireWriter.u64 (UInt64.ofNat value)

/-- A string behind its length. -/
def WireWriter.str (text : List UInt8) : Buffer :=
  WireWriter.u32 (UInt32.ofNat text.length) ++ text

open WireWriter (counter)

def encodeLogRecord (record : LogRecord) : Buffer :=
  counter record.seq ++ (counter record.term ++ encodeCommand record.command)

/-- `BodyVisitor`. -/
def encodeBody : Message → Buffer
  | .hello msg =>
    WireWriter.u32 msg.nodeId ++ (WireWriter.u16 msg.protocolVersion ++
      WireWriter.str msg.advertisedAddress)
  | .heartbeat msg => WireWriter.u32 msg.nodeId ++ WireWriter.u64 msg.counter
  | .commandForward msg =>
    WireWriter.u32 msg.originNodeId ++ (WireWriter.u64 msg.originSeq ++ encodeCommand msg.command)
  | .eventAck msg =>
    WireWriter.u32 msg.nodeId ++ (WireWriter.u64 msg.throughEventSeq ++ WireWriter.u64 msg.stateChecksum)
  | .requestVote msg =>
    counter msg.term ++ (WireWriter.u32 msg.candidateId ++ counter msg.lastLogSeq)
  | .voteResponse msg =>
    counter msg.term ++ (WireWriter.u32 msg.voterId ++ WireWriter.u8 (boolByte msg.granted))
  | .appendEntries msg =>
    counter msg.term ++ (WireWriter.u32 msg.leaderId ++ (counter msg.prevSeq ++ (counter msg.prevTerm ++
      (counter msg.commitSeq ++ (WireWriter.u32 (UInt32.ofNat msg.entries.length) ++
        msg.entries.flatMap encodeLogRecord)))))
  | .appendResponse msg =>
    counter msg.term ++ (WireWriter.u32 msg.nodeId ++ (counter msg.lastLogSeq ++
      (WireWriter.u8 (boolByte msg.ok) ++ (counter msg.lastApplied ++ WireWriter.u64 msg.stateChecksum))))

/-- Overwrite bytes from a position on. -/
def patch (buf : Buffer) (position : Nat) (bytes : Buffer) : Buffer :=
  buf.take position ++ (bytes ++ buf.drop (position + bytes.length))

/-- Appends a complete frame: the header with a placeholder for the length, the body, then the length. -/
def encodeTo (out : Buffer) (msg : Message) : Buffer :=
  let frameStart := out.length
  let out := out ++ (WireWriter.u32 kMagic ++ (WireWriter.u16 kVersion ++
    (WireWriter.u16 (typeOf msg).toWire ++ WireWriter.u32 0)))
  let bodyStart := out.length
  let out := out ++ encodeBody msg
  let bodyLen := out.length - bodyStart
  patch out (frameStart + 8) (WireWriter.u32 (UInt32.ofNat bodyLen))

def encode (msg : Message) : Buffer := encodeTo [] msg

/-- The header of a frame. -/
structure FrameHeader where
  magic : UInt32
  version : UInt16
  type : UInt16
  length : UInt32
deriving Repr, DecidableEq

def encodeHeader (header : FrameHeader) : Buffer :=
  WireWriter.u32 header.magic ++ (WireWriter.u16 header.version ++
    (WireWriter.u16 header.type ++ WireWriter.u32 header.length))

/-- The header that belongs to a message. -/
def headerOf (msg : Message) : FrameHeader where
  magic := kMagic
  version := kVersion
  type := (typeOf msg).toWire
  length := UInt32.ofNat (encodeBody msg).length

theorem length_encodeHeader (header : FrameHeader) : (encodeHeader header).length = kHeaderSize := by
  simp [encodeHeader, WireWriter.u32, WireWriter.u16, kHeaderSize]

theorem patch_append (front rest : Buffer) {old new : Buffer} (same : old.length = new.length) :
    patch (front ++ (old ++ rest)) front.length new = front ++ (new ++ rest) := by
  have dropped : (front ++ (old ++ rest)).drop (front.length + old.length) = rest := by
    rw [← List.append_assoc, ← List.length_append, List.drop_left]
  unfold patch
  rw [List.take_left, ← same, dropped]

/-- **A frame is appended**: the header with the length of the body, and the body. -/
theorem encodeTo_eq (out : Buffer) (msg : Message) :
    encodeTo out msg = out ++ (encodeHeader (headerOf msg) ++ encodeBody msg) := by
  have width : ∀ value, (WireWriter.u32 value).length = 4 := fun value => length_littleEndian 4 _
  have patched := patch_append (out ++ (WireWriter.u32 kMagic ++ (WireWriter.u16 kVersion ++
    WireWriter.u16 (typeOf msg).toWire))) (encodeBody msg)
      ((width 0).trans (width (UInt32.ofNat (encodeBody msg).length)).symm)
  have start : (out ++ (WireWriter.u32 kMagic ++ (WireWriter.u16 kVersion ++
      WireWriter.u16 (typeOf msg).toWire))).length = out.length + 8 := by
    simp [WireWriter.u32, WireWriter.u16]
  rw [start] at patched
  have bodyLen : ∀ front : Buffer,
      (front ++ encodeBody msg).length - front.length = (encodeBody msg).length := by
    intro front
    rw [List.length_append, Nat.add_sub_cancel_left]
  unfold encodeTo encodeHeader headerOf
  dsimp only
  rw [bodyLen]
  simp only [List.append_assoc] at patched ⊢
  exact patched

theorem encode_eq (msg : Message) : encode msg = encodeHeader (headerOf msg) ++ encodeBody msg :=
  encodeTo_eq [] msg

/-! ### Decoding -/

def WireReader.counter : Reader Nat := do
  let value ← u64
  pure value.toNat

def WireReader.str (maxLen : Nat) : Reader (List UInt8) := do
  let len ← u32
  check (len.toNat ≤ maxLen)
  take len.toNat

def readHeader : Reader FrameHeader := do
  let magic ← u32
  let version ← u16
  let type ← u16
  let length ← u32
  pure { magic, version, type, length }

def readLogRecord : Reader LogRecord := do
  let seq ← WireReader.counter
  let term ← WireReader.counter
  let command ← decodeCommand
  pure { seq, term, command }

/-- The cases of `decodeBody`, up to the check that the body is used up. -/
def readBody : MessageType → Reader Message
  | .hello => do
    let nodeId ← u32
    let protocolVersion ← u16
    let advertisedAddress ← WireReader.str kMaxAddressLen
    pure (.hello { nodeId, protocolVersion, advertisedAddress })
  | .heartbeat => do
    let nodeId ← u32
    let counter ← u64
    pure (.heartbeat { nodeId, counter })
  | .commandForward => do
    let originNodeId ← u32
    let originSeq ← u64
    let command ← decodeCommand
    pure (.commandForward { originNodeId, originSeq, command })
  | .eventAck => do
    let nodeId ← u32
    let throughEventSeq ← u64
    let stateChecksum ← u64
    pure (.eventAck { nodeId, throughEventSeq, stateChecksum })
  | .appendEntries => do
    let term ← WireReader.counter
    let leaderId ← u32
    let prevSeq ← WireReader.counter
    let prevTerm ← WireReader.counter
    let commitSeq ← WireReader.counter
    let count ← u32
    check (count.toNat ≤ kMaxEntriesPerAppend)
    let entries ← many readLogRecord count.toNat
    pure (.appendEntries { term, leaderId, prevSeq, prevTerm, commitSeq, entries })
  | .appendResponse => do
    let term ← WireReader.counter
    let nodeId ← u32
    let lastLogSeq ← WireReader.counter
    let ok ← u8
    let lastApplied ← WireReader.counter
    let stateChecksum ← u64
    check (ok ≤ 1)
    pure (.appendResponse { term, nodeId, lastLogSeq, ok := ok = 1, lastApplied, stateChecksum })
  | .requestVote => do
    let term ← WireReader.counter
    let candidateId ← u32
    let lastLogSeq ← WireReader.counter
    pure (.requestVote { term, candidateId, lastLogSeq })
  | .voteResponse => do
    let term ← WireReader.counter
    let voterId ← u32
    let granted ← u8
    check (granted ≤ 1)
    pure (.voteResponse { term, voterId, granted := granted = 1 })

/-- Decodes a body of a type from the wire; nothing when the type is unknown, the body malformed, or bytes
are left over. -/
def decodeBody (raw : UInt16) (data : Buffer) : Option Message :=
  match MessageType.ofWire? raw with
  | none => none
  | some type => decode (readBody type) data

/-! ### What is encoded is decoded -/

def LogRecord.Fits (record : LogRecord) : Prop := record.seq < 2 ^ 64 ∧ record.term < 2 ^ 64

/-- Messages within the limits of the codec: counters of 64 bits, a short address, few entries. -/
def Message.Fits : Message → Prop
  | .hello msg => msg.advertisedAddress.length ≤ kMaxAddressLen
  | .heartbeat _ => True
  | .commandForward _ => True
  | .eventAck _ => True
  | .appendEntries msg => msg.term < 2 ^ 64 ∧ msg.prevSeq < 2 ^ 64 ∧ msg.prevTerm < 2 ^ 64 ∧
      msg.commitSeq < 2 ^ 64 ∧ msg.entries.length ≤ kMaxEntriesPerAppend ∧
        ∀ record ∈ msg.entries, record.Fits
  | .appendResponse msg => msg.term < 2 ^ 64 ∧ msg.lastLogSeq < 2 ^ 64 ∧ msg.lastApplied < 2 ^ 64
  | .requestVote msg => msg.term < 2 ^ 64 ∧ msg.lastLogSeq < 2 ^ 64
  | .voteResponse msg => msg.term < 2 ^ 64

theorem reads_counter {value : Nat} (small : value < 2 ^ 64) :
    Reads WireReader.counter (WireWriter.counter value) value := by
  refine (reads_u64 (UInt64.ofNat value)).map ?_
  rw [toNat_ofNat_of_lt small]
  exact Reads.pure value

theorem reads_str {text : List UInt8} {maxLen : Nat} (short : text.length ≤ maxLen)
    (small : maxLen < 2 ^ 32) : Reads (WireReader.str maxLen) (WireWriter.str text) text := by
  have length : (UInt32.ofNat text.length).toNat = text.length := by
    rw [UInt32.toNat_ofNat', Nat.mod_eq_of_lt (Nat.lt_of_le_of_lt short small)]
  refine (reads_u32 _).bind (Reads.check ?_ ?_)
  · rw [length]
    exact decide_eq_true short
  · rw [length]
    exact reads_take text

theorem reads_header (header : FrameHeader) : Reads readHeader (encodeHeader header) header :=
  (reads_u32 _).bind ((reads_u16 _).bind ((reads_u16 _).bind ((reads_u32 _).map (Reads.pure _))))

theorem reads_logRecord {record : LogRecord} (fits : record.Fits) :
    Reads readLogRecord (encodeLogRecord record) record :=
  (reads_counter fits.1).bind ((reads_counter fits.2).bind
    ((reads_decodeCommand record.command).map (Reads.pure _)))

/-- **Every message is read back from its body.** -/
theorem reads_body {msg : Message} (fits : msg.Fits) : Reads (readBody (typeOf msg)) (encodeBody msg) msg := by
  cases msg with
  | hello msg =>
    exact (reads_u32 _).bind ((reads_u16 _).bind ((reads_str fits (by decide)).map (Reads.pure _)))
  | heartbeat msg => exact (reads_u32 _).bind ((reads_u64 _).map (Reads.pure _))
  | commandForward msg =>
    exact (reads_u32 _).bind ((reads_u64 _).bind ((reads_decodeCommand _).map (Reads.pure _)))
  | eventAck msg => exact (reads_u32 _).bind ((reads_u64 _).bind ((reads_u64 _).map (Reads.pure _)))
  | appendEntries msg =>
    obtain ⟨term, prevSeq, prevTerm, commitSeq, short, records⟩ := fits
    have count : (UInt32.ofNat msg.entries.length).toNat = msg.entries.length := by
      rw [UInt32.toNat_ofNat', Nat.mod_eq_of_lt (Nat.lt_of_le_of_lt short (by decide))]
    have entries : Reads (many readLogRecord (UInt32.ofNat msg.entries.length).toNat)
        (msg.entries.flatMap encodeLogRecord) msg.entries := by
      rw [count]
      exact Reads.many fun record member => reads_logRecord (records record member)
    refine (reads_counter term).bind ((reads_u32 _).bind ((reads_counter prevSeq).bind ?_))
    refine (reads_counter prevTerm).bind ((reads_counter commitSeq).bind ((reads_u32 _).bind ?_))
    exact Reads.check (decide_eq_true (count.symm ▸ short)) (entries.map (Reads.pure _))
  | appendResponse msg =>
    obtain ⟨term, lastLogSeq, lastApplied⟩ := fits
    refine (reads_counter term).bind ((reads_u32 _).bind ((reads_counter lastLogSeq).bind ?_))
    refine (reads_u8 _).bind ((reads_counter lastApplied).bind ((reads_u64 _).map ?_))
    refine Reads.check (decide_eq_true (boolByte_le _)) ?_
    rw [decide_boolByte]
    exact Reads.pure _
  | requestVote msg =>
    exact (reads_counter fits.1).bind ((reads_u32 _).bind ((reads_counter fits.2).map (Reads.pure _)))
  | voteResponse msg =>
    refine (reads_counter fits).bind ((reads_u32 _).bind ((reads_u8 _).map ?_))
    refine Reads.check (decide_eq_true (boolByte_le _)) ?_
    rw [decide_boolByte]
    exact Reads.pure _

theorem decodeBody_encodeBody {msg : Message} (fits : msg.Fits) :
    decodeBody (typeOf msg).toWire (encodeBody msg) = some msg := by
  unfold decodeBody
  rw [MessageType.ofWire?_toWire]
  exact decode_of_reads (reads_body fits)

theorem length_encodeLogRecord (record : LogRecord) : (encodeLogRecord record).length ≤ 48 := by
  have command := length_encodeCommand record.command
  simp only [encodeLogRecord, WireWriter.counter, WireWriter.u64, List.length_append, length_littleEndian]
  omega

theorem length_flatMap_encodeLogRecord (records : List LogRecord) :
    (records.flatMap encodeLogRecord).length ≤ 48 * records.length := by
  induction records with
  | nil => exact Nat.le_refl _
  | cons record rest ih =>
    have first := length_encodeLogRecord record
    rw [List.flatMap_cons, List.length_append, List.length_cons]
    omega

/-- **Every body is within the cap** on the length field. -/
theorem length_encodeBody {msg : Message} (fits : msg.Fits) : (encodeBody msg).length ≤ kMaxPayload := by
  have cap : kMaxPayload = 1048576 := by decide
  cases msg with
  | hello msg =>
    have short : msg.advertisedAddress.length ≤ 256 := fits
    simp only [encodeBody, WireWriter.str, WireWriter.u32, WireWriter.u16, List.length_append,
      length_littleEndian]
    omega
  | commandForward msg =>
    have command := length_encodeCommand msg.command
    simp only [encodeBody, WireWriter.u32, WireWriter.u64, List.length_append, length_littleEndian]
    omega
  | appendEntries msg =>
    have few : msg.entries.length ≤ 512 := fits.2.2.2.2.1
    have records := length_flatMap_encodeLogRecord msg.entries
    simp only [encodeBody, WireWriter.counter, WireWriter.u32, WireWriter.u64, List.length_append,
      length_littleEndian]
    omega
  | heartbeat msg =>
    simp only [encodeBody, WireWriter.u32, WireWriter.u64, List.length_append, length_littleEndian]
    omega
  | eventAck msg =>
    simp only [encodeBody, WireWriter.u32, WireWriter.u64, List.length_append, length_littleEndian]
    omega
  | appendResponse msg =>
    simp only [encodeBody, WireWriter.counter, WireWriter.u8, WireWriter.u32, WireWriter.u64,
      List.length_append, length_littleEndian, List.length_singleton]
    omega
  | requestVote msg =>
    simp only [encodeBody, WireWriter.counter, WireWriter.u32, WireWriter.u64, List.length_append,
      length_littleEndian]
    omega
  | voteResponse msg =>
    simp only [encodeBody, WireWriter.counter, WireWriter.u8, WireWriter.u32, WireWriter.u64,
      List.length_append, length_littleEndian, List.length_singleton]
    omega

/-! ### What is decoded was encoded -/

theorem takes_counter : Takes WireReader.counter fun value bytes =>
    bytes = WireWriter.counter value ∧ value < 2 ^ 64 := by
  refine takes_u64.bind ?_
  rintro value _ rfl
  refine Takes.pure ⟨?_, value.toNat_lt⟩
  unfold WireWriter.counter
  rw [List.append_nil, UInt64.ofNat_toNat]

theorem takes_str (maxLen : Nat) : Takes (WireReader.str maxLen) fun value bytes =>
    bytes = WireWriter.str value ∧ value.length ≤ maxLen := by
  refine takes_u32.bind ?_
  rintro len _ rfl
  refine Takes.check fun passes input value rest read => ?_
  obtain ⟨bytes, split, rfl, length⟩ := takes_take _ input value rest read
  refine ⟨bytes, split, ?_, length ▸ of_decide_eq_true passes⟩
  unfold WireWriter.str
  rw [length, UInt32.ofNat_toNat]

theorem takes_logRecord : Takes readLogRecord fun record bytes => bytes = encodeLogRecord record ∧ record.Fits := by
  refine takes_counter.bind ?_
  rintro seq _ ⟨rfl, seqFits⟩
  refine takes_counter.bind ?_
  rintro term _ ⟨rfl, termFits⟩
  refine takes_decodeCommand.bind ?_
  rintro command _ rfl
  refine Takes.pure ⟨?_, seqFits, termFits⟩
  rw [List.append_nil]
  rfl

/-- What a body that is accepted says about the message: its type, its bytes and its limits. -/
def BodyOf (type : MessageType) (msg : Message) (bytes : Buffer) : Prop :=
  typeOf msg = type ∧ encodeBody msg = bytes ∧ msg.Fits

theorem takes_appendEntries : Takes (readBody .appendEntries) (BodyOf .appendEntries) := by
  refine takes_counter.bind ?_
  rintro term _ ⟨rfl, termFits⟩
  refine takes_u32.bind ?_
  rintro leaderId _ rfl
  refine takes_counter.bind ?_
  rintro prevSeq _ ⟨rfl, prevSeqFits⟩
  refine takes_counter.bind ?_
  rintro prevTerm _ ⟨rfl, prevTermFits⟩
  refine takes_counter.bind ?_
  rintro commitSeq _ ⟨rfl, commitSeqFits⟩
  refine takes_u32.bind ?_
  rintro count _ rfl
  refine Takes.check fun passes => ?_
  refine (Takes.many takes_logRecord count.toNat).bind ?_
  rintro entries _ ⟨rfl, length, records⟩
  have few : entries.length ≤ kMaxEntriesPerAppend := length ▸ of_decide_eq_true passes
  refine Takes.pure ⟨rfl, ?_, termFits, prevSeqFits, prevTermFits, commitSeqFits, few, records⟩
  simp only [encodeBody, length, UInt32.ofNat_toNat, List.append_nil]

theorem takes_appendResponse : Takes (readBody .appendResponse) (BodyOf .appendResponse) := by
  refine takes_counter.bind ?_
  rintro term _ ⟨rfl, termFits⟩
  refine takes_u32.bind ?_
  rintro nodeId _ rfl
  refine takes_counter.bind ?_
  rintro lastLogSeq _ ⟨rfl, lastLogSeqFits⟩
  refine takes_u8.bind ?_
  rintro ok _ rfl
  refine takes_counter.bind ?_
  rintro lastApplied _ ⟨rfl, lastAppliedFits⟩
  refine takes_u64.bind ?_
  rintro stateChecksum _ rfl
  refine Takes.check fun passes => Takes.pure ⟨rfl, ?_, termFits, lastLogSeqFits, lastAppliedFits⟩
  simp only [encodeBody, boolByte_decide (of_decide_eq_true passes), List.append_nil]

theorem takes_voteResponse : Takes (readBody .voteResponse) (BodyOf .voteResponse) := by
  refine takes_counter.bind ?_
  rintro term _ ⟨rfl, termFits⟩
  refine takes_u32.bind ?_
  rintro voterId _ rfl
  refine takes_u8.bind ?_
  rintro granted _ rfl
  refine Takes.check fun passes => Takes.pure ⟨rfl, ?_, termFits⟩
  simp only [encodeBody, boolByte_decide (of_decide_eq_true passes), List.append_nil]

/-- **Whatever is read as a body is the body of the message it gives.** -/
theorem takes_body (type : MessageType) : Takes (readBody type) (BodyOf type) := by
  cases type with
  | hello =>
    refine takes_u32.bind ?_
    rintro nodeId _ rfl
    refine takes_u16.bind ?_
    rintro protocolVersion _ rfl
    refine (takes_str kMaxAddressLen).bind ?_
    rintro advertisedAddress _ ⟨rfl, short⟩
    exact Takes.pure ⟨rfl, by rw [List.append_nil]; rfl, short⟩
  | heartbeat =>
    refine takes_u32.bind ?_
    rintro nodeId _ rfl
    refine takes_u64.bind ?_
    rintro counter _ rfl
    exact Takes.pure ⟨rfl, by rw [List.append_nil]; rfl, trivial⟩
  | commandForward =>
    refine takes_u32.bind ?_
    rintro originNodeId _ rfl
    refine takes_u64.bind ?_
    rintro originSeq _ rfl
    refine takes_decodeCommand.bind ?_
    rintro command _ rfl
    exact Takes.pure ⟨rfl, by rw [List.append_nil]; rfl, trivial⟩
  | eventAck =>
    refine takes_u32.bind ?_
    rintro nodeId _ rfl
    refine takes_u64.bind ?_
    rintro throughEventSeq _ rfl
    refine takes_u64.bind ?_
    rintro stateChecksum _ rfl
    exact Takes.pure ⟨rfl, by rw [List.append_nil]; rfl, trivial⟩
  | appendEntries => exact takes_appendEntries
  | appendResponse => exact takes_appendResponse
  | requestVote =>
    refine takes_counter.bind ?_
    rintro term _ ⟨rfl, termFits⟩
    refine takes_u32.bind ?_
    rintro candidateId _ rfl
    refine takes_counter.bind ?_
    rintro lastLogSeq _ ⟨rfl, lastLogSeqFits⟩
    exact Takes.pure ⟨rfl, by rw [List.append_nil]; rfl, termFits, lastLogSeqFits⟩
  | voteResponse => exact takes_voteResponse

theorem decodeBody_sound {raw : UInt16} {bytes : Buffer} {msg : Message}
    (decoded : decodeBody raw bytes = some msg) :
    (typeOf msg).toWire = raw ∧ encodeBody msg = bytes ∧ msg.Fits := by
  unfold decodeBody at decoded
  cases known : MessageType.ofWire? raw with
  | none =>
    rw [known] at decoded
    cases decoded
  | some type =>
    rw [known] at decoded
    obtain ⟨sameType, sameBytes, fits⟩ := spec_of_decode (takes_body type) decoded
    exact ⟨by rw [sameType]; exact MessageType.toWire_of_ofWire? known, sameBytes, fits⟩

/-! ### The codec -/

/-- **The codec is a bijection onto what it accepts.** A message within the limits gets the right header, with
the length of its body within the cap, and decodes from the body; and whatever bytes decode under whatever
type are the body of the message they give, which has that type. -/
theorem messageCodec_exact (msg : Message) (fits : msg.Fits) (raw : UInt16) (bytes : Buffer) :
    (∃ length : UInt32, readHeader (encode msg) =
        some (⟨kMagic, kVersion, (typeOf msg).toWire, length⟩, encodeBody msg) ∧
          length.toNat = (encodeBody msg).length ∧ length.toNat ≤ kMaxPayload) ∧
      decodeBody (typeOf msg).toWire (encodeBody msg) = some msg ∧
      ∀ decoded, decodeBody raw bytes = some decoded →
        (typeOf decoded).toWire = raw ∧ encodeBody decoded = bytes ∧ decoded.Fits := by
  have cap := length_encodeBody fits
  have length : (UInt32.ofNat (encodeBody msg).length).toNat = (encodeBody msg).length := by
    rw [UInt32.toNat_ofNat', Nat.mod_eq_of_lt (Nat.lt_of_le_of_lt cap (by decide))]
  refine ⟨⟨UInt32.ofNat (encodeBody msg).length, ?_, length, by rw [length]; exact cap⟩,
    decodeBody_encodeBody fits, fun decoded => decodeBody_sound⟩
  rw [encode_eq]
  exact reads_header (headerOf msg) (encodeBody msg)

/-- An append of one cancel, and the zero bytes of a heartbeat. -/
theorem messageCodec_exact_append :
    let msg : Message := .appendEntries { entries := [⟨1, 1, .cancelOrder ⟨5⟩⟩] }
    msg.Fits ∧ ((∃ length : UInt32, readHeader (encode msg) =
        some (⟨kMagic, kVersion, (typeOf msg).toWire, length⟩, encodeBody msg) ∧
          length.toNat = (encodeBody msg).length ∧ length.toNat ≤ kMaxPayload) ∧
      decodeBody (typeOf msg).toWire (encodeBody msg) = some msg ∧
      ∀ decoded, decodeBody 2 (List.replicate 12 0) = some decoded →
        (typeOf decoded).toWire = 2 ∧ encodeBody decoded = List.replicate 12 0 ∧ decoded.Fits) := by
  have fits : (Message.appendEntries { entries := [⟨1, 1, .cancelOrder ⟨5⟩⟩] }).Fits := by
    refine ⟨by decide, by decide, by decide, by decide, by decide, ?_⟩
    intro record member
    rw [List.mem_singleton.mp member]
    exact ⟨by decide, by decide⟩
  exact ⟨fits, messageCodec_exact _ fits 2 (List.replicate 12 0)⟩

end Sententia
