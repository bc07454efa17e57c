/-
**What the transport sends** (`transport.cpp`, `framing.hpp`). A message is queued as a frame, and the socket
takes what it will of what is queued, then or at a later `poll`. Nothing is queued for a peer whose backlog is
at the high-water mark; a write that fails drops the peer, with what was queued for it.

* `Sender` — the transport with its writers, by socket: `dropPeer` and `startConnect` reset the writer of a
  peer, so that a writer lasts as long as its connection.
* `Sender.Sound` — the invariant: the bytes that a socket has taken and those still queued are the frames of
  the messages queued, `Hello` first.
* `sendPath_delivers` — whatever part of the bytes arrives, the peer reads a front part of the messages; the
  backlog is bounded, and the counters count what has been queued and taken.
* `send_broadcast_tell` — what the results of `send` and `broadcast` say about the queues.
-/

import Mathlib.Algebra.BigOperators.Group.Finset.Basic
import Mathlib.Data.Nat.Digits.Defs
import Sententia.Net.FramingReference
import Sententia.Net.Transport

namespace Sententia.Net

open Library

/-- Eight mebibytes. -/
def kDefaultHighWaterMark : Nat := 8 * 1024 * 1024

/-- What a write to a socket gives. -/
inductive WriteResult
  | ok (count : Nat)
  | wouldBlock
  /-- `Closed` or `Error`. -/
  | failed
deriving Repr, DecidableEq

/-- The writer of a connection, and what has gone through it. -/
structure Outbox where
  writer : FrameWriter := FrameWriter.fresh
  /-- The messages queued so far. -/
  queued : List Message := []
  /-- The bytes that the socket has taken so far. -/
  taken : Buffer := []
  /-- The high-water mark when the last message was queued. -/
  mark : Nat := 0

structure SendStats where
  messagesSent : Nat := 0
  bytesSent : Nat := 0
  shortWrites : Nat := 0
  sendsRefusedOverflow : Nat := 0
deriving Repr, DecidableEq

/-- Sockets are numbered in the order in which they are opened. All writers have the high-water mark of the
transport: they get it when their peer is added or accepted, and from `setHighWaterMark`. -/
structure Sender where
  transport : Transport
  outbox : Nat → Outbox := fun _ => {}
  opened : Nat := 0
  highWaterMark : Nat := kDefaultHighWaterMark
  stats : SendStats := {}

namespace Outbox

def enqueue (box : Outbox) (msg : Message) (mark : Nat) : Outbox :=
  { box with writer := box.writer.enqueue msg, queued := box.queued ++ [msg], mark }

/-- The socket takes some of the bytes at the front. -/
def write (box : Outbox) (count : Nat) : Outbox :=
  { box with writer := box.writer.consume count, taken := box.taken ++ box.writer.data.take count }

end Outbox

namespace Sender

/-- The socket of the peer at a position, if it is valid. -/
def sockAt (sender : Sender) (position : Nat) : Option Nat :=
  sender.transport.peers[position]?.bind (·.sock)

def stateAt (sender : Sender) (position : Nat) : Option PeerState :=
  sender.transport.peers[position]?.map (·.state)

def setOutbox (sender : Sender) (sock : Nat) (box : Outbox) : Sender :=
  { sender with outbox := Function.update sender.outbox sock box }

/-- The writer of a peer without a socket has been reset. -/
def writerAt (sender : Sender) (position : Nat) : FrameWriter :=
  match sender.sockAt position with
  | none => FrameWriter.fresh
  | some sock => (sender.outbox sock).writer

def overHighWaterMark (sender : Sender) (position : Nat) : Bool :=
  (sender.writerAt position).size ≥ sender.highWaterMark

def enqueue (sender : Sender) (position : Nat) (msg : Message) : Sender :=
  match sender.sockAt position with
  | none => sender
  | some sock => sender.setOutbox sock ((sender.outbox sock).enqueue msg sender.highWaterMark)

def sendHello (sender : Sender) (position : Nat) : Sender := sender.enqueue position sender.transport.hello

def dropPeer (sender : Sender) (position : Nat) : Sender :=
  { sender with transport := sender.transport.dropPeer position }

/-- The socket took some of the bytes there are. -/
def wrote (sender : Sender) (position count : Nat) : Sender :=
  match sender.sockAt position with
  | none => sender
  | some sock =>
    let box := sender.outbox sock
    { sender.setOutbox sock (box.write count) with
      stats := { sender.stats with
        shortWrites := sender.stats.shortWrites + if count < box.writer.size then 1 else 0
        bytesSent := sender.stats.bytesSent + count } }

def wouldBlock (sender : Sender) : Sender :=
  { sender with stats := { sender.stats with shortWrites := sender.stats.shortWrites + 1 } }

def refused (sender : Sender) : Sender :=
  { sender with
    stats := { sender.stats with sendsRefusedOverflow := sender.stats.sendsRefusedOverflow + 1 } }

def sent (sender : Sender) : Sender :=
  { sender with stats := { sender.stats with messagesSent := sender.stats.messagesSent + 1 } }

/-- `handleWritable`, with the results that its writes will have. It leaves those behind the one at which it
returns, and does not return if there is none. A write takes no more than there is. -/
def handleWritable (sender : Sender) (position : Nat) :
    List WriteResult → Option (Sender × List WriteResult)
  | [] => if (sender.writerAt position).empty then some (sender, []) else none
  | result :: rest =>
    if (sender.writerAt position).empty then some (sender, result :: rest)
    else
      match result with
      | .wouldBlock => some (sender.wouldBlock, rest)
      | .failed => some (sender.dropPeer position, rest)
      | .ok count =>
        if count ≤ (sender.writerAt position).size then
          (sender.wrote position count).handleWritable position rest
        else none

def send (sender : Sender) (target : NodeId) (msg : Message) (results : List WriteResult) :
    Option (Sender × List WriteResult × SendResult) :=
  match sender.transport.findPeer target with
  | none => some (sender, results, .notConnected)
  | some position =>
    (sender.handleWritable position results).bind fun (sender, results) =>
      if sender.sockAt position = none then some (sender, results, .notConnected)
      else if sender.overHighWaterMark position then some (sender.refused, results, .wouldOverflow)
      else
        ((sender.enqueue position msg).sent.handleWritable position results).map fun (sender, results) =>
          (sender, results, .ok)

/-- The loop of `broadcast`. Unlike `send`, it counts a peer that is dropped as a refusal. -/
def broadcastTo (msg : Message) :
    List Nat → Sender → List WriteResult → Option (Sender × List WriteResult × Nat)
  | [], sender, results => some (sender, results, 0)
  | position :: rest, sender, results =>
    if sender.stateAt position ≠ some .ready then broadcastTo msg rest sender results
    else
      (sender.handleWritable position results).bind fun (sender, results) =>
        if sender.sockAt position = none ∨ sender.overHighWaterMark position then
          broadcastTo msg rest sender.refused results
        else
          ((sender.enqueue position msg).sent.handleWritable position results).bind fun (sender, results) =>
            (broadcastTo msg rest sender results).map fun (sender, results, reached) =>
              (sender, results, reached + 1)

/-- `broadcast`, with the number of peers it reached. -/
def broadcast (sender : Sender) (msg : Message) (results : List WriteResult) :
    Option (Sender × List WriteResult × Nat) :=
  broadcastTo msg (List.range sender.transport.peers.length) sender results

/-- The position of the first peer with this id that has a socket, whatever its state. -/
def findOpen (sender : Sender) (id : NodeId) : Option Nat :=
  sender.transport.peers.findIdx? fun peer => peer.id = id ∧ peer.sock.isSome

def disconnectPeer (sender : Sender) (id : NodeId) : Sender × Bool :=
  match sender.findOpen id with
  | none => (sender, false)
  | some position => (sender.dropPeer position, true)

def pendingBytes (sender : Sender) (id : NodeId) : Nat :=
  match sender.transport.findPeer id with
  | none => 0
  | some position => (sender.writerAt position).size

def isSaturated (sender : Sender) (id : NodeId) : Bool :=
  match sender.transport.findPeer id with
  | none => false
  | some position => sender.overHighWaterMark position

/-- A new socket. -/
def openSocket (sender : Sender) (transport : Transport) : Sender :=
  { sender with transport, opened := sender.opened + 1 }

end Sender

/-- What happens to a transport. `results` are what the writes of a step give, exactly as many as it makes. -/
inductive SendStep
  | addPeer (id : NodeId)
  | beginPoll
  /-- A peer that is due is dialled. -/
  | dial (position : Nat) (opens : Bool)
  | accept
  /-- A pending connect has completed, or failed. -/
  | connected (position : Nat) (fails : Bool) (results : List WriteResult)
  | writable (position : Nat) (results : List WriteResult)
  | receive (position : Nat) (msg : Message)
  /-- A socket error, a close, a read error or a framing error. -/
  | drop (position : Nat)
  | retire
  | send (target : NodeId) (msg : Message) (results : List WriteResult)
  | broadcast (msg : Message) (results : List WriteResult)
  | disconnectPeer (id : NodeId)
  | setHighWaterMark (bytes : Nat)
deriving Repr, DecidableEq

namespace Sender

/-- All results have been used. -/
def settled (result : Option (Sender × List WriteResult)) : Option Sender :=
  match result with
  | some (sender, []) => some sender
  | _ => none

def step (sender : Sender) : SendStep → Option Sender
  | .addPeer id => some { sender with transport := sender.transport.addPeer id }
  | .beginPoll => some { sender with transport := sender.transport.beginPoll }
  | .dial position opens =>
    if sender.transport.due position then
      if opens then some (sender.openSocket (sender.transport.dial position (some sender.opened)))
      else some { sender with transport := sender.transport.dial position none }
    else none
  | .accept =>
    some ((sender.openSocket (sender.transport.acceptPending sender.opened)).sendHello
      sender.transport.peers.length)
  | .connected position fails results =>
    if sender.stateAt position = some .connecting then
      if fails then settled (some (sender.dropPeer position, results))
      else
        settled ((sendHello { sender with transport := sender.transport.connected position }
          position).handleWritable position results)
    else none
  | .writable position results =>
    if sender.stateAt position = some .connecting then none
    else settled (sender.handleWritable position results)
  | .receive position msg =>
    if sender.stateAt position = some .handshaking ∨ sender.stateAt position = some .ready then
      some { sender with transport := sender.transport.receive position msg }
    else none
  | .drop position => some (sender.dropPeer position)
  | .retire => some { sender with transport := sender.transport.retire }
  | .send target msg results =>
    settled ((sender.send target msg results).map fun (sender, results, _) => (sender, results))
  | .broadcast msg results =>
    settled ((sender.broadcast msg results).map fun (sender, results, _) => (sender, results))
  | .disconnectPeer id => some (sender.disconnectPeer id).1
  | .setHighWaterMark bytes => some { sender with highWaterMark := bytes }

/-- A new transport. -/
def start (selfId : NodeId) (listenPort : UInt16) (reconnectDelay : Int) : Sender where
  transport := { selfId, listenPort, reconnectDelay }

end Sender

/-! ### What a receiver decodes -/

/-- The messages in the complete frames of a byte string. -/
def decoded (bytes : Buffer) : List Message :=
  (parseFrames bytes).1.filterMap fun frame => decodeBody frame.type frame.payload

theorem size_utf8Encode_le (chars : List Char) : chars.utf8Encode.size ≤ 4 * chars.length := by
  induction chars with
  | nil => simp
  | cons char rest ih =>
    have small := char.utf8Size_le_four
    rw [List.utf8Encode_cons, ByteArray.size_append, List.utf8Encode_singleton, List.length_cons]
    have one : (String.utf8EncodeChar char).toByteArray.size = char.utf8Size := by simp
    omega

theorem length_toList_loop (bytes : ByteArray) (i : Nat) (front : List UInt8) :
    (ByteArray.toList.loop bytes i front).length = (bytes.size - i) + front.length := by
  induction i, front using ByteArray.toList.loop.induct bytes with
  | case1 i front inside ih =>
    rw [ByteArray.toList.loop, if_pos inside, ih, List.length_cons]
    omega
  | case2 i front outside =>
    rw [ByteArray.toList.loop, if_neg outside, List.length_reverse]
    omega

/-- The address of a `Hello` is short. -/
theorem fits_hello (transport : Transport) : transport.hello.Fits := by
  have port : (toString transport.listenPort).length ≤ 5 :=
    Nat.repr_length _ 5 (by decide) (Nat.lt_trans transport.listenPort.toNat_lt (by decide))
  have chars := size_utf8Encode_le ("0.0.0.0:" ++ toString transport.listenPort).toList
  have bytes : (ByteArray.toList.loop ("0.0.0.0:" ++ toString transport.listenPort).toUTF8 0 []).length =
      _ := length_toList_loop _ 0 []
  rw [String.utf8Encode_toList, String.length_toList, String.length_append] at chars
  show (ByteArray.toList.loop _ 0 []).length ≤ 256
  rw [bytes]
  have eight : "0.0.0.0:".length = 8 := by decide
  rw [eight] at chars
  have same : ("0.0.0.0:" ++ toString transport.listenPort).toUTF8.size =
    ("0.0.0.0:" ++ toString transport.listenPort).toByteArray.size := rfl
  simp only [List.length_nil]
  omega

theorem readHeader_encode (msg : Message) (rest : Buffer) :
    readHeader (encode msg ++ rest) = some (headerOf msg, encodeBody msg ++ rest) := by
  rw [encode_eq, List.append_assoc]
  exact reads_header (headerOf msg) (encodeBody msg ++ rest)

theorem fault_headerOf {msg : Message} (fits : msg.Fits) : (headerOf msg).fault = .ok := by
  have small : ¬ (headerOf msg).length.toNat > kMaxPayload := by
    rw [FrameReader.toNat_length_headerOf fits]
    exact Nat.not_lt.mpr (length_encodeBody fits)
  unfold FrameHeader.fault
  rw [if_neg (fun wrong => wrong rfl), if_neg (fun wrong => wrong rfl), if_neg small]

/-- A frame that is all there. -/
theorem nextFrame_encode {msg : Message} (fits : msg.Fits) (rest : Buffer) :
    nextFrame (encode msg ++ rest) =
      some ({ type := (typeOf msg).toWire, payload := encodeBody msg }, rest) := by
  have length := FrameReader.toNat_length_headerOf fits
  refine nextFrame_eq_some.mpr ⟨_, _, readHeader_encode msg rest, fault_headerOf fits, ?_, ?_, ?_⟩
  · rw [length, List.length_append]
    exact Nat.le_add_right _ _
  · rw [length, List.take_left]
    rfl
  · rw [length, List.drop_left]

/-- A frame that is not all there. -/
theorem parseFrames_of_short {msg : Message} (fits : msg.Fits) {front : Buffer}
    (part : front <+: encode msg) (short : front.length < (encode msg).length) :
    parseFrames front = ([], .ok) := by
  by_cases few : front.length < kHeaderSize
  · have nothing := (readHeader_eq_none_iff front).mpr few
    have noFrame : nextFrame front = none := by
      unfold nextFrame
      rw [nothing]
      rfl
    rw [parseFrames_of_none noFrame, faultOf, nothing]
  · -- The header is there, and says that the body is longer than what follows.
    have header : encodeHeader (headerOf msg) <+: front := by
      refine List.prefix_of_prefix_length_le ?_ part ?_
      · rw [encode_eq]
        exact List.prefix_append _ _
      · rw [length_encodeHeader]
        exact Nat.le_of_not_lt few
    obtain ⟨body, rfl⟩ := header
    have read := reads_header (headerOf msg) body
    have longer : ¬ (headerOf msg).length.toNat ≤ body.length := by
      rw [FrameReader.toNat_length_headerOf fits]
      rw [FrameReader.length_encode, List.length_append, length_encodeHeader] at short
      omega
    have noFrame : nextFrame (encodeHeader (headerOf msg) ++ body) = none := by
      by_contra notEmpty
      obtain ⟨⟨frame, rest⟩, found⟩ := Option.ne_none_iff_exists'.mp notEmpty
      obtain ⟨header, body', read', _, there, _⟩ := nextFrame_eq_some.mp found
      obtain ⟨rfl, rfl⟩ := Prod.mk.inj (Option.some.inj (read.symm.trans read'))
      exact longer there
    have good : faultOf (encodeHeader (headerOf msg) ++ body) = .ok := by
      unfold faultOf
      rw [read]
      exact fault_headerOf fits
    rw [parseFrames_of_none noFrame, good]

/-- **Whatever part of the frames has arrived**, it is read as a front part of the messages. -/
theorem decoded_front {messages : List Message} (fits : ∀ msg ∈ messages, msg.Fits) {front : Buffer}
    (part : front <+: messages.flatMap encode) :
    decoded front <+: messages ∧ (parseFrames front).2 = .ok ∧
      (front = messages.flatMap encode → decoded front = messages) := by
  induction messages generalizing front with
  | nil =>
    obtain rfl : front = [] := List.prefix_nil.mp part
    exact ⟨List.nil_prefix, by decide, fun _ => rfl⟩
  | cons msg rest ih =>
    have fits' : msg.Fits := fits msg List.mem_cons_self
    rw [List.flatMap_cons] at part ⊢
    by_cases whole : (encode msg).length ≤ front.length
    · obtain ⟨later, rfl⟩ := List.prefix_of_prefix_length_le (List.prefix_append _ _) part whole
      have found := nextFrame_encode fits' later
      have first : decoded (encode msg ++ later) = msg :: decoded later := by
        unfold decoded
        rw [parseFrames_of_frame found, List.filterMap_cons]
        simp only [decodeBody_encodeBody fits']
      obtain ⟨front, good, all⟩ := ih (fun other member => fits other (List.mem_cons_of_mem _ member))
        ((List.prefix_append_right_inj _).mp part)
      rw [first, parseFrames_of_frame found]
      exact ⟨List.cons_prefix_cons.mpr ⟨rfl, front⟩, good,
        fun same => congrArg (msg :: ·) (all (List.append_cancel_left same))⟩
    · have short := Nat.lt_of_not_le whole
      have front' : front <+: encode msg :=
        List.prefix_of_prefix_length_le part (List.prefix_append _ _) (Nat.le_of_lt short)
      have nothing := parseFrames_of_short fits' front' short
      unfold decoded
      rw [nothing]
      refine ⟨List.nil_prefix, rfl, fun same => ?_⟩
      rw [same, List.length_append] at short
      exact absurd short (Nat.not_lt.mpr (Nat.le_add_right _ _))

/-! ### The invariant -/

namespace Outbox

/-- **What is queued, and what is taken.** -/
structure Flows (box : Outbox) (hello : Message) : Prop where
  inOrder : box.taken ++ box.writer.data = box.queued.flatMap encode
  greets : ∀ first ∈ box.queued.head?, first = hello
  /-- The backlog was below the mark when the last message was queued. -/
  bounded : ∀ last ∈ box.queued.getLast?,
    box.writer.size < box.mark + (encode last).length ∨ box.queued = [last]

variable {box : Outbox} {hello : Message}

theorem flows_empty (hello : Message) : ({} : Outbox).Flows hello where
  inOrder := rfl
  greets := nofun
  bounded := nofun

theorem Flows.of_nil (flows : box.Flows hello) (nothing : box.queued = []) :
    box.taken = [] ∧ box.writer.size = 0 := by
  have empty := flows.inOrder
  rw [nothing, List.flatMap_nil] at empty
  obtain ⟨taken, data⟩ := List.append_eq_nil_iff.mp empty
  exact ⟨taken, by rw [← FrameWriter.length_data, data]; rfl⟩

theorem Flows.write (flows : box.Flows hello) {count : Nat} (there : count ≤ box.writer.size) :
    (box.write count).Flows hello where
  inOrder := by
    show box.taken ++ box.writer.data.take count ++ (box.writer.consume count).data = _
    rw [FrameWriter.data_consume _ there, List.append_assoc, List.take_append_drop]
    exact flows.inOrder
  greets := flows.greets
  bounded := by
    intro last final
    have less : (box.writer.consume count).size ≤ box.writer.size := by
      rw [← FrameWriter.length_data, FrameWriter.data_consume _ there, List.length_drop,
        FrameWriter.length_data]
      exact Nat.sub_le _ _
    exact (flows.bounded last final).imp_left (Nat.lt_of_le_of_lt less)

theorem Flows.enqueue (flows : box.Flows hello) (msg : Message) (mark : Nat)
    (allowed : box.queued = [] ∧ msg = hello ∨ box.queued ≠ [] ∧ box.writer.size < mark) :
    (box.enqueue msg mark).Flows hello where
  inOrder := by
    show box.taken ++ (box.writer.enqueue msg).data = (box.queued ++ [msg]).flatMap encode
    rw [FrameWriter.data_enqueue, ← List.append_assoc, flows.inOrder, List.flatMap_append,
      List.flatMap_singleton]
  greets := by
    intro first here
    replace here : first ∈ (box.queued ++ [msg]).head? := here
    rcases allowed with ⟨nothing, rfl⟩ | ⟨notEmpty, _⟩
    · rw [nothing] at here
      exact (Option.some.inj here).symm
    · rw [List.head?_append_of_ne_nil _ notEmpty] at here
      exact flows.greets first here
  bounded := by
    intro last final
    replace final : last ∈ (box.queued ++ [msg]).getLast? := final
    rw [List.getLast?_concat] at final
    obtain rfl := Option.some.inj final
    rcases allowed with ⟨nothing, _⟩ | ⟨_, room⟩
    · right
      show box.queued ++ [msg] = [msg]
      rw [nothing]
      rfl
    · left
      show (box.writer.enqueue msg).size < mark + (encode msg).length
      rw [← FrameWriter.length_data, FrameWriter.data_enqueue, List.length_append, FrameWriter.length_data]
      exact Nat.add_lt_add_right room _

end Outbox

/-- What a peer has for its state: a connection that is up has been greeted. -/
def Peer.Wired (peer : Peer) (outbox : Nat → Outbox) (opened : Nat) : Prop :=
  match peer.state with
  | .disconnected => peer.sock = none
  | .connecting => ∃ sock, peer.sock = some sock ∧ sock < opened ∧ (outbox sock).queued = []
  | .handshaking | .ready => ∃ sock, peer.sock = some sock ∧ sock < opened ∧ (outbox sock).queued ≠ []

namespace Sender

/-- A measure of all the outboxes. -/
def total (sender : Sender) (measure : Outbox → Nat) : Nat :=
  ∑ sock ∈ Finset.range sender.opened, measure (sender.outbox sock)

structure Sound (sender : Sender) : Prop where
  flows : ∀ sock, (sender.outbox sock).Flows sender.transport.hello
  unopened : ∀ sock, sender.opened ≤ sock → (sender.outbox sock).queued = []
  wired : ∀ peer ∈ sender.transport.peers, peer.Wired sender.outbox sender.opened
  oneSocket : ∀ sock, sender.transport.peers.countP (fun peer => peer.sock = some sock) ≤ 1
  bytesSent : sender.stats.bytesSent = sender.total fun box => box.taken.length
  messagesSent : sender.stats.messagesSent = sender.total fun box => box.queued.tail.length

variable {sender : Sender} {position sock : Nat} {peer : Peer}

theorem sound_start (selfId : NodeId) (listenPort : UInt16) (reconnectDelay : Int) :
    (start selfId listenPort reconnectDelay).Sound where
  flows := fun _ => Outbox.flows_empty _
  unopened := fun _ _ => rfl
  wired := nofun
  oneSocket := fun _ => Nat.zero_le 1
  bytesSent := rfl
  messagesSent := rfl

theorem total_update (inside : sock < sender.opened) (measure : Outbox → Nat) (box : Outbox) :
    (sender.setOutbox sock box).total measure + measure (sender.outbox sock) =
      sender.total measure + measure box := by
  have member : sock ∈ Finset.range sender.opened := Finset.mem_range.mpr inside
  have split := Finset.add_sum_erase _ (fun sock => measure (sender.outbox sock)) member
  have split' := Finset.add_sum_erase _ (fun other => measure (Function.update sender.outbox sock box other))
    member
  have same : ∑ other ∈ (Finset.range sender.opened).erase sock,
        measure (Function.update sender.outbox sock box other) =
      ∑ other ∈ (Finset.range sender.opened).erase sock, measure (sender.outbox other) := by
    refine Finset.sum_congr rfl fun other away => ?_
    rw [Function.update_of_ne (Finset.mem_erase.mp away).1]
  rw [same, Function.update_self] at split'
  show ∑ other ∈ Finset.range sender.opened, measure (Function.update sender.outbox sock box other) + _ =
    ∑ other ∈ Finset.range sender.opened, measure (sender.outbox other) + _
  omega

theorem sockAt_eq_some : sender.sockAt position = some sock ↔
    ∃ peer, sender.transport.peers[position]? = some peer ∧ peer.sock = some sock :=
  Option.bind_eq_some_iff

theorem stateAt_eq_some {state : PeerState} : sender.stateAt position = some state ↔
    ∃ peer, sender.transport.peers[position]? = some peer ∧ peer.state = state :=
  Option.map_eq_some_iff

theorem writerAt_of_sock (found : sender.sockAt position = some sock) :
    sender.writerAt position = (sender.outbox sock).writer := by
  unfold writerAt
  rw [found]

end Sender

namespace Peer.Wired

variable {peer : Peer} {outbox outbox' : Nat → Outbox} {opened opened' sock : Nat}

theorem lt_opened (wired : peer.Wired outbox opened) (found : peer.sock = some sock) : sock < opened := by
  obtain ⟨id, outbound, state, sock'⟩ := peer
  obtain rfl : sock' = some sock := found
  cases state with
  | disconnected => cases (show some sock = none from wired)
  | connecting | handshaking | ready =>
    obtain ⟨_, same, less, _⟩ := wired
    cases same
    exact less

theorem of_same (wired : peer.Wired outbox opened)
    (same : ∀ sock, peer.sock = some sock → ((outbox' sock).queued = [] ↔ (outbox sock).queued = []))
    (more : opened ≤ opened') : peer.Wired outbox' opened' := by
  obtain ⟨id, outbound, state, sock'⟩ := peer
  cases state with
  | disconnected => exact wired
  | connecting =>
    obtain ⟨sock, found, less, nothing⟩ := wired
    exact ⟨sock, found, Nat.lt_of_lt_of_le less more, (same sock found).mpr nothing⟩
  | handshaking | ready =>
    obtain ⟨sock, found, less, notEmpty⟩ := wired
    exact ⟨sock, found, Nat.lt_of_lt_of_le less more, (same sock found).not.mpr notEmpty⟩

/-- A peer that has been greeted, or is being connected. -/
theorem nil_iff (wired : peer.Wired outbox opened) (found : peer.sock = some sock) :
    (outbox sock).queued = [] ↔ peer.state = .connecting := by
  obtain ⟨id, outbound, state, sock'⟩ := peer
  obtain rfl : sock' = some sock := found
  cases state with
  | disconnected => cases (show some sock = none from wired)
  | connecting =>
    obtain ⟨_, same, _, nothing⟩ := wired
    cases same
    exact iff_of_true nothing rfl
  | handshaking | ready =>
    obtain ⟨_, same, _, notEmpty⟩ := wired
    cases same
    exact iff_of_false notEmpty nofun

theorem exists_sock (wired : peer.Wired outbox opened) (up : peer.state ≠ .disconnected) :
    ∃ sock, peer.sock = some sock := by
  obtain ⟨id, outbound, state, sock'⟩ := peer
  cases state with
  | disconnected => exact absurd rfl up
  | connecting | handshaking | ready =>
    obtain ⟨sock, found, _⟩ := wired
    exact ⟨sock, found⟩

/-- Any state but connecting will do for a peer on a greeted connection. -/
theorem of_greeted (found : peer.sock = some sock) (less : sock < opened)
    (greeted : (outbox sock).queued ≠ []) (up : peer.state = .handshaking ∨ peer.state = .ready) :
    peer.Wired outbox opened := by
  obtain ⟨id, outbound, state, sock'⟩ := peer
  rcases up with same | same
  · obtain rfl : state = .handshaking := same
    exact ⟨sock, found, less, greeted⟩
  · obtain rfl : state = .ready := same
    exact ⟨sock, found, less, greeted⟩

end Peer.Wired

namespace Sender

variable {sender : Sender} {position sock : Nat} {peer : Peer}

/-! #### The writers -/

namespace Sound

theorem lt_opened (sound : sender.Sound) (found : sender.sockAt position = some sock) :
    sock < sender.opened := by
  obtain ⟨peer, there, onSocket⟩ := sockAt_eq_some.mp found
  exact (sound.wired peer (List.mem_of_getElem? there)).lt_opened onSocket

/-- A box is changed, and the peers and the counters with it. -/
theorem setBox (sound : sender.Sound) (less : sock < sender.opened) {box : Outbox} {transport : Transport}
    {stats : SendStats} (hello : transport.hello = sender.transport.hello)
    (wired : ∀ peer ∈ transport.peers, peer.Wired (Function.update sender.outbox sock box) sender.opened)
    (oneSocket : ∀ sock, transport.peers.countP (fun peer => peer.sock = some sock) ≤ 1)
    (flows : box.Flows transport.hello)
    (bytesSent : stats.bytesSent + (sender.outbox sock).taken.length =
      sender.stats.bytesSent + box.taken.length)
    (messagesSent : stats.messagesSent + (sender.outbox sock).queued.tail.length =
      sender.stats.messagesSent + box.queued.tail.length) :
    Sound { sender.setOutbox sock box with transport, stats } where
  flows := by
    intro other
    show (Function.update sender.outbox sock box other).Flows transport.hello
    by_cases here : other = sock
    · subst here
      rw [Function.update_self]
      exact flows
    · rw [Function.update_of_ne here, hello]
      exact sound.flows other
  unopened := by
    intro other beyond
    show (Function.update sender.outbox sock box other).queued = []
    rw [Function.update_of_ne (Nat.ne_of_gt (Nat.lt_of_lt_of_le less beyond))]
    exact sound.unopened other beyond
  wired := wired
  oneSocket := oneSocket
  bytesSent := by
    have totals := total_update less (fun box => box.taken.length) box
    have before := sound.bytesSent
    show stats.bytesSent = (sender.setOutbox sock box).total fun box => box.taken.length
    omega
  messagesSent := by
    have totals := total_update less (fun box => box.queued.tail.length) box
    have before := sound.messagesSent
    show stats.messagesSent = (sender.setOutbox sock box).total fun box => box.queued.tail.length
    omega

/-- A box with something in it stays one, and one with nothing in it does too. -/
theorem wired_update (sound : sender.Sound) {box : Outbox}
    (same : box.queued = [] ↔ (sender.outbox sock).queued = []) :
    ∀ peer ∈ sender.transport.peers, peer.Wired (Function.update sender.outbox sock box) sender.opened := by
  refine fun peer member => (sound.wired peer member).of_same (fun other _ => ?_) (Nat.le_refl _)
  by_cases here : other = sock
  · subst here
    rw [Function.update_self]
    exact same
  · rw [Function.update_of_ne here]

/-- Counters that no sum depends on. -/
theorem setStats (sound : sender.Sound) {stats : SendStats}
    (bytesSent : stats.bytesSent = sender.stats.bytesSent)
    (messagesSent : stats.messagesSent = sender.stats.messagesSent) : Sound { sender with stats } where
  flows := sound.flows
  unopened := sound.unopened
  wired := sound.wired
  oneSocket := sound.oneSocket
  bytesSent := bytesSent.trans sound.bytesSent
  messagesSent := messagesSent.trans sound.messagesSent

theorem setHighWaterMark (sound : sender.Sound) (highWaterMark : Nat) :
    Sound { sender with highWaterMark } where
  flows := sound.flows
  unopened := sound.unopened
  wired := sound.wired
  oneSocket := sound.oneSocket
  bytesSent := sound.bytesSent
  messagesSent := sound.messagesSent

theorem wrote (sound : sender.Sound) {count : Nat} (there : count ≤ (sender.writerAt position).size) :
    (sender.wrote position count).Sound := by
  unfold Sender.wrote
  cases found : sender.sockAt position with
  | none => exact sound
  | some sock =>
    rw [writerAt_of_sock found] at there
    refine sound.setBox (sound.lt_opened found) rfl (sound.wired_update Iff.rfl) sound.oneSocket
      ((sound.flows sock).write there) ?_ rfl
    show sender.stats.bytesSent + count + (sender.outbox sock).taken.length = sender.stats.bytesSent +
      ((sender.outbox sock).taken ++ (sender.outbox sock).writer.data.take count).length
    rw [List.length_append, List.length_take_of_le (by rw [FrameWriter.length_data]; exact there)]
    omega

/-- **A message is queued** for a peer that is up and below the mark. -/
theorem queue (sound : sender.Sound) (ready : sender.stateAt position = some .ready)
    (room : sender.overHighWaterMark position = false) (msg : Message) :
    (sender.enqueue position msg).sent.Sound := by
  obtain ⟨peer, there, up⟩ := stateAt_eq_some.mp ready
  have wired := sound.wired peer (List.mem_of_getElem? there)
  obtain ⟨sock, onSocket⟩ := wired.exists_sock (by rw [up]; nofun)
  have found : sender.sockAt position = some sock := sockAt_eq_some.mpr ⟨peer, there, onSocket⟩
  have greeted : (sender.outbox sock).queued ≠ [] := by
    rw [Ne, wired.nil_iff onSocket, up]
    nofun
  have below : (sender.outbox sock).writer.size < sender.highWaterMark := by
    unfold overHighWaterMark at room
    rw [writerAt_of_sock found] at room
    exact Nat.lt_of_not_le (of_decide_eq_false room)
  have flows := (sound.flows sock).enqueue msg sender.highWaterMark (Or.inr ⟨greeted, below⟩)
  unfold Sender.enqueue
  rw [found]
  refine sound.setBox (wired.lt_opened onSocket) rfl (sound.wired_update (iff_of_false ?_ greeted))
    sound.oneSocket flows rfl ?_
  · exact List.append_ne_nil_of_right_ne_nil _ (List.cons_ne_nil _ _)
  · show _ = _ + ((sender.outbox sock).queued ++ [msg]).tail.length
    rw [List.tail_append_of_ne_nil greeted, List.length_append]
    show sender.stats.messagesSent + 1 + _ = _
    simp only [List.length_singleton]
    omega

/-! #### The peers -/

theorem setTransport (sound : sender.Sound) {transport : Transport}
    (hello : transport.hello = sender.transport.hello)
    (wired : ∀ peer ∈ transport.peers, peer.Wired sender.outbox sender.opened)
    (oneSocket : ∀ sock, transport.peers.countP (fun peer => peer.sock = some sock) ≤ 1) :
    Sound { sender with transport } where
  flows := fun sock => hello ▸ sound.flows sock
  unopened := sound.unopened
  wired := wired
  oneSocket := oneSocket
  bytesSent := sound.bytesSent
  messagesSent := sound.messagesSent

/-- The peer at a position is changed. It may take a socket that no other peer has. -/
theorem oneSocket_updatePeer (sound : sender.Sound)
    (found : sender.transport.peers[position]? = some peer) {change : Peer → Peer}
    (socket : ∀ sock, (change peer).sock = some sock →
      peer.sock = some sock ∨ ∀ peer' ∈ sender.transport.peers, peer'.sock ≠ some sock) (sock : Nat) :
    (sender.transport.updatePeer position change).peers.countP (fun peer => peer.sock = some sock) ≤ 1 := by
  refine countP_modify_le_one (sound.oneSocket sock) found fun held => ?_
  refine (socket sock (of_decide_eq_true held)).imp decide_eq_true fun none => ?_
  exact List.countP_eq_zero.mpr fun peer' member => decide_eq_true_iff.not.mpr (none peer' member)

theorem updatePeer (sound : sender.Sound) (found : sender.transport.peers[position]? = some peer)
    {change : Peer → Peer} (wired : (change peer).Wired sender.outbox sender.opened)
    (socket : ∀ sock, (change peer).sock = some sock →
      peer.sock = some sock ∨ ∀ peer' ∈ sender.transport.peers, peer'.sock ≠ some sock) :
    Sound { sender with transport := sender.transport.updatePeer position change } := by
  refine sound.setTransport rfl (fun peer' member => ?_) (sound.oneSocket_updatePeer found socket)
  rcases mem_modify change found member with old | rfl
  · exact sound.wired peer' old
  · exact wired

theorem dropPeer (sound : sender.Sound) (position : Nat) : (sender.dropPeer position).Sound := by
  cases found : sender.transport.peers[position]? with
  | none =>
    have same : sender.transport.dropPeer position = sender.transport := by
      unfold Transport.dropPeer Transport.updatePeer
      rw [List.modify_eq_set_getElem?, found]
      rfl
    unfold Sender.dropPeer
    rw [same]
    exact sound
  | some peer => exact sound.updatePeer found rfl nofun

theorem peerUp (sound : sender.Sound) (found : sender.transport.peers[position]? = some peer)
    (up : peer.state = .handshaking ∨ peer.state = .ready) (id : NodeId) :
    Sound { sender with transport := sender.transport.peerUp position id } := by
  have wired := sound.wired peer (List.mem_of_getElem? found)
  obtain ⟨sock, onSocket⟩ := wired.exists_sock (by rcases up with same | same <;> rw [same] <;> nofun)
  have greeted : (sender.outbox sock).queued ≠ [] := by
    rw [Ne, wired.nil_iff onSocket]
    rcases up with same | same <;> rw [same] <;> nofun
  refine sound.updatePeer found ?_ fun sock' taken => Or.inl taken
  show Peer.Wired { peer with id, state := .ready } sender.outbox sender.opened
  exact Peer.Wired.of_greeted onSocket (wired.lt_opened onSocket) greeted (Or.inr rfl)

/-- **A message** brings a peer up or drops it, or drops another one for it. -/
theorem receive (sound : sender.Sound)
    (up : sender.stateAt position = some .handshaking ∨ sender.stateAt position = some .ready)
    (msg : Message) : Sound { sender with transport := sender.transport.receive position msg } := by
  obtain ⟨peer, found, up⟩ : ∃ peer, sender.transport.peers[position]? = some peer ∧
      (peer.state = .handshaking ∨ peer.state = .ready) := by
    rcases up with up | up
    · obtain ⟨peer, found, same⟩ := stateAt_eq_some.mp up
      exact ⟨peer, found, Or.inl same⟩
    · obtain ⟨peer, found, same⟩ := stateAt_eq_some.mp up
      exact ⟨peer, found, Or.inr same⟩
  unfold Transport.receive
  rw [found]
  cases msg with
  | hello hello =>
    dsimp only
    unfold Transport.receiveHello
    cases existing : sender.transport.findPeer hello.nodeId with
    | none =>
      dsimp only
      split_ifs
      · exact sound.dropPeer position
      · exact sound.dropPeer position
      · exact sound.peerUp found up hello.nodeId
    | some first =>
      dsimp only
      split_ifs with _ _ itself
      · exact sound.dropPeer position
      · exact sound.dropPeer position
      · exact sound.peerUp found up hello.nodeId
      · have found' : (sender.transport.dropPeer first).peers[position]? = some peer :=
          (List.getElem?_modify_ne _ _ itself).trans found
        exact (sound.dropPeer first).peerUp found' up hello.nodeId
      · exact sound.dropPeer position
  | heartbeat | commandForward | eventAck | appendEntries | appendResponse | requestVote | voteResponse =>
    dsimp only
    split_ifs
    · exact sound.dropPeer position
    · exact sound

theorem addPeer (sound : sender.Sound) (id : NodeId) :
    Sound { sender with transport := sender.transport.addPeer id } := by
  refine sound.setTransport rfl (fun peer member => ?_) fun sock => ?_
  · rcases List.mem_append.mp member with old | new
    · exact sound.wired peer old
    · obtain rfl := List.mem_singleton.mp new
      exact rfl
  · show (sender.transport.peers ++ [_]).countP _ ≤ 1
    rw [List.countP_append]
    exact sound.oneSocket sock

theorem retire (sound : sender.Sound) : Sound { sender with transport := sender.transport.retire } := by
  refine sound.setTransport rfl (fun peer member => ?_) fun sock => ?_
  · exact sound.wired peer (List.mem_filter.mp member).1
  · exact (List.filter_sublist.countP_le).trans (sound.oneSocket sock)

/-! #### New connections -/

theorem fresh_socket (sound : sender.Sound) {sock : Nat} (beyond : sender.opened ≤ sock) :
    ∀ peer ∈ sender.transport.peers, peer.sock ≠ some sock := fun peer member taken =>
  Nat.not_lt.mpr beyond ((sound.wired peer member).lt_opened taken)

/-- A socket more, that no peer has yet. -/
theorem openSocket (sound : sender.Sound) : (sender.openSocket sender.transport).Sound where
  flows := sound.flows
  unopened := fun sock beyond => sound.unopened sock (Nat.le_of_succ_le beyond)
  wired := fun peer member => (sound.wired peer member).of_same (fun _ _ => Iff.rfl) (Nat.le_succ _)
  oneSocket := sound.oneSocket
  bytesSent := by
    have nothing := (sound.flows sender.opened).of_nil (sound.unopened _ (Nat.le_refl _))
    show sender.stats.bytesSent =
      ∑ sock ∈ Finset.range (sender.opened + 1), (sender.outbox sock).taken.length
    rw [Finset.sum_range_succ, nothing.1]
    exact sound.bytesSent
  messagesSent := by
    have nothing := sound.unopened _ (Nat.le_refl sender.opened)
    show sender.stats.messagesSent =
      ∑ sock ∈ Finset.range (sender.opened + 1), (sender.outbox sock).queued.tail.length
    rw [Finset.sum_range_succ, nothing]
    exact sound.messagesSent

theorem dial (sound : sender.Sound) (due : sender.transport.due position = true) (opens : Bool) :
    Sound (if opens then sender.openSocket (sender.transport.dial position (some sender.opened))
      else { sender with transport := sender.transport.dial position none }) := by
  unfold Transport.due at due
  split at due
  · cases due
  · next peer found =>
    unfold Transport.dial Transport.startConnect
    generalize sender.transport.nextConnectCycle.set position _ = nextConnectCycle
    cases opens with
    | false =>
      have same : Sound { sender with transport := { sender.transport with nextConnectCycle } } :=
        sound.setTransport rfl sound.wired sound.oneSocket
      refine same.updatePeer found ?_ nofun
      exact rfl
    | true =>
      have opened : Sound (sender.openSocket { sender.transport with nextConnectCycle }) :=
        sound.openSocket.setTransport rfl sound.openSocket.wired sound.openSocket.oneSocket
      refine opened.updatePeer found ?_ fun sock taken => Or.inr ?_
      · exact ⟨_, rfl, Nat.lt_succ_self _, sound.unopened _ (Nat.le_refl _)⟩
      · cases taken
        exact sound.fresh_socket (Nat.le_refl _)

/-- **The first message on a connection** is `Hello`. -/
theorem greet (sound : sender.Sound) {transport : Transport}
    (hello : transport.hello = sender.transport.hello) (less : sock < sender.opened)
    (empty : (sender.outbox sock).queued = [])
    (wired : ∀ peer ∈ transport.peers, peer.sock = some sock ∧ peer.state = .handshaking ∨
      peer.sock ≠ some sock ∧ peer ∈ sender.transport.peers)
    (oneSocket : ∀ sock, transport.peers.countP (fun peer => peer.sock = some sock) ≤ 1) :
    Sound { sender.setOutbox sock ((sender.outbox sock).enqueue transport.hello sender.highWaterMark) with
      transport } := by
  have flows := (sound.flows sock).enqueue _ sender.highWaterMark (Or.inl ⟨empty, rfl⟩)
  have greeted : ((sender.outbox sock).enqueue transport.hello sender.highWaterMark).queued ≠ [] :=
    List.append_ne_nil_of_right_ne_nil _ (List.cons_ne_nil _ _)
  refine sound.setBox less hello (fun peer member => ?_) oneSocket (hello ▸ flows) rfl ?_
  · rcases wired peer member with ⟨taken, up⟩ | ⟨other, old⟩
    · exact Peer.Wired.of_greeted taken less (by rw [Function.update_self]; exact greeted) (Or.inl up)
    · refine (sound.wired peer old).of_same (fun sock' taken => ?_) (Nat.le_refl _)
      rw [Function.update_of_ne]
      rintro rfl
      exact other taken
  · show _ = _ + ((sender.outbox sock).queued ++ [_]).tail.length
    rw [empty]
    rfl

end Sound

/-! ### Writing and queueing -/

theorem stateAt_congr {next : Sender}
    (same : next.transport.peers[position]? = sender.transport.peers[position]?) :
    next.stateAt position = sender.stateAt position := by
  unfold stateAt
  rw [same]

theorem sockAt_congr {next : Sender}
    (same : next.transport.peers[position]? = sender.transport.peers[position]?) :
    next.sockAt position = sender.sockAt position := by
  unfold sockAt
  rw [same]

/-- What has happened at one peer: the messages queued for it, the refusals counted, and perhaps a drop. All
else is as it was. -/
structure Offered (sender next : Sender) (position : Nat) (accepted : List Message) (refusals : Nat) :
    Prop where
  queued : ∀ sock, (next.outbox sock).queued = (sender.outbox sock).queued ++
    if sender.sockAt position = some sock then accepted else []
  untouched : ∀ sock, sender.sockAt position ≠ some sock → next.outbox sock = sender.outbox sock
  transport : next.transport = sender.transport ∨ next.transport = sender.transport.dropPeer position
  highWaterMark : next.highWaterMark = sender.highWaterMark
  messagesSent : next.stats.messagesSent = sender.stats.messagesSent + accepted.length
  refused : next.stats.sendsRefusedOverflow = sender.stats.sendsRefusedOverflow + refusals

namespace Offered

variable {middle next : Sender} {accepted accepted' : List Message} {refusals refusals' : Nat}

theorem refl (sender : Sender) (position : Nat) : Offered sender sender position [] 0 where
  queued := fun sock => by rw [ite_self, List.append_nil]
  untouched := fun _ _ => rfl
  transport := Or.inl rfl
  highWaterMark := rfl
  messagesSent := rfl
  refused := rfl

theorem trans (offered : Offered sender middle position accepted refusals)
    (same : middle.transport = sender.transport)
    (offered' : Offered middle next position accepted' refusals') :
    Offered sender next position (accepted ++ accepted') (refusals + refusals') where
  queued := by
    intro sock
    rw [offered'.queued, offered.queued, sockAt_congr (congrArg (·.peers[position]?) same), List.append_assoc]
    split
    · rfl
    · rfl
  untouched := by
    intro sock other
    rw [offered'.untouched sock (by rwa [sockAt_congr (congrArg (·.peers[position]?) same)]), offered.untouched sock other]
  transport := same ▸ offered'.transport
  highWaterMark := offered'.highWaterMark.trans offered.highWaterMark
  messagesSent := by
    rw [offered'.messagesSent, offered.messagesSent, List.length_append, Nat.add_assoc]
  refused := by rw [offered'.refused, offered.refused, Nat.add_assoc]

/-- The other peers are where they were. -/
theorem getElem?_of_ne (offered : Offered sender next position accepted refusals) {other : Nat}
    (different : other ≠ position) : next.transport.peers[other]? = sender.transport.peers[other]? := by
  rcases offered.transport with same | dropped
  · rw [same]
  · rw [dropped]
    exact List.getElem?_modify_ne _ _ different.symm

/-- A refusal is counted. -/
theorem refuse (offered : Offered sender next position [] 0) :
    Offered sender next.refused position [] 1 where
  queued := offered.queued
  untouched := offered.untouched
  transport := offered.transport
  highWaterMark := offered.highWaterMark
  messagesSent := offered.messagesSent
  refused := congrArg (· + 1) offered.refused

theorem wrote (sender : Sender) (position count : Nat) :
    Offered sender (sender.wrote position count) position [] 0 := by
  unfold Sender.wrote
  cases found : sender.sockAt position with
  | none => exact refl sender position
  | some sock =>
    refine ⟨fun other => ?_, fun other apart => ?_, Or.inl rfl, rfl, rfl, rfl⟩
    · rw [ite_self, List.append_nil]
      show (Function.update sender.outbox sock _ other).queued = _
      by_cases here : other = sock
      · subst here
        rw [Function.update_self]
        rfl
      · rw [Function.update_of_ne here]
    · refine Function.update_of_ne ?_ _ _
      rintro rfl
      exact apart found

theorem enqueue (sender : Sender) (position : Nat) (msg : Message) :
    Offered sender (sender.enqueue position msg).sent position [msg] 0 := by
  unfold Sender.enqueue
  cases found : sender.sockAt position with
  | none =>
    refine ⟨fun sock => ?_, fun _ _ => rfl, Or.inl rfl, rfl, rfl, rfl⟩
    rw [found, if_neg nofun, List.append_nil]
    rfl
  | some sock =>
    refine ⟨fun other => ?_, fun other apart => ?_, Or.inl rfl, rfl, rfl, rfl⟩
    · show (Function.update sender.outbox sock _ other).queued = _
      by_cases here : other = sock
      · subst here
        rw [Function.update_self, if_pos found]
        rfl
      · have apart : ¬ sender.sockAt position = some other := fun same =>
          here (Option.some.inj (same.symm.trans found))
        rw [Function.update_of_ne here, if_neg apart, List.append_nil]
    · refine Function.update_of_ne ?_ _ _
      rintro rfl
      exact apart found

end Offered

theorem transport_wrote (sender : Sender) (position count : Nat) :
    (sender.wrote position count).transport = sender.transport := by
  unfold wrote
  split
  · rfl
  · rfl

/-- How `handleWritable` ends: all is written, or the socket would block, or a write fails and the peer is
dropped. -/
structure Written (sender next : Sender) (position : Nat) (results : List WriteResult) : Prop where
  sound : next.Sound
  offered : Offered sender next position [] 0
  outcome : next.transport = sender.transport ∧
      ((next.writerAt position).empty = true ∨ WriteResult.wouldBlock ∈ results) ∨
    next.transport = sender.transport.dropPeer position ∧ WriteResult.failed ∈ results

theorem Sound.handleWritable (sound : sender.Sound) {next : Sender} {results rest : List WriteResult}
    (done : sender.handleWritable position results = some (next, rest)) :
    Written sender next position results := by
  induction results generalizing sender with
  | nil =>
    obtain ⟨empty, same⟩ := Option.ite_none_right_eq_some.mp done
    cases same
    exact ⟨sound, Offered.refl _ _, Or.inl ⟨rfl, Or.inl empty⟩⟩
  | cons result results ih =>
    unfold Sender.handleWritable at done
    split_ifs at done with empty
    · cases done
      exact ⟨sound, Offered.refl _ _, Or.inl ⟨rfl, Or.inl empty⟩⟩
    · cases result with
      | wouldBlock =>
        cases done
        refine ⟨sound.setStats rfl rfl, ?_, Or.inl ⟨rfl, Or.inr List.mem_cons_self⟩⟩
        exact ⟨(Offered.refl sender position).queued, fun _ _ => rfl, Or.inl rfl, rfl, rfl, rfl⟩
      | failed =>
        cases done
        refine ⟨sound.dropPeer position, ?_, Or.inr ⟨rfl, List.mem_cons_self⟩⟩
        exact ⟨(Offered.refl sender position).queued, fun _ _ => rfl, Or.inr rfl, rfl, rfl, rfl⟩
      | ok count =>
        obtain ⟨there, done⟩ := Option.ite_none_right_eq_some.mp done
        have same := transport_wrote sender position count
        obtain ⟨sound', offered, outcome⟩ := ih (sound.wrote there) done
        refine ⟨sound', (Offered.wrote sender position count).trans same offered, ?_⟩
        rw [same] at outcome
        exact outcome.imp (And.imp_right (Or.imp_right (List.mem_cons_of_mem _)))
          (And.imp_right (List.mem_cons_of_mem _))

/-- The results that are left are among those there were. -/
theorem handleWritable_left {next : Sender} {results rest : List WriteResult}
    (done : sender.handleWritable position results = some (next, rest)) : rest ⊆ results := by
  induction results generalizing sender with
  | nil =>
    cases (Option.ite_none_right_eq_some.mp done).2
    exact List.Subset.refl _
  | cons result results ih =>
    unfold Sender.handleWritable at done
    split_ifs at done with empty
    · cases done
      exact List.Subset.refl _
    · cases result with
      | wouldBlock | failed =>
        cases done
        exact List.subset_cons_self _ _
      | ok count =>
        obtain ⟨_, done⟩ := Option.ite_none_right_eq_some.mp done
        exact List.subset_cons_of_subset _ (ih done)

/-- A peer that still has a socket after a write has not been dropped. -/
theorem Written.same {next : Sender} {results : List WriteResult}
    (written : Written sender next position results) (live : next.sockAt position ≠ none) :
    next.transport = sender.transport ∧
      ((next.writerAt position).empty = true ∨ WriteResult.wouldBlock ∈ results) := by
  refine written.outcome.resolve_right fun ⟨dropped, _⟩ => live ?_
  unfold sockAt
  rw [dropped]
  show ((sender.transport.peers.modify position _)[position]?).bind _ = none
  rw [List.getElem?_modify_eq]
  cases sender.transport.peers[position]? with
  | none => rfl
  | some peer => rfl

/-- What is left at a peer with a full backlog is left because the socket would block. -/
theorem Written.blocked {next : Sender} {results : List WriteResult}
    (written : Written sender next position results) (live : next.sockAt position ≠ none)
    (full : next.overHighWaterMark position = true) :
    WriteResult.wouldBlock ∈ results ∨ next.highWaterMark = 0 := by
  refine (written.same live).2.symm.imp_right fun empty => Nat.le_zero.mp ?_
  have nothing := (FrameWriter.empty_iff _).mp empty
  have size : (next.writerAt position).size = 0 := by
    rw [← FrameWriter.length_data, nothing]
    rfl
  exact size ▸ of_decide_eq_true full

/-- **A message that is queued and written**, as `send` and `broadcast` do it. -/
theorem Sound.accept (sound : sender.Sound) (ready : sender.stateAt position = some .ready)
    (room : ¬ sender.overHighWaterMark position = true) {msg : Message} {next : Sender}
    {results rest : List WriteResult}
    (done : (sender.enqueue position msg).sent.handleWritable position results = some (next, rest)) :
    next.Sound ∧ Offered sender next position [msg] 0 := by
  have queued := sound.queue ready (Bool.eq_false_iff.mpr room) msg
  obtain ⟨sound', offered, _⟩ := queued.handleWritable done
  refine ⟨sound', (Offered.enqueue sender position msg).trans ?_ offered⟩
  unfold Sender.enqueue Sender.sent
  split
  · rfl
  · rfl

/-! ### What `send` and `broadcast` say -/

/-- **What the result of `send` says.** -/
inductive Told (sender : Sender) (target : NodeId) (msg : Message) (results : List WriteResult)
    (next : Sender) : SendResult → Prop
  /-- The message is queued once, on the connection of the peer. -/
  | ok {position sock : Nat} (found : sender.transport.findPeer target = some position)
    (onSocket : sender.sockAt position = some sock) (offered : Offered sender next position [msg] 0) :
    Told sender target msg results next .ok
  /-- Nothing is queued: the socket does not take enough of what there is. -/
  | wouldOverflow {position : Nat} (found : sender.transport.findPeer target = some position)
    (offered : Offered sender next position [] 1) (same : next.transport = sender.transport)
    (full : next.highWaterMark ≤ next.pendingBytes target) (saturated : next.isSaturated target = true)
    (blocked : WriteResult.wouldBlock ∈ results ∨ next.highWaterMark = 0) :
    Told sender target msg results next .wouldOverflow
  /-- Nothing is queued: no such peer is up. -/
  | absent (none : sender.transport.findPeer target = none) (same : next = sender) :
    Told sender target msg results next .notConnected
  /-- Nothing is queued: a write has failed and the peer is dropped. -/
  | lost {position : Nat} (found : sender.transport.findPeer target = some position)
    (offered : Offered sender next position [] 0)
    (dropped : next.transport = sender.transport.dropPeer position)
    (failed : WriteResult.failed ∈ results) :
    Told sender target msg results next .notConnected

theorem ready_of_findPeer {target : NodeId} (found : sender.transport.findPeer target = some position) :
    sender.stateAt position = some .ready := by
  obtain ⟨peer, there, up⟩ := Transport.getElem?_of_findPeer found
  exact stateAt_eq_some.mpr ⟨peer, there, up⟩

theorem Sound.exists_sock (sound : sender.Sound) (ready : sender.stateAt position = some .ready) :
    ∃ sock, sender.sockAt position = some sock := by
  obtain ⟨peer, there, up⟩ := stateAt_eq_some.mp ready
  obtain ⟨sock, onSocket⟩ := (sound.wired peer (List.mem_of_getElem? there)).exists_sock (by rw [up]; nofun)
  exact ⟨sock, sockAt_eq_some.mpr ⟨peer, there, onSocket⟩⟩

theorem Sound.send (sound : sender.Sound) {target : NodeId} {msg : Message} {next : Sender}
    {results rest : List WriteResult} {result : SendResult}
    (done : sender.send target msg results = some (next, rest, result)) :
    next.Sound ∧ Told sender target msg results next result := by
  unfold Sender.send at done
  cases found : sender.transport.findPeer target with
  | none =>
    rw [found] at done
    cases done
    exact ⟨sound, .absent found rfl⟩
  | some position =>
    rw [found] at done
    obtain ⟨⟨middle, left⟩, first, done⟩ := Option.bind_eq_some_iff.mp done
    have written := sound.handleWritable first
    have ready := ready_of_findPeer found
    dsimp only at done
    split_ifs at done with gone full
    · cases done
      rcases written.outcome with ⟨same, _⟩ | ⟨dropped, failed⟩
      · obtain ⟨sock, onSocket⟩ := sound.exists_sock ready
        unfold sockAt at gone onSocket
        rw [same, onSocket] at gone
        cases gone
      · exact ⟨written.sound, .lost found written.offered dropped failed⟩
    · cases done
      obtain ⟨same, _⟩ := written.same gone
      have found' : middle.refused.transport.findPeer target = some position :=
        (congrArg (·.findPeer target) same).trans found
      refine ⟨written.sound.setStats rfl rfl,
        .wouldOverflow found written.offered.refuse same ?_ ?_ (written.blocked gone full)⟩
      · unfold pendingBytes
        rw [found']
        exact of_decide_eq_true full
      · unfold isSaturated
        rw [found']
        exact full
    · obtain ⟨⟨next', rest'⟩, second, same⟩ := Option.map_eq_some_iff.mp done
      cases same
      obtain ⟨same, _⟩ := written.same gone
      have ready' : middle.stateAt position = some .ready := by
        unfold stateAt at ready ⊢
        rw [same, ready]
      obtain ⟨sound', offered⟩ := written.sound.accept ready' full second
      obtain ⟨sock, onSocket⟩ := sound.exists_sock ready
      exact ⟨sound', .ok found onSocket (written.offered.trans same offered)⟩

/-- Whether the peer at a position was up, and the message has been queued for it, once. -/
def queuedAt (sender next : Sender) (msg : Message) (position : Nat) : Bool :=
  sender.stateAt position = some .ready ∧
    (sender.sockAt position).any fun sock =>
      (next.outbox sock).queued = (sender.outbox sock).queued ++ [msg]

/-- **Why a peer that is up is passed over.** -/
inductive PassedOver (next : Sender) (position : Nat) (results : List WriteResult) : Prop
  /-- A write has failed and the peer is dropped. -/
  | lost (gone : next.sockAt position = none) (failed : WriteResult.failed ∈ results)
  /-- The socket does not take enough of what there is. -/
  | wouldOverflow (full : next.overHighWaterMark position = true)
    (blocked : WriteResult.wouldBlock ∈ results ∨ next.highWaterMark = 0)

/-- **What a broadcast has done** at some of the peers: each of those that are up has the message once, or is
passed over and counted as a refusal. -/
structure Spread (sender next : Sender) (msg : Message) (positions : List Nat) (results : List WriteResult)
    (reached : Nat) : Prop where
  queued : ∀ sock, (next.outbox sock).queued = (sender.outbox sock).queued ∨
    (next.outbox sock).queued = (sender.outbox sock).queued ++ [msg] ∧ ∃ position ∈ positions,
      sender.stateAt position = some .ready ∧ sender.sockAt position = some sock
  /-- The number it returns is that of the peers that have the message. -/
  got : reached = positions.countP (sender.queuedAt next msg)
  passedOver : ∀ position ∈ positions, sender.stateAt position = some .ready →
    sender.queuedAt next msg position = true ∨ PassedOver next position results
  untouched : ∀ sock, (∀ position ∈ positions, sender.sockAt position ≠ some sock) →
    next.outbox sock = sender.outbox sock
  elsewhere : ∀ position, position ∉ positions →
    next.transport.peers[position]? = sender.transport.peers[position]?
  highWaterMark : next.highWaterMark = sender.highWaterMark
  messagesSent : next.stats.messagesSent = sender.stats.messagesSent + reached
  counted : next.stats.sendsRefusedOverflow + reached = sender.stats.sendsRefusedOverflow +
    positions.countP fun position => sender.stateAt position = some .ready

theorem Sound.sockAt_inj (sound : sender.Sound) {other : Nat} (here : sender.sockAt position = some sock)
    (there : sender.sockAt other = some sock) : position = other := by
  obtain ⟨peer, found, taken⟩ := sockAt_eq_some.mp here
  obtain ⟨peer', found', taken'⟩ := sockAt_eq_some.mp there
  exact position_unique (sound.oneSocket sock) found (decide_eq_true taken) found' (decide_eq_true taken')

/-- Why a peer is passed over does not change, while nothing happens to it. -/
theorem PassedOver.congr {middle next : Sender} {results left : List WriteResult}
    (passed : PassedOver middle position left) (within : left ⊆ results)
    (socket : next.sockAt position = middle.sockAt position)
    (outbox : ∀ sock, middle.sockAt position = some sock → next.outbox sock = middle.outbox sock)
    (mark : next.highWaterMark = middle.highWaterMark) : PassedOver next position results := by
  cases passed with
  | lost gone failed => exact .lost (socket.trans gone) (within failed)
  | wouldOverflow full blocked =>
    refine .wouldOverflow ?_ (blocked.imp (fun member => within member) mark.trans)
    have writer : next.writerAt position = middle.writerAt position := by
      unfold writerAt
      rw [socket]
      split
      · rfl
      · next sock found => rw [outbox sock found]
    unfold overHighWaterMark at full ⊢
    rw [writer, mark]
    exact full

/-- What has been queued for a peer is the same, seen from a state before which nothing happened to it. -/
theorem queuedAt_congr {middle next : Sender} {msg : Message}
    (state : middle.stateAt position = sender.stateAt position)
    (socket : middle.sockAt position = sender.sockAt position)
    (outbox : ∀ sock, sender.sockAt position = some sock → middle.outbox sock = sender.outbox sock) :
    sender.queuedAt next msg position = middle.queuedAt next msg position := by
  unfold queuedAt
  rw [state, socket]
  cases found : sender.sockAt position with
  | none => rfl
  | some sock =>
    refine decide_eq_decide.mpr (and_congr_right fun _ => ?_)
    show decide _ = true ↔ decide _ = true
    rw [outbox sock found]

/-- The message has been queued for a peer if it was accepted there, and its connection was then left alone. -/
theorem Offered.queuedAt {middle next : Sender} {msg : Message} {accepted : List Message} {refusals : Nat}
    (offered : Offered sender middle position accepted refusals) (sound : sender.Sound)
    (ready : sender.stateAt position = some .ready)
    (after : ∀ sock, sender.sockAt position = some sock → next.outbox sock = middle.outbox sock) :
    sender.queuedAt next msg position = decide (accepted = [msg]) := by
  obtain ⟨sock, found⟩ := sound.exists_sock ready
  have grown := offered.queued sock
  rw [if_pos found, ← after sock found] at grown
  unfold Sender.queuedAt
  rw [found]
  refine decide_eq_decide.mpr ?_
  show _ ∧ decide _ = true ↔ _
  rw [decide_eq_true_iff, grown, List.append_cancel_left_eq, and_iff_right ready]

/-- What comes after an offer at a position that is not among those that follow. -/
theorem Spread.cons {middle next : Sender} {msg : Message} {positions : List Nat} {reached refusals : Nat}
    {accepted : List Message} {results left : List WriteResult} (sound : sender.Sound) (sound' : middle.Sound)
    (ready : sender.stateAt position = some .ready)
    (offered : Offered sender middle position accepted refusals)
    (one : accepted = [] ∧ refusals = 1 ∧ PassedOver middle position results ∨
      accepted = [msg] ∧ refusals = 0)
    (apart : position ∉ positions) (within : left ⊆ results)
    (spread : Spread middle next msg positions left reached) :
    Spread sender next msg (position :: positions) results (accepted.length + reached) := by
  have peers : ∀ other ∈ positions,
      middle.transport.peers[other]? = sender.transport.peers[other]? := fun other member =>
    offered.getElem?_of_ne fun same => apart (same ▸ member)
  have states : ∀ other ∈ positions, middle.stateAt other = sender.stateAt other := fun other member =>
    stateAt_congr (peers other member)
  have sockets : ∀ other ∈ positions, middle.sockAt other = sender.sockAt other := fun other member =>
    sockAt_congr (peers other member)
  -- No two peers are on one socket, so that what is done at one position leaves the others alone.
  have after : ∀ sock, sender.sockAt position = some sock → next.outbox sock = middle.outbox sock := by
    intro sock here
    refine spread.untouched sock fun other member there => apart ?_
    exact sound.sockAt_inj here ((sockets other member).symm.trans there) ▸ member
  have before : ∀ other ∈ positions, ∀ sock, sender.sockAt other = some sock →
      middle.outbox sock = sender.outbox sock := by
    intro other member sock there
    exact offered.untouched sock fun here => apart (sound.sockAt_inj here there ▸ member)
  have later : ∀ other ∈ positions,
      sender.queuedAt next msg other = middle.queuedAt next msg other := fun other member =>
    queuedAt_congr (states other member) (sockets other member) (before other member)
  have now : sender.queuedAt next msg position = decide (accepted = [msg]) :=
    offered.queuedAt sound ready after
  refine ⟨fun sock => ?_, ?_, ?_, ?_, ?_, ?_, ?_, ?_⟩
  · have grown := offered.queued sock
    rcases spread.queued sock with same | ⟨again, other, member, up, onSocket⟩
    · rw [same, grown]
      split
      · next here =>
        rcases one with ⟨rfl, _⟩ | ⟨rfl, _⟩
        · exact Or.inl (List.append_nil _)
        · exact Or.inr ⟨rfl, position, List.mem_cons_self, ready, here⟩
      · exact Or.inl (List.append_nil _)
    · rw [states other member] at up
      rw [sockets other member] at onSocket
      rw [again, before other member sock onSocket]
      exact Or.inr ⟨rfl, other, List.mem_cons_of_mem _ member, up, onSocket⟩
  · have same : positions.countP (middle.queuedAt next msg) = positions.countP (sender.queuedAt next msg) :=
      List.countP_congr fun other member => by rw [later other member]
    rw [List.countP_cons, now, spread.got, same, Nat.add_comm]
    rcases one with ⟨rfl, _⟩ | ⟨rfl, _⟩
    · rfl
    · rw [decide_eq_true rfl]
      rfl
  · intro other member up
    rcases List.mem_cons.mp member with rfl | member
    · rcases one with ⟨rfl, _, passed⟩ | ⟨rfl, _⟩
      · refine Or.inr (passed.congr (List.Subset.refl _) (sockAt_congr (spread.elsewhere _ apart)) ?_
          spread.highWaterMark)
        intro sock there
        refine spread.untouched sock fun other' member' there' => apart ?_
        exact sound'.sockAt_inj there there' ▸ member'
      · exact Or.inl (now.trans (decide_eq_true rfl))
    · rw [later other member]
      refine (spread.passedOver other member ((states other member).trans up)).imp_right fun passed => ?_
      exact passed.congr within rfl (fun _ _ => rfl) rfl
  · intro sock none
    rw [spread.untouched sock fun other member => ?_, offered.untouched sock (none _ List.mem_cons_self)]
    rw [sockets other member]
    exact none other (List.mem_cons_of_mem _ member)
  · intro other absent
    rw [spread.elsewhere other (List.not_mem_of_not_mem_cons absent),
      offered.getElem?_of_ne (List.ne_of_not_mem_cons absent)]
  · exact spread.highWaterMark.trans offered.highWaterMark
  · rw [spread.messagesSent, offered.messagesSent, Nat.add_assoc]
  · have counts : positions.countP (fun other => middle.stateAt other = some .ready) =
        positions.countP fun other => sender.stateAt other = some .ready :=
      List.countP_congr fun other member => by rw [states other member]
    have counted := spread.counted
    rw [counts, offered.refused] at counted
    rw [List.countP_cons, if_pos (decide_eq_true ready)]
    rcases one with ⟨rfl, rfl, _⟩ | ⟨rfl, rfl⟩
    · simp only [List.length_nil]
      omega
    · simp only [List.length_singleton]
      omega

/-- A position at which no peer is up. -/
theorem Spread.skip {next : Sender} {msg : Message} {positions : List Nat} {reached : Nat}
    {results : List WriteResult} (down : sender.stateAt position ≠ some .ready)
    (spread : Spread sender next msg positions results reached) :
    Spread sender next msg (position :: positions) results reached where
  queued := fun sock => (spread.queued sock).imp_right fun ⟨grown, other, member, here⟩ =>
    ⟨grown, other, List.mem_cons_of_mem _ member, here⟩
  got := by
    have absent : sender.queuedAt next msg position = false := decide_eq_false fun here => down here.1
    rw [List.countP_cons, absent]
    exact spread.got
  passedOver := by
    intro other member up
    rcases List.mem_cons.mp member with rfl | member
    · exact absurd up down
    · exact spread.passedOver other member up
  untouched := fun sock none => spread.untouched sock fun other member =>
    none other (List.mem_cons_of_mem _ member)
  elsewhere := fun other absent => spread.elsewhere other fun member =>
    absent (List.mem_cons_of_mem _ member)
  highWaterMark := spread.highWaterMark
  messagesSent := spread.messagesSent
  counted := by
    rw [List.countP_cons, if_neg (by rw [decide_eq_true_iff]; exact down)]
    exact spread.counted

theorem Sound.broadcastTo (sound : sender.Sound) {msg : Message} {positions : List Nat}
    (nodup : positions.Nodup) {next : Sender} {results rest : List WriteResult} {reached : Nat}
    (done : broadcastTo msg positions sender results = some (next, rest, reached)) :
    next.Sound ∧ Spread sender next msg positions results reached := by
  induction positions generalizing sender results reached with
  | nil =>
    cases done
    exact ⟨sound, fun _ => Or.inl rfl, rfl, fun _ member => (List.not_mem_nil member).elim, fun _ _ => rfl,
      fun _ _ => rfl, rfl, rfl, rfl⟩
  | cons position positions ih =>
    obtain ⟨apart, nodup'⟩ := List.nodup_cons.mp nodup
    unfold Sender.broadcastTo at done
    split_ifs at done with down
    · exact (ih sound nodup' done).imp_right (Spread.skip down)
    · have ready := not_not.mp down
      obtain ⟨⟨middle, left⟩, first, done⟩ := Option.bind_eq_some_iff.mp done
      have written := sound.handleWritable first
      have within := handleWritable_left first
      dsimp only at done
      split_ifs at done with refusal
      · have refused : middle.refused.Sound := written.sound.setStats rfl rfl
        obtain ⟨sound', spread⟩ := ih refused nodup' done
        have passed : PassedOver middle.refused position results := by
          by_cases gone : middle.sockAt position = none
          · refine .lost gone (written.outcome.resolve_left fun ⟨same, _⟩ => ?_).2
            obtain ⟨sock, found⟩ := sound.exists_sock ready
            rw [sockAt_congr (congrArg (·.peers[position]?) same), found] at gone
            cases gone
          · exact .wouldOverflow (refusal.resolve_left gone)
              (written.blocked gone (refusal.resolve_left gone))
        have both := Spread.cons sound refused ready written.offered.refuse (Or.inl ⟨rfl, rfl, passed⟩) apart
          within spread
        rw [List.length_nil, Nat.zero_add] at both
        exact ⟨sound', both⟩
      · obtain ⟨gone, full⟩ := not_or.mp refusal
        obtain ⟨⟨queued, left'⟩, second, done⟩ := Option.bind_eq_some_iff.mp done
        obtain ⟨⟨next', rest', reached'⟩, third, same⟩ := Option.map_eq_some_iff.mp done
        cases same
        obtain ⟨same, _⟩ := written.same gone
        have ready' : middle.stateAt position = some .ready := by
          unfold stateAt at ready ⊢
          rw [same, ready]
        obtain ⟨sound', offered⟩ := written.sound.accept ready' full second
        obtain ⟨sound'', spread⟩ := ih sound' nodup' third
        have both := Spread.cons sound sound' ready (written.offered.trans same offered)
          (Or.inr ⟨rfl, rfl⟩) apart (List.Subset.trans (handleWritable_left second) within) spread
        rw [List.length_append, List.length_nil, Nat.zero_add, List.length_singleton, Nat.add_comm 1] at both
        exact ⟨sound'', both⟩

/-- The peers that are up, by position. -/
theorem countP_stateAt (sender : Sender) :
    (List.range sender.transport.peers.length).countP
        (fun position => sender.stateAt position = some .ready) =
      sender.transport.readyPeerCount := by
  unfold Transport.readyPeerCount stateAt
  generalize sender.transport.peers = peers
  induction peers with
  | nil => rfl
  | cons peer rest ih =>
    rw [List.length_cons, List.range_succ_eq_map, List.countP_cons, List.countP_cons, List.countP_map, ← ih]
    congr 1
    by_cases up : peer.state = .ready
    · simp [up]
    · simp [up]

theorem Sound.broadcast (sound : sender.Sound) {msg : Message} {next : Sender}
    {results rest : List WriteResult} {reached : Nat}
    (done : sender.broadcast msg results = some (next, rest, reached)) :
    next.Sound ∧ Spread sender next msg (List.range sender.transport.peers.length) results reached :=
  sound.broadcastTo List.nodup_range done

/-! ### Runs -/

theorem settled_eq_some {result : Option (Sender × List WriteResult)} {next : Sender} :
    settled result = some next ↔ result = some (next, []) := by
  constructor
  · intro same
    unfold settled at same
    split at same
    · cases same
      rfl
    · cases same
  · rintro rfl
    rfl

theorem Sound.accepted (sound : sender.Sound) :
    Sound ((sender.openSocket (sender.transport.acceptPending sender.opened)).sendHello
      sender.transport.peers.length) := by
  have found : (sender.openSocket (sender.transport.acceptPending sender.opened)).sockAt
      sender.transport.peers.length = some sender.opened := by
    have last : (sender.transport.acceptPending sender.opened).peers[sender.transport.peers.length]? =
        some { id := 0, outbound := false, state := .handshaking, sock := some sender.opened } :=
      List.getElem?_concat_length
    exact sockAt_eq_some.mpr ⟨_, last, rfl⟩
  unfold sendHello enqueue
  rw [found]
  have fresh := sound.fresh_socket (Nat.le_refl sender.opened)
  refine sound.openSocket.greet rfl (Nat.lt_succ_self _) (sound.unopened _ (Nat.le_refl _))
    (fun peer member => ?_) fun sock => ?_
  · rcases List.mem_append.mp member with old | new
    · exact Or.inr ⟨fresh peer old, old⟩
    · obtain rfl := List.mem_singleton.mp new
      exact Or.inl ⟨rfl, rfl⟩
  · show (sender.transport.peers ++ [_]).countP _ ≤ 1
    rw [List.countP_append]
    by_cases same : sender.opened = sock
    · subst same
      have none : sender.transport.peers.countP (fun peer => peer.sock = some sender.opened) = 0 :=
        List.countP_eq_zero.mpr fun peer member => decide_eq_true_iff.not.mpr (fresh peer member)
      rw [none, Nat.zero_add]
      exact List.countP_le_length
    · refine (Nat.le_of_eq ?_).trans (sound.oneSocket sock)
      simp [same]

theorem Sound.connected (sound : sender.Sound) (connecting : sender.stateAt position = some .connecting) :
    Sound (sendHello { sender with transport := sender.transport.connected position } position) := by
  obtain ⟨peer, there, state⟩ := stateAt_eq_some.mp connecting
  have wired := sound.wired peer (List.mem_of_getElem? there)
  obtain ⟨sock, onSocket⟩ := wired.exists_sock (by rw [state]; nofun)
  have found : sockAt { sender with transport := sender.transport.connected position } position =
      some sock := by
    refine sockAt_eq_some.mpr ⟨{ peer with state := .handshaking }, ?_, onSocket⟩
    show (sender.transport.peers.modify position _)[position]? = _
    rw [List.getElem?_modify_eq, there]
    rfl
  have oneSocket : ∀ sock, (sender.transport.connected position).peers.countP
      (fun peer => peer.sock = some sock) ≤ 1 :=
    sound.oneSocket_updatePeer there fun sock taken => Or.inl taken
  unfold sendHello enqueue
  rw [found]
  refine sound.greet rfl (wired.lt_opened onSocket) ((wired.nil_iff onSocket).mpr state) (fun peer' member => ?_)
    oneSocket
  by_cases here : peer'.sock = some sock
  · have changed := change_mem_modify (fun peer : Peer => { peer with state := .handshaking }) there
    have same := entry_unique (oneSocket sock) member (decide_eq_true here) changed (decide_eq_true onSocket)
    exact Or.inl ⟨here, by rw [same]⟩
  · rcases mem_modify _ there member with old | rfl
    · exact Or.inr ⟨here, old⟩
    · exact absurd onSocket here

/-- **Every step keeps the invariant.** -/
theorem Sound.step (sound : sender.Sound) {label : SendStep} {next : Sender}
    (enabled : sender.step label = some next) : next.Sound := by
  cases label with
  | addPeer id =>
    cases enabled
    exact sound.addPeer id
  | beginPoll =>
    cases enabled
    exact sound.setTransport rfl sound.wired sound.oneSocket
  | dial position opens =>
    obtain ⟨due, enabled⟩ := Option.ite_none_right_eq_some.mp enabled
    have dialled := sound.dial due opens
    cases opens <;> cases enabled <;> exact dialled
  | accept =>
    cases enabled
    exact sound.accepted
  | connected position fails results =>
    obtain ⟨connecting, enabled⟩ := Option.ite_none_right_eq_some.mp enabled
    cases fails with
    | true =>
      cases settled_eq_some.mp enabled
      exact sound.dropPeer position
    | false => exact ((sound.connected connecting).handleWritable (settled_eq_some.mp enabled)).sound
  | writable position results =>
    obtain ⟨_, enabled⟩ := Option.ite_none_left_eq_some.mp enabled
    exact (sound.handleWritable (settled_eq_some.mp enabled)).sound
  | receive position msg =>
    obtain ⟨up, enabled⟩ := Option.ite_none_right_eq_some.mp enabled
    cases enabled
    exact sound.receive up msg
  | drop position =>
    cases enabled
    exact sound.dropPeer position
  | retire =>
    cases enabled
    exact sound.retire
  | send target msg results =>
    obtain ⟨⟨sent, rest, result⟩, done, same⟩ := Option.map_eq_some_iff.mp (settled_eq_some.mp enabled)
    cases same
    exact (sound.send done).1
  | broadcast msg results =>
    obtain ⟨⟨sent, rest, reached⟩, done, same⟩ := Option.map_eq_some_iff.mp (settled_eq_some.mp enabled)
    cases same
    exact (sound.broadcast done).1
  | disconnectPeer id =>
    cases enabled
    unfold disconnectPeer
    split
    · exact sound
    · exact sound.dropPeer _
  | setHighWaterMark bytes =>
    cases enabled
    exact sound.setHighWaterMark bytes

/-- **What the send path is for.** Messages within the limits of the codec are read as they were queued. -/
structure Delivers (sender : Sender) : Prop where
  /-- Whatever part of the bytes arrives, the other end reads a front part of the messages. -/
  arrives : ∀ sock, (∀ msg ∈ (sender.outbox sock).queued.tail, msg.Fits) →
    ∀ front, front <+: (sender.outbox sock).taken →
      decoded front <+: (sender.outbox sock).queued ∧ (parseFrames front).2 = .ok
  /-- Once the socket has taken all that was queued, all of the messages are in it. -/
  complete : ∀ sock, (∀ msg ∈ (sender.outbox sock).queued.tail, msg.Fits) →
    (sender.outbox sock).writer.empty = true →
      decoded (sender.outbox sock).taken = (sender.outbox sock).queued
  greets : ∀ sock, ∀ first ∈ (sender.outbox sock).queued.head?, first = sender.transport.hello
  /-- The backlog is less than the mark and one frame. -/
  bounded : ∀ sock, ∀ last ∈ (sender.outbox sock).queued.getLast?,
    (sender.outbox sock).writer.size < (sender.outbox sock).mark + (encode last).length ∨
      (sender.outbox sock).queued = [last]
  bytesSent : sender.stats.bytesSent = ∑ sock ∈ Finset.range sender.opened, (sender.outbox sock).taken.length
  /-- All but the `Hello` of each connection. -/
  messagesSent : sender.stats.messagesSent =
    ∑ sock ∈ Finset.range sender.opened, (sender.outbox sock).queued.tail.length

theorem Sound.fits (sound : sender.Sound) (fits : ∀ msg ∈ (sender.outbox sock).queued.tail, msg.Fits) :
    ∀ msg ∈ (sender.outbox sock).queued, msg.Fits := by
  have greets := (sound.flows sock).greets
  intro msg member
  cases queued : (sender.outbox sock).queued with
  | nil =>
    rw [queued] at member
    cases member
  | cons first rest =>
    rw [queued] at member greets fits
    rcases List.mem_cons.mp member with rfl | later
    · rw [greets msg rfl]
      exact fits_hello sender.transport
    · exact fits msg later

theorem Sound.delivers (sound : sender.Sound) : sender.Delivers where
  arrives := by
    intro sock fits front part
    have inOrder := (sound.flows sock).inOrder
    have front' : front <+: (sender.outbox sock).queued.flatMap encode :=
      inOrder ▸ part.trans (List.prefix_append _ _)
    obtain ⟨decodes, good, _⟩ := decoded_front (sound.fits fits) front'
    exact ⟨decodes, good⟩
  complete := by
    intro sock fits drained
    have inOrder := (sound.flows sock).inOrder
    rw [(FrameWriter.empty_iff _).mp drained, List.append_nil] at inOrder
    have whole : (sender.outbox sock).taken <+: (sender.outbox sock).queued.flatMap encode := by
      rw [inOrder]
    obtain ⟨_, _, all⟩ := decoded_front (sound.fits fits) whole
    exact all inOrder
  greets := fun sock => (sound.flows sock).greets
  bounded := fun sock => (sound.flows sock).bounded
  bytesSent := sound.bytesSent
  messagesSent := sound.messagesSent

/-- What the results of `send` and `broadcast` say, whatever the writes give. -/
structure Tells (sender : Sender) : Prop where
  send : ∀ target msg results next result, sender.send target msg results = some (next, [], result) →
    Told sender target msg results next result
  broadcast : ∀ msg results next reached, sender.broadcast msg results = some (next, [], reached) →
    Spread sender next msg (List.range sender.transport.peers.length) results reached ∧
      next.stats.sendsRefusedOverflow + reached =
        sender.stats.sendsRefusedOverflow + sender.transport.readyPeerCount

theorem Sound.tells (sound : sender.Sound) : sender.Tells where
  send := fun _ _ _ _ _ done => (sound.send done).2
  broadcast := by
    intro msg results next reached done
    have spread := (sound.broadcast done).2
    exact ⟨spread, by rw [spread.counted, countP_stateAt]⟩

end Sender

/-- **The send path.** Whatever is dialled, accepted, received, sent, dropped and set, and whatever the writes
give. -/
theorem sendPath_delivers (selfId : NodeId) (listenPort : UInt16) (reconnectDelay : Int)
    (steps : List SendStep) :
    Always Sender.step Sender.Delivers (Sender.start selfId listenPort reconnectDelay) steps :=
  always_of_guarded Sender.Sound (fun sound _ enabled => sound.step enabled) (fun sound => sound.delivers)
    (Sender.sound_start selfId listenPort reconnectDelay) (guarded_true _ _)

end Sententia.Net
