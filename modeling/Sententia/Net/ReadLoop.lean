/-
**What is read before a close.** A call of `handleReadable` appends what it reads to the reader of its peer
and, as long as the reads fill the whole chunk, reads on. Only a short read or `WouldBlock` ends the loop so
that the frames are drained; a close drops the peer at once, with the bytes of the full reads before it.

* `FramedPeer.drainFrames_spec` — a drain that the peer outlives passes every message there is, and so does
  one that ends at a bad header.
* `FramedPeer.run_passed` — at a close, the messages in what was read up to the last drain have been passed.
* `FramedPeer.all_passed_iff` — so all have, exactly if the full reads after that drain completed none; and
  whatever the reads give, calls of `handleReadable` read it.
-/

import Mathlib.Data.List.DropRight
import Sententia.Net.FramingReference
import Sententia.Net.Transport

namespace Sententia.Net

open Library

/-- The size of the buffer of one read. -/
def kReadChunk : Nat := 16 * 1024

/-- What a read of a socket gives. -/
inductive ReadResult
  | ok (bytes : Buffer)
  | wouldBlock
  | closed
  | error

namespace ReadResult

def bytes : ReadResult → Buffer
  | .ok bytes => bytes
  | _ => []

/-- The read ends the loop so that the frames are drained. -/
def drains : ReadResult → Bool
  | .ok bytes => bytes.length < kReadChunk
  | .wouldBlock => true
  | _ => false

end ReadResult

/-- The bytes of some reads. -/
def bytesOf (results : List ReadResult) : Buffer := results.flatMap ReadResult.bytes

/-- The reads up to the last after which the frames are drained. -/
def drainedOf (results : List ReadResult) : List ReadResult := results.rdropWhile fun result => !result.drains

/-- The messages for `onMessage_`, which are all but `Hello`. -/
def isPlain : Message → Bool
  | .hello _ => false
  | _ => true

/-- The messages for `onMessage_` in the complete frames of a byte string, up to the first bad header. -/
def messagesIn (bytes : Buffer) : List Message :=
  (parseFrames bytes).1.filterMap fun frame => (decodeBody frame.type frame.payload).filter isPlain

/-- Why a peer is dropped. -/
inductive DropReason
  | closed
  | readError
  | framingError
  /-- A `Hello` that does not fit, or another message before it. -/
  | refused
  | writeFailed
deriving Repr, DecidableEq

/-- What the handlers do to the connections. A handler may send, and drops the peers to which the write
fails; the peers may depend on all calls so far. -/
abbrev Handlers := List (NodeId × Message) → List Nat

/-- A peer with its reader. The calls of `onMessage_`, and for a `Hello` of `onPeerUp_`, that were made for
it are kept, oldest first. -/
structure FramedPeer where
  transport : Transport
  position : Nat
  reader : FrameReader
  calls : List (NodeId × Message) := []
  /-- Of the last drop. -/
  why : Option DropReason := none

namespace FramedPeer

/-! ### Reading and draining -/

/-- The socket of the peer is valid. -/
def live (conn : FramedPeer) : Bool :=
  (conn.transport.peers[conn.position]?.bind (·.sock)).isSome

def id (conn : FramedPeer) : NodeId :=
  match conn.transport.peers[conn.position]? with
  | none => 0
  | some peer => peer.id

/-- The messages that `onMessage_` was called with. -/
def passed (conn : FramedPeer) : List Message := (conn.calls.map (·.2)).filter isPlain

def drop (conn : FramedPeer) (why : DropReason) : FramedPeer :=
  { conn with
    transport := conn.transport.dropPeer conn.position
    reader := FrameReader.fresh
    why := some why }

/-- A write to the peer at a position fails. -/
def writeFails (conn : FramedPeer) (position : Nat) : FramedPeer :=
  if position = conn.position then conn.drop .writeFailed
  else { conn with transport := conn.transport.dropPeer position }

/-- The handlers are called with a message. -/
def handle (handlers : Handlers) (conn : FramedPeer) (msg : Message) : FramedPeer :=
  let calls := conn.calls ++ [(conn.id, msg)]
  (handlers calls).foldl writeFails { conn with calls }

/-- The loop of `drainFrames`. It returns at a message for which `receive` drops the peer. Where a handler
drops it, the loop goes on with the reader that `dropPeer` has reset, and finds no frame. -/
def drainFrames (handlers : Handlers) : Nat → FramedPeer → FramedPeer
  | 0, conn => conn
  | fuel + 1, conn =>
    if conn.reader.failed then conn.drop .framingError
    else
      match conn.reader.next with
      | (reader, none) =>
        if reader.failed then drainFrames handlers fuel { conn with reader } else { conn with reader }
      | (reader, some frame) =>
        match decodeBody frame.type frame.payload with
        | none => drainFrames handlers fuel { conn with reader }
        | some msg =>
          let received := { conn with reader, transport := conn.transport.receive conn.position msg }
          if received.live then drainFrames handlers fuel (received.handle handlers msg)
          else { received with reader := FrameReader.fresh, why := some .refused }

/-- Every frame takes bytes, and two more rounds find a bad header and drop the peer for it. -/
def drain (handlers : Handlers) (conn : FramedPeer) : FramedPeer :=
  conn.drainFrames handlers (conn.reader.buffered + 2)

/-- `handleReadable`, with the results that its reads will have. It leaves those behind the one at which it
returns, and does not return if there is none. -/
def handleReadable (handlers : Handlers) (conn : FramedPeer) :
    List ReadResult → Option (FramedPeer × List ReadResult)
  | [] => none
  | .wouldBlock :: rest => some (conn.drain handlers, rest)
  | .closed :: rest => some (conn.drop .closed, rest)
  | .error :: rest => some (conn.drop .readError, rest)
  | .ok bytes :: rest =>
    let conn := { conn with reader := conn.reader.append bytes }
    if bytes.length < kReadChunk then some (conn.drain handlers, rest)
    else conn.handleReadable handlers rest

/-- A call of `handleReadable` with the results that it reads. `poll` calls it only on a valid socket. -/
def step (handlers : Handlers) (conn : FramedPeer) (results : List ReadResult) : Option FramedPeer :=
  if conn.live then
    match conn.handleReadable handlers results with
    | some (next, []) => some next
    | _ => none
  else none

/-- A peer as it is between two calls of `handleReadable`. Its reader is fresh when it is connected or
accepted, and what happens to the transport elsewhere leaves the reader alone. -/
inductive Reached (handlers : Handlers) : FramedPeer → Prop
  | opened {conn : FramedPeer} (fresh : conn.reader = FrameReader.fresh) : Reached handlers conn
  | readable {conn next : FramedPeer} {results : List ReadResult} (reached : Reached handlers conn)
    (enabled : conn.step handlers results = some next) : Reached handlers next
  | elsewhere {conn : FramedPeer} (transport : Transport) (position : Nat)
    (reached : Reached handlers conn) : Reached handlers { conn with transport, position }

/-! ### What a drain does -/

/-- The reader has not failed, and has no frame to yield. -/
structure Waits (reader : FrameReader) : Prop where
  ok : reader.status = .ok
  nothing : nextFrame reader.unread = none

/-- What follows the bytes, the messages passed and those unread are the same before and after. -/
def Reads (conn conn' : FramedPeer) (bytes : Buffer) : Prop :=
  ∀ more, conn'.passed ++ messagesIn (conn'.reader.unread ++ more) =
    conn.passed ++ messagesIn (conn.reader.unread ++ bytes ++ more)

variable {handlers : Handlers} {conn conn' : FramedPeer}

theorem messagesIn_of_none {bytes : Buffer} (nothing : nextFrame bytes = none) : messagesIn bytes = [] := by
  unfold messagesIn
  rw [parseFrames_of_none nothing]
  rfl

theorem messagesIn_of_frame {bytes rest : Buffer} {frame : Frame}
    (found : nextFrame bytes = some (frame, rest)) :
    messagesIn bytes =
      ((decodeBody frame.type frame.payload).filter isPlain).toList ++ messagesIn rest := by
  unfold messagesIn
  rw [parseFrames_of_frame found, List.filterMap_cons]
  cases (decodeBody frame.type frame.payload).filter isPlain with
  | none => rfl
  | some msg => rfl

theorem waits_fresh : Waits FrameReader.fresh := ⟨rfl, by decide⟩

theorem Waits.messagesIn {reader : FrameReader} (waits : Waits reader) : messagesIn reader.unread = [] :=
  messagesIn_of_none waits.nothing

theorem Reads.refl (conn : FramedPeer) : Reads conn conn [] := fun more => by rw [List.append_nil]

theorem Reads.trans {conn'' : FramedPeer} {first second : Buffer} (reads : Reads conn conn' first)
    (reads' : Reads conn' conn'' second) : Reads conn conn'' (first ++ second) := by
  intro more
  rw [reads' more, List.append_assoc, reads (second ++ more)]
  simp only [List.append_assoc]

/-! #### Drops -/

theorem live_drop (conn : FramedPeer) (why : DropReason) : (conn.drop why).live = false := by
  show ((conn.transport.peers.modify conn.position _)[conn.position]?.bind (·.sock)).isSome = false
  rw [List.getElem?_modify_eq]
  cases conn.transport.peers[conn.position]? with
  | none => rfl
  | some peer => rfl

/-- The peer has been dropped because a write failed. -/
structure Lost (conn : FramedPeer) : Prop where
  down : conn.live = false
  fresh : conn.reader = FrameReader.fresh
  why : conn.why = some .writeFailed

theorem lost_drop (conn : FramedPeer) : (conn.drop .writeFailed).Lost := ⟨live_drop conn _, rfl, rfl⟩

theorem writeFails_of_ne {position : Nat} (elsewhere : position ≠ conn.position) :
    conn.writeFails position = { conn with transport := conn.transport.dropPeer position } :=
  if_neg elsewhere

theorem live_writeFails_of_ne {position : Nat} (elsewhere : position ≠ conn.position) :
    (conn.writeFails position).live = conn.live := by
  rw [writeFails_of_ne elsewhere]
  show ((conn.transport.peers.modify position _)[conn.position]?.bind (·.sock)).isSome = conn.live
  rw [List.getElem?_modify_ne _ _ elsewhere]
  rfl

theorem Lost.writeFails (lost : conn.Lost) (position : Nat) : (conn.writeFails position).Lost := by
  by_cases here : position = conn.position
  · unfold FramedPeer.writeFails
    rw [if_pos here]
    exact lost_drop conn
  · refine ⟨(live_writeFails_of_ne here).trans lost.down, ?_, ?_⟩
    · rw [writeFails_of_ne here]
      exact lost.fresh
    · rw [writeFails_of_ne here]
      exact lost.why

theorem Lost.foldl (lost : conn.Lost) (positions : List Nat) :
    (positions.foldl FramedPeer.writeFails conn).Lost := by
  induction positions generalizing conn with
  | nil => exact lost
  | cons position rest ih => exact ih (lost.writeFails position)

/-- The writes that fail drop the peer, or leave it and its reader as they are. -/
theorem foldl_writeFails_cases (positions : List Nat) (conn : FramedPeer) :
    (positions.foldl writeFails conn).Lost ∨
      (positions.foldl writeFails conn).reader = conn.reader ∧
        (positions.foldl writeFails conn).live = conn.live := by
  induction positions generalizing conn with
  | nil => exact Or.inr ⟨rfl, rfl⟩
  | cons position rest ih =>
    by_cases here : position = conn.position
    · have dropped : conn.writeFails position = conn.drop .writeFailed := if_pos here
      rw [List.foldl_cons, dropped]
      exact Or.inl ((lost_drop conn).foldl rest)
    · refine (ih (conn.writeFails position)).imp_right fun ⟨sameReader, sameLive⟩ => ?_
      refine ⟨sameReader.trans ?_, sameLive.trans (live_writeFails_of_ne here)⟩
      rw [writeFails_of_ne here]

theorem handle_cases (handlers : Handlers) (conn : FramedPeer) (msg : Message) :
    (conn.handle handlers msg).Lost ∨
      (conn.handle handlers msg).reader = conn.reader ∧ (conn.handle handlers msg).live = conn.live :=
  foldl_writeFails_cases _ _

theorem calls_foldl_writeFails (positions : List Nat) (conn : FramedPeer) :
    (positions.foldl writeFails conn).calls = conn.calls := by
  induction positions generalizing conn with
  | nil => rfl
  | cons position rest ih =>
    have same : (conn.writeFails position).calls = conn.calls := by
      unfold writeFails
      split
      · rfl
      · rfl
    exact (ih _).trans same

theorem passed_handle (handlers : Handlers) (conn : FramedPeer) (msg : Message) :
    (conn.handle handlers msg).passed = conn.passed ++ ((some msg).filter isPlain).toList := by
  unfold passed handle
  rw [calls_foldl_writeFails, List.map_append, List.filter_append, List.map_singleton, List.filter_singleton,
    Option.filter_some]
  cases isPlain msg with
  | true => rfl
  | false => rfl

/-! #### The loop -/

/-- What a drain leaves: a peer that it did not drop has been passed all there was, and so has one dropped
for a bad header, whatever follows that header. -/
structure Drained (conn final : FramedPeer) (bytes : Buffer) : Prop where
  waits : Waits final.reader
  reads : final.live = true → Reads conn final bytes
  fails : final.live = false → final.why = some .framingError →
    ∀ more, final.passed = conn.passed ++ messagesIn (conn.reader.unread ++ bytes ++ more)

theorem Drained.after {final : FramedPeer} {first second : Buffer} (drained : Drained conn' final second)
    (reads : Reads conn conn' first) : Drained conn final (first ++ second) where
  waits := drained.waits
  reads := fun live => reads.trans (drained.reads live)
  fails := fun down why more => by
    rw [drained.fails down why more, List.append_assoc, reads (second ++ more)]
    simp only [List.append_assoc]

/-- A peer that is dropped for another reason. -/
theorem drained_of_down {final : FramedPeer} {why : DropReason} (down : final.live = false)
    (fresh : final.reader = FrameReader.fresh) (reason : final.why = some why) (other : why ≠ .framingError)
    (bytes : Buffer) : Drained conn final bytes where
  waits := by
    rw [fresh]
    exact waits_fresh
  reads := fun live => absurd (down.symm.trans live) Bool.false_ne_true
  fails := fun _ framing => absurd (Option.some.inj (reason.symm.trans framing)) other

theorem drainFrames_of_fresh (handlers : Handlers) (fuel : Nat) (fresh : conn.reader = FrameReader.fresh) :
    conn.drainFrames handlers fuel = conn := by
  cases fuel with
  | zero => rfl
  | succ fuel =>
    have few : FrameReader.fresh.buffered < kHeaderSize := by decide
    unfold drainFrames
    rw [fresh, FrameReader.next_of_few few]
    show (if false = true then _ else if false = true then _
      else { conn with reader := FrameReader.fresh }) = _
    rw [if_neg Bool.false_ne_true, if_neg Bool.false_ne_true, ← fresh]

theorem drainFrames_of_failed (handlers : Handlers) (fuel : Nat) (bad : conn.reader.status ≠ .ok) :
    conn.drainFrames handlers (fuel + 1) = conn.drop .framingError := by
  unfold drainFrames
  exact if_pos (decide_eq_true bad)

/-- A frame whose message, if it is for `onMessage_`, is passed. -/
theorem reads_of_frame {frame : Frame}
    (found : nextFrame conn.reader.unread = some (frame, conn'.reader.unread))
    (passed : conn'.passed = conn.passed ++ ((decodeBody frame.type frame.payload).filter isPlain).toList) :
    Reads conn conn' [] := by
  intro more
  rw [List.append_nil, messagesIn_of_frame (nextFrame_append found more), passed, List.append_assoc]

/-- **A drain.** The fuel is enough if there are two more of it than there are bytes. -/
theorem drainFrames_spec {fuel : Nat} (enough : conn.reader.buffered + 2 ≤ fuel)
    (ok : conn.reader.status = .ok) (live : conn.live = true) :
    Drained conn (conn.drainFrames handlers fuel) [] := by
  induction fuel generalizing conn with
  | zero => omega
  | succ fuel ih =>
    unfold drainFrames
    rw [FrameReader.failed_eq_false ok, if_neg Bool.false_ne_true]
    rcases FrameReader.next_cases ok with ⟨frame, reader, found, yields, ok'⟩ | ⟨nothing, waits⟩
    · have less := FrameReader.buffered_next yields
      -- what the loop does from a connection that has taken the frame
      have goesOn (conn' : FramedPeer) (same : conn'.reader = reader) (live' : conn'.live = true)
          (passed : conn'.passed =
            conn.passed ++ ((decodeBody frame.type frame.payload).filter isPlain).toList) :
          Drained conn (conn'.drainFrames handlers fuel) [] := by
        subst same
        have enough' : conn'.reader.buffered + 2 ≤ fuel := by omega
        exact (ih enough' ok' live').after (reads_of_frame found passed)
      rw [yields]
      dsimp only
      cases decoded : decodeBody frame.type frame.payload with
      | none =>
        refine goesOn { conn with reader } rfl live ?_
        rw [decoded]
        exact (List.append_nil _).symm
      | some msg =>
        dsimp only
        generalize heard :
          { conn with reader, transport := conn.transport.receive conn.position msg } = received
        by_cases accepted : received.live = true
        · rw [if_pos accepted]
          rcases handle_cases handlers received msg with lost | ⟨sameReader, sameLive⟩
          · rw [drainFrames_of_fresh handlers fuel lost.fresh]
            exact drained_of_down lost.down lost.fresh lost.why (by decide) []
          · refine goesOn _ (sameReader.trans ?_) (sameLive.trans accepted) ?_
            · rw [← heard]
            · rw [passed_handle, decoded, ← heard]
              rfl
        · rw [if_neg accepted]
          subst heard
          refine drained_of_down ?_ rfl rfl (by decide) []
          exact Bool.eq_false_iff.mpr accepted
    · rw [waits]
      dsimp only
      by_cases good : faultOf conn.reader.unread = .ok
      · have same : { conn.reader with status := faultOf conn.reader.unread } = conn.reader := by
          rw [good, ← ok]
        rw [same, FrameReader.failed_eq_false ok, if_neg Bool.false_ne_true]
        refine ⟨⟨ok, nothing⟩, fun _ => Reads.refl conn, fun down => ?_⟩
        exact absurd (down.symm.trans live) Bool.false_ne_true
      · obtain ⟨fuel, rfl⟩ : ∃ fuel', fuel = fuel' + 1 := ⟨fuel - 1, by omega⟩
        generalize fails : { conn.reader with status := faultOf conn.reader.unread } = reader
        have bad : reader.status ≠ .ok := by
          rw [← fails]
          exact good
        have failed : reader.failed = true := decide_eq_true bad
        have dropped : drainFrames handlers (fuel + 1) { conn with reader } =
            { conn with reader }.drop .framingError := drainFrames_of_failed handlers fuel bad
        rw [if_pos failed, dropped]
        have down : (FramedPeer.drop { conn with reader } .framingError).live = false := live_drop _ _
        refine ⟨waits_fresh, fun live' => absurd (down.symm.trans live') nofun, fun _ _ more => ?_⟩
        -- behind a bad header there is nothing, whatever follows
        have none : messagesIn (conn.reader.unread ++ more) = [] :=
          messagesIn_of_none (nextFrame_of_fault (by rw [faultOf_append good]; exact good))
        rw [List.append_nil, none, List.append_nil]
        rfl

/-! ### What a call does -/

theorem drain_spec (handlers : Handlers) (ok : conn.reader.status = .ok) (live : conn.live = true) :
    Drained conn (conn.drain handlers) [] :=
  drainFrames_spec (Nat.le_refl _) ok live

theorem reads_append (ok : conn.reader.status = .ok) (bytes : Buffer) :
    Reads conn { conn with reader := conn.reader.append bytes } bytes := by
  intro more
  rw [← FrameReader.unread_append ok]
  rfl

/-- What a call does at the read with which it returns. -/
def finish (handlers : Handlers) (conn : FramedPeer) : ReadResult → FramedPeer
  | .ok bytes => { conn with reader := conn.reader.append bytes }.drain handlers
  | .wouldBlock => conn.drain handlers
  | .closed => conn.drop .closed
  | .error => conn.drop .readError

theorem finish_spec (handlers : Handlers) (ok : conn.reader.status = .ok) (live : conn.live = true)
    (last : ReadResult) : Drained conn (finish handlers conn last) last.bytes := by
  cases last with
  | ok bytes =>
    have appended : Drained { conn with reader := conn.reader.append bytes } _ [] :=
      drain_spec handlers ((FrameReader.status_append _ _).trans ok) live
    have drained := appended.after (reads_append ok bytes)
    rw [List.append_nil] at drained
    exact drained
  | wouldBlock => exact drain_spec handlers ok live
  | closed => exact drained_of_down (live_drop conn .closed) rfl rfl (by decide) []
  | error => exact drained_of_down (live_drop conn .readError) rfl rfl (by decide) []

/-- A call gets chunks into its reader that it does not drain, and returns at a read. -/
structure Call (handlers : Handlers) (conn conn' : FramedPeer) (chunks : List ReadResult)
    (last : ReadResult) : Prop where
  full : ∀ result ∈ chunks, result.drains = false
  returns : last.drains = true ∨ last = .closed ∨ last = .error
  ends : ∃ reader : FrameReader, reader.status = .ok ∧
    reader.unread = conn.reader.unread ++ bytesOf chunks ∧ conn' = finish handlers { conn with reader } last

theorem Call.here {last : ReadResult} (ok : conn.reader.status = .ok)
    (returns : last.drains = true ∨ last = .closed ∨ last = .error)
    (same : conn' = finish handlers conn last) : Call handlers conn conn' [] last where
  full := nofun
  returns := returns
  ends := ⟨conn.reader, ok, (List.append_nil _).symm, same⟩

theorem Call.chunk {chunks : List ReadResult} {last : ReadResult} {bytes : Buffer}
    (ok : conn.reader.status = .ok) (full : ReadResult.drains (.ok bytes) = false)
    (call : Call handlers { conn with reader := conn.reader.append bytes } conn' chunks last) :
    Call handlers conn conn' (.ok bytes :: chunks) last where
  full := List.forall_mem_cons.mpr ⟨full, call.full⟩
  returns := call.returns
  ends := by
    obtain ⟨reader, ok', unread, same⟩ := call.ends
    refine ⟨reader, ok', ?_, same⟩
    rw [unread, FrameReader.unread_append ok, List.append_assoc]
    rfl

theorem call_of_handleReadable {results rest : List ReadResult} (ok : conn.reader.status = .ok)
    (returns : conn.handleReadable handlers results = some (conn', rest)) :
    ∃ chunks last, results = chunks ++ last :: rest ∧ Call handlers conn conn' chunks last := by
  induction results generalizing conn with
  | nil => cases returns
  | cons result results ih =>
    cases result with
    | wouldBlock =>
      cases returns
      exact ⟨[], .wouldBlock, rfl, Call.here ok (Or.inl rfl) rfl⟩
    | closed =>
      cases returns
      exact ⟨[], .closed, rfl, Call.here ok (Or.inr (Or.inl rfl)) rfl⟩
    | error =>
      cases returns
      exact ⟨[], .error, rfl, Call.here ok (Or.inr (Or.inr rfl)) rfl⟩
    | ok bytes =>
      unfold handleReadable at returns
      dsimp only at returns
      by_cases short : bytes.length < kReadChunk
      · rw [if_pos short] at returns
        cases returns
        exact ⟨[], .ok bytes, rfl, Call.here ok (Or.inl (decide_eq_true short)) rfl⟩
      · rw [if_neg short] at returns
        obtain ⟨chunks, last, rfl, call⟩ := ih ((FrameReader.status_append _ _).trans ok) returns
        exact ⟨.ok bytes :: chunks, last, rfl, call.chunk ok (decide_eq_false short)⟩

theorem bytesOf_append (first second : List ReadResult) :
    bytesOf (first ++ second) = bytesOf first ++ bytesOf second := List.flatMap_append

/-- **A call** drains the bytes of all its reads, if it drains. -/
theorem Call.spec {chunks : List ReadResult} {last : ReadResult}
    (call : Call handlers conn conn' chunks last) (live : conn.live = true) :
    Drained conn conn' (bytesOf (chunks ++ [last])) := by
  obtain ⟨reader, ok, unread, rfl⟩ := call.ends
  have chunksRead : Reads conn { conn with reader } (bytesOf chunks) := fun more => by rw [← unread]; rfl
  have lastBytes : bytesOf [last] = last.bytes := List.append_nil _
  have live' : FramedPeer.live { conn with reader } = true := live
  rw [bytesOf_append, lastBytes]
  exact (finish_spec handlers ok live' last).after chunksRead

/-- A close passes nothing, and drops the peer for that reason. -/
theorem Call.closed {chunks : List ReadResult} (call : Call handlers conn conn' chunks .closed) :
    conn'.passed = conn.passed ∧ conn'.live = false ∧ conn'.why = some .closed := by
  obtain ⟨reader, _, _, rfl⟩ := call.ends
  exact ⟨rfl, live_drop _ _, rfl⟩

theorem Call.error {chunks : List ReadResult} (call : Call handlers conn conn' chunks .error) :
    conn'.live = false ∧ conn'.why = some .readError := by
  obtain ⟨reader, _, _, rfl⟩ := call.ends
  exact ⟨live_drop _ _, rfl⟩

/-- A call that the peer outlives, or that finds a bad header, has drained. -/
theorem Call.drains {chunks : List ReadResult} {last : ReadResult}
    (call : Call handlers conn conn' chunks last)
    (drained : conn'.live = true ∨ conn'.why = some .framingError) : last.drains = true := by
  rcases call.returns with drains | rfl | rfl
  · exact drains
  · obtain ⟨_, down, why⟩ := call.closed
    rw [down, why] at drained
    exact absurd drained (by decide)
  · obtain ⟨down, why⟩ := call.error
    rw [down, why] at drained
    exact absurd drained (by decide)

theorem step_eq_some {results : List ReadResult} (enabled : conn.step handlers results = some conn') :
    conn.live = true ∧ conn.handleReadable handlers results = some (conn', []) := by
  unfold step at enabled
  split at enabled
  · next live =>
    split at enabled
    · next next same =>
      cases enabled
      exact ⟨live, same⟩
    · cases enabled
  · cases enabled

theorem call_of_step {results : List ReadResult} (waits : Waits conn.reader)
    (enabled : conn.step handlers results = some conn') :
    ∃ chunks last, results = chunks ++ [last] ∧ Call handlers conn conn' chunks last ∧
      Drained conn conn' (bytesOf results) := by
  obtain ⟨live, returns⟩ := step_eq_some enabled
  obtain ⟨chunks, last, rfl, call⟩ := call_of_handleReadable waits.ok returns
  exact ⟨chunks, last, rfl, call, call.spec live⟩

/-- **Between two calls the reader waits.** -/
theorem Reached.waits (reached : Reached handlers conn) : Waits conn.reader := by
  induction reached with
  | opened fresh =>
    rw [fresh]
    exact waits_fresh
  | readable _ enabled ih =>
    obtain ⟨_, _, _, _, drained⟩ := call_of_step ih enabled
    exact drained.waits
  | elsewhere _ _ _ ih => exact ih

/-! ### Every sequence of reads is a run -/

theorem exists_call (handlers : Handlers) (conn : FramedPeer) {results : List ReadResult}
    (closes : .closed ∈ results) :
    ∃ front rest conn', results = front ++ rest ∧ rest.length < results.length ∧
      conn.handleReadable handlers front = some (conn', []) ∧ (conn'.live = true → .closed ∈ rest) := by
  induction results generalizing conn with
  | nil => cases closes
  | cons result rest ih =>
    have shorter : rest.length < (result :: rest).length := Nat.lt_succ_self _
    cases result with
    | wouldBlock =>
      have later := (List.mem_cons.mp closes).resolve_left nofun
      exact ⟨[.wouldBlock], rest, _, rfl, shorter, rfl, fun _ => later⟩
    | closed =>
      refine ⟨[.closed], rest, _, rfl, shorter, rfl, fun live => ?_⟩
      exact absurd ((live_drop conn .closed).symm.trans live) Bool.false_ne_true
    | error =>
      refine ⟨[.error], rest, _, rfl, shorter, rfl, fun live => ?_⟩
      exact absurd ((live_drop conn .readError).symm.trans live) Bool.false_ne_true
    | ok bytes =>
      have later := (List.mem_cons.mp closes).resolve_left nofun
      by_cases short : bytes.length < kReadChunk
      · have returns : conn.handleReadable handlers [.ok bytes] =
            some ({ conn with reader := conn.reader.append bytes }.drain handlers, []) := by
          unfold handleReadable
          exact if_pos short
        exact ⟨[.ok bytes], rest, _, rfl, shorter, returns, fun _ => later⟩
      · obtain ⟨front, rest', conn', rfl, shorter', returns, closes'⟩ :=
          ih { conn with reader := conn.reader.append bytes } later
        refine ⟨.ok bytes :: front, rest', conn', rfl, Nat.lt_succ_of_lt shorter', ?_, closes'⟩
        unfold handleReadable
        exact (if_neg short).trans returns

/-- **Every sequence of reads with a close is read**, call by call, until the peer is dropped. -/
theorem exists_run (handlers : Handlers) {results : List ReadResult} (live : conn.live = true)
    (closes : .closed ∈ results) :
    ∃ calls final, run (step handlers) conn calls = some final ∧ calls.flatten <+: results ∧
      final.live = false := by
  induction length : results.length using Nat.strongRecOn generalizing conn results with
  | _ length ih =>
    subst length
    obtain ⟨front, rest, next, rfl, shorter, returns, closes'⟩ := exists_call handlers conn closes
    have enabled : conn.step handlers front = some next := by
      unfold step
      rw [if_pos live, returns]
    by_cases live' : next.live = true
    · obtain ⟨calls, final, ran, read, down⟩ := ih _ shorter live' (closes' live') rfl
      refine ⟨front :: calls, final, Option.bind_eq_some_iff.mpr ⟨next, enabled, ran⟩, ?_, down⟩
      rw [List.flatten_cons]
      exact (List.prefix_append_right_inj front).mpr read
    · have ran : run (step handlers) conn [front] = some next :=
        Option.bind_eq_some_iff.mpr ⟨next, enabled, rfl⟩
      refine ⟨[front], next, ran, ?_, Bool.eq_false_iff.mpr live'⟩
      rw [List.flatten_singleton]
      exact List.prefix_append front rest

/-! ### What has been passed at the end -/

/-- Where one of the reads drains, the reads up to the last that does go at least up to it. -/
theorem drainedOf_append (chunks : List ReadResult) {last : ReadResult} (drains : last.drains = true)
    (later : List ReadResult) :
    drainedOf (chunks ++ [last] ++ later) = chunks ++ [last] ++ drainedOf later := by
  unfold drainedOf
  induction later using List.reverseRecOn with
  | nil => simp [drains]
  | append_singleton later result ih =>
    rw [← List.append_assoc, List.rdropWhile_concat, List.rdropWhile_concat, ih]
    split
    · rfl
    · rw [List.append_assoc _ later]

/-- Reads of which none drains. -/
theorem drainedOf_eq_nil {results : List ReadResult} (none : ∀ result ∈ results, result.drains = false) :
    drainedOf results = [] := by
  refine List.rdropWhile_eq_nil_iff.mpr fun result member => ?_
  rw [none result member]
  rfl

/-- The reads end with a close, or with a bad header that is found before it. -/
def Ends (final : FramedPeer) (results : List ReadResult) : Prop :=
  results.getLast? = some .closed ∨ final.live = false ∧ final.why = some .framingError

/-- What the last call has passed. -/
theorem Call.passed_of_ends {chunks : List ReadResult} {last : ReadResult}
    (call : Call handlers conn conn' chunks last) (waits : Waits conn.reader)
    (drained : Drained conn conn' (bytesOf (chunks ++ [last]))) (ends : conn'.Ends (chunks ++ [last])) :
    conn'.passed = conn.passed ++
      messagesIn (conn.reader.unread ++ bytesOf (drainedOf (chunks ++ [last]))) := by
  rcases ends with isClosed | ⟨down, why⟩
  · rw [List.getLast?_concat] at isClosed
    cases isClosed
    have none : drainedOf (chunks ++ [.closed]) = [] :=
      drainedOf_eq_nil (List.forall_mem_append.mpr ⟨call.full, List.forall_mem_singleton.mpr rfl⟩)
    rw [none, call.closed.1]
    show _ = _ ++ messagesIn (conn.reader.unread ++ [])
    rw [List.append_nil, waits.messagesIn, List.append_nil]
  · have all := drainedOf_append chunks (call.drains (Or.inr why)) []
    rw [List.append_nil] at all
    have passed := drained.fails down why []
    rw [List.append_nil] at passed
    rw [all, passed]
    show _ = _ ++ messagesIn (_ ++ bytesOf (_ ++ []))
    rw [List.append_nil]

/-- **What has been passed at the end** are the messages in what was read up to the last drain. -/
theorem run_passed {final : FramedPeer} {calls : List (List ReadResult)} (waits : Waits conn.reader)
    (ran : run (step handlers) conn calls = some final) (ends : final.Ends calls.flatten)
    (notEmpty : calls ≠ []) :
    final.passed = conn.passed ++
      messagesIn (conn.reader.unread ++ bytesOf (drainedOf calls.flatten)) := by
  induction calls generalizing conn with
  | nil => exact absurd rfl notEmpty
  | cons results rest ih =>
    obtain ⟨next, enabled, ran'⟩ := run_cons ran
    obtain ⟨chunks, last, rfl, call, drained⟩ := call_of_step waits enabled
    rw [List.flatten_cons] at ends ⊢
    cases rest with
    | nil =>
      cases ran'
      rw [List.flatten_nil, List.append_nil] at ends ⊢
      exact call.passed_of_ends waits drained ends
    | cons results' rest' =>
      obtain ⟨_, enabled', _⟩ := run_cons ran'
      have live := (step_eq_some enabled').1
      obtain ⟨chunks', last', rfl, _⟩ := call_of_step drained.waits enabled'
      have ends' : final.Ends ((chunks' ++ [last']) :: rest').flatten := by
        refine ends.imp_left (Eq.trans ?_)
        refine (List.getLast?_append_of_ne_nil _ ?_).symm
        rw [List.flatten_cons]
        simp
      rw [ih drained.waits ran' ends' (List.cons_ne_nil _ _), drained.reads live,
        drainedOf_append chunks (call.drains (Or.inl live)), bytesOf_append (chunks ++ [last]),
        List.append_assoc]

theorem ne_nil_of_ends {final : FramedPeer} {calls : List (List ReadResult)} (live : conn.live = true)
    (ran : run (step handlers) conn calls = some final) (ends : final.Ends calls.flatten) : calls ≠ [] := by
  rintro rfl
  cases ran
  rcases ends with isClosed | ⟨down, _⟩
  · cases isClosed
  · exact absurd (down.symm.trans live) Bool.false_ne_true

/-- **Is everything passed before a close?** Reads with a close are read, call by call, until the peer is
dropped. When they end, `onMessage_` has been called with all messages in the bytes received, exactly if the
full chunks behind the last drain complete none of them. -/
theorem all_passed_iff (reached : Reached handlers conn) (live : conn.live = true) :
    (∀ results : List ReadResult, .closed ∈ results →
      ∃ calls final, run (step handlers) conn calls = some final ∧ calls.flatten <+: results ∧
        final.live = false) ∧
      ∀ (calls : List (List ReadResult)) (final : FramedPeer), run (step handlers) conn calls = some final →
        final.Ends calls.flatten →
          (final.passed = conn.passed ++ messagesIn (conn.reader.unread ++ bytesOf calls.flatten) ↔
            messagesIn (conn.reader.unread ++ bytesOf calls.flatten) =
              messagesIn (conn.reader.unread ++ bytesOf (drainedOf calls.flatten))) := by
  refine ⟨fun results closes => exists_run handlers live closes, fun calls final ran ends => ?_⟩
  rw [run_passed reached.waits ran ends (ne_nil_of_ends live ran ends), List.append_cancel_left_eq]
  exact eq_comm

/-- A peer that is up and has read nothing yet. -/
def upPeer : FramedPeer where
  transport :=
    { selfId := 1
      listenPort := 7001
      peers := [{ id := 2, outbound := true, state := .ready, sock := some 0 }] }
  position := 0
  reader := FrameReader.fresh

/-- What it is sent. -/
def beat : Message := .heartbeat ⟨2, 1⟩

/-- A heartbeat in a short read, then the close. -/
theorem all_passed_iff_beat :
    ∃ final, run (step fun _ => []) upPeer [[.ok (encode beat)], [.closed]] = some final ∧
      final.passed = [beat] := by
  obtain ⟨final, ran⟩ := Option.isSome_iff_exists.mp
    (show (run (step fun _ => []) upPeer [[.ok (encode beat)], [.closed]]).isSome = true by decide)
  refine ⟨final, ran, ?_⟩
  rw [((all_passed_iff (.opened rfl) rfl).2 _ _ ran (Or.inl rfl)).mpr (by decide)]
  decide

/-- A full chunk, then the close: nothing is passed. -/
theorem step_full_close (handlers : Handlers) {bytes : Buffer} (live : conn.live = true)
    (full : kReadChunk ≤ bytes.length) :
    ∃ final, conn.step handlers [.ok bytes, .closed] = some final ∧ final.passed = conn.passed := by
  refine ⟨FramedPeer.drop { conn with reader := conn.reader.append bytes } .closed, ?_, rfl⟩
  unfold step handleReadable
  rw [if_pos live, if_neg (Nat.not_lt.mpr full)]
  rfl

theorem received_full_close (bytes : Buffer) :
    upPeer.reader.unread ++ bytesOf [[.ok bytes, .closed]].flatten = bytes := by
  show [] ++ (bytes ++ ([] ++ [])) = bytes
  rw [List.nil_append, List.append_nil, List.append_nil]

/-- Heartbeats, as many as fill a chunk; the last of them is cut off. -/
def beats : Buffer :=
  encode beat ++ (List.replicate 682 (encode beat)).flatten.take (kReadChunk - (encode beat).length)

theorem length_beats : beats.length = kReadChunk := by
  have length : (encode beat).length = 24 := by decide
  have long : kReadChunk - 24 ≤ (List.replicate 682 (encode beat)).flatten.length := by
    rw [List.length_flatten, List.map_replicate, List.sum_replicate_nat, length]
    decide
  unfold beats
  rw [List.length_append, length, List.length_take_of_le long]
  rfl

theorem messagesIn_beats : messagesIn beats ≠ [] := by
  have whole : nextFrame (encode beat) = some (⟨(typeOf beat).toWire, encodeBody beat⟩, []) := by decide
  have decoded : decodeBody (typeOf beat).toWire (encodeBody beat) = some beat :=
    decodeBody_encodeBody (show beat.Fits from trivial)
  have front : ((some beat).filter isPlain).toList = [beat] := rfl
  unfold beats
  rw [messagesIn_of_frame (nextFrame_append whole _), decoded, front]
  exact List.append_ne_nil_of_left_ne_nil (List.cons_ne_nil _ _) _

/-- A chunk full of heartbeats, then the close: none of them is passed. -/
theorem unpassed_beats :
    ∃ final, run (step fun _ => []) upPeer [[.ok beats, .closed]] = some final ∧
      final.passed ≠ upPeer.passed ++
        messagesIn (upPeer.reader.unread ++ bytesOf [[.ok beats, .closed]].flatten) := by
  have live : upPeer.live = true := rfl
  obtain ⟨final, enabled, passed⟩ := step_full_close (fun _ => []) live length_beats.ge
  refine ⟨final, Option.bind_eq_some_iff.mpr ⟨final, enabled, rfl⟩, ?_⟩
  rw [passed, received_full_close]
  exact fun same => messagesIn_beats (List.self_eq_append_right.mp same)

end FramedPeer

end Sententia.Net
