/-
**A transport wired to the replicator.** A write that fails inside `Transport::send` drops the peer, and
`apps/node` wires that to `Replicator::onPeerDown`: the entry of `backups_` is erased while a loop or a
method further up still refers to it. Here a `BackupState&` is the key of its entry, every read and write
looks the key up again, and a method whose lookup fails has no result.

* `Attempt.send` — what `Transport::send` does, and whether the peer is dropped in it.
* `Wires` — a transport whose drops reach the replicator.
* `sendAppendWired`, `submitWired`, `tickWired`, `handleAppendResponseWired` — the methods on such a transport.
* `sendAppendWired_eq` — `sendAppend` with and without the wiring, side by side.
* `sendAppendWired_isSome_iff` — it finds its backup unless the send was accepted and dropped the peer.
-/

import Sententia.Replication.Amplification

namespace Sententia

open Library

/-! ### A send and the peer it may drop -/

inductive IoStatus
  | ok
  | wouldBlock
  | closed
  | error
deriving Repr, DecidableEq

structure IoResult where
  status : IoStatus := .ok
  bytes : Nat := 0
deriving Repr, DecidableEq

/-- The loop of `handleWritable` on a queue of some bytes, over the results of its writes: what is left of
the queue, or nothing if the peer was dropped. -/
def handleWritable : List IoResult → Nat → Option Nat
  | [], queued => some queued
  | result :: rest, queued =>
    if queued = 0 then some queued
    else
      match result.status with
      | .wouldBlock => some queued
      | .ok => handleWritable rest (queued - result.bytes)
      | .closed | .error => none

/-- What one call of `Transport::send` meets. -/
structure Attempt where
  /-- The bytes queued for the ready peer, if `findPeer` finds one. -/
  queued : Option Nat := some 0
  highWaterMark : Nat := 8 * 1024 * 1024
  /-- The bytes of the framed message. -/
  frame : Nat := 1
  draining : List IoResult := []
  writing : List IoResult := []

/-- `Transport::send`: its result, and whether the peer was dropped. A message whose own write fails counts
as sent. -/
def Attempt.send (attempt : Attempt) : SendResult × Bool :=
  match attempt.queued with
  | none => (.notConnected, false)
  | some queued =>
    match handleWritable attempt.draining queued with
    | none => (.notConnected, true)
    | some queued =>
      if queued ≥ attempt.highWaterMark then (.wouldOverflow, false)
      else (.ok, (handleWritable attempt.writing (queued + attempt.frame)).isNone)

/-- The transport of a node during one step, wired to the replicator. -/
structure Wires where
  attempt : Nat → Attempt
  saturated : Nat → NodeId → Bool := fun _ _ => false
  attempts : Nat := 0
  sent : List (NodeId × Message) := []

namespace Wires

/-- The same transport when its drops reach nobody. -/
def transport (wires : Wires) : Transport where
  link := { sendResult := fun n => (wires.attempt n).send.1, saturated := wires.saturated }
  attempts := wires.attempts
  sent := wires.sent

/-- What the next send does. -/
def next (wires : Wires) : SendResult × Bool := (wires.attempt wires.attempts).send

def send (wires : Wires) (target : NodeId) (msg : Message) : Wires × SendResult :=
  ({ wires with
      attempts := wires.attempts + 1
      sent := if wires.next.1 = .ok then wires.sent ++ [(target, msg)] else wires.sent },
    wires.next.1)

def isSaturated (wires : Wires) (id : NodeId) : Bool := wires.saturated wires.attempts id

/-- No send before the given one drops its peer. -/
def Keeps (wires : Wires) (stop : Nat) : Prop :=
  ∀ n, wires.attempts ≤ n → n < stop → (wires.attempt n).send.2 = false

variable (wires : Wires)

theorem transport_send (target : NodeId) (msg : Message) :
    wires.transport.send target msg = ((wires.send target msg).1.transport, wires.next.1) := by
  unfold Transport.send send next
  have answer : wires.transport.link.sendResult wires.transport.attempts =
      (wires.attempt wires.attempts).send.1 := rfl
  rw [answer]
  cases (wires.attempt wires.attempts).send.1 <;> rfl

end Wires

namespace Replicator

/-! ### The methods on a wired transport -/

/-- A send; a drop calls `onPeerDown` before it returns. -/
def sendWired (rep : Replicator) (wires : Wires) (target : NodeId) (msg : Message) :
    Replicator × Wires × SendResult :=
  let (after, result) := wires.send target msg
  (if wires.next.2 then rep.onPeerDown target else rep, after, result)

/-- A write through the reference to an entry. -/
def writeBackup (rep : Replicator) (key : NodeId) (change : BackupState → BackupState) :
    Option Replicator :=
  (rep.backups.find? key).map fun backup => { rep with backups := rep.backups.insert key (change backup) }

/-- `sendAppend`. -/
def sendAppendWired (rep : Replicator) (wires : Wires) (key : NodeId) (probe : Bool) :
    Option (Replicator × Wires) := do
  let backup ← rep.backups.find? key
  if probe then
    let rep := { rep with stats := { rep.stats with probesSent := rep.stats.probesSent + 1 } }
    let (rep, wires, _) := rep.sendWired wires backup.id (.appendEntries rep.headAppend)
    return (rep, wires)
  else
    let fromSeq := backup.nextSeq
    if fromSeq > rep.log.lastSeq then
      if rep.commitIndex > backup.lastCommitSent then
        let (rep, wires, result) := rep.sendWired wires backup.id (.appendEntries rep.headAppend)
        if result = .ok then
          let rep ← rep.writeBackup key fun backup => { backup with lastCommitSent := rep.commitIndex }
          return (rep, wires)
        else return (rep, wires)
      else return (rep, wires)
    else if ¬ rep.log.canServeFrom fromSeq then return (rep, wires)
    else
      let msg := rep.batchAppend fromSeq
      if msg.entries.isEmpty then return (rep, wires)
      else
        let rep :=
          if msg.entries.length > 1 then
            { rep with stats := { rep.stats with catchUpBatches := rep.stats.catchUpBatches + 1 } }
          else rep
        let (rep, wires, result) := rep.sendWired wires backup.id (.appendEntries msg)
        if result ≠ .ok then return (rep, wires)
        else
          let rep ← rep.writeBackup key fun backup =>
            { backup with
              lastSent := (msg.entries.getLast?.map (·.seq)).getD 0
              lastCommitSent := rep.commitIndex }
          return ({ rep with stats :=
            { rep.stats with entriesSent := rep.stats.entriesSent + msg.entries.length } }, wires)

/-- The loop over `backups_`, by the keys of its entries: an entry is read, and it is stepped past when the
body is done with it. -/
def forBackupsWired (body : Replicator → Wires → NodeId → BackupState → Option (Replicator × Wires)) :
    List NodeId → Replicator → Wires → Option (Replicator × Wires)
  | [], rep, wires => some (rep, wires)
  | key :: rest, rep, wires => do
    let state ← rep.backups.find? key
    let (rep, wires) ← body rep wires key state
    let _ ← rep.backups.find? key
    forBackupsWired body rest rep wires

def tickWired (rep : Replicator) (wires : Wires) : Option (Replicator × Wires) :=
  if rep.role ≠ .primary then some (rep, wires)
  else
    forBackupsWired (fun rep wires id state =>
      if state.probing ∨ wires.isSaturated id then some (rep, wires)
      else if rep.needsAppend state then rep.sendAppendWired wires id false
      else some (rep, wires)) rep.backups.keys rep wires

def submitWired (rep : Replicator) (wires : Wires) (cmd : Command) :
    Option (Replicator × Wires × SubmitResult) :=
  let busy := { rep with
    stats := { rep.stats with submitRejectedBusy := rep.stats.submitRejectedBusy + 1 } }
  if rep.role ≠ .primary then some (rep, wires, { status := .notPrimary })
  else if rep.mode = .synchronous ∧ rep.backups.isEmpty then
    some (busy, wires, { status := .noBackup })
  else if rep.mode = .synchronous ∧ rep.inFlightCount ≥ rep.syncWindow then
    some (busy, wires, { status := .busy })
  else if rep.backups.keys.any wires.isSaturated then some (busy, wires, { status := .busy })
  else do
    let (accepted, wires) ← forBackupsWired (fun rep wires id state =>
      if state.probing then some (rep, wires) else rep.sendAppendWired wires id false)
      (rep.accept cmd).backups.keys (rep.accept cmd) wires
    return (accepted, wires, { status := .accepted, seq := (rep.log.append cmd rep.term).2 })

def handleAppendResponseWired (rep : Replicator) (wires : Wires) (source : NodeId)
    (msg : AppendResponse) : Option (Replicator × Wires) := do
  if msg.term > rep.term then
    return ({ rep with
      stats := { rep.stats with staleTermRejections := rep.stats.staleTermRejections + 1 } }, wires)
  else
    let backup := rep.respondent source msg
    let rep := { rep with backups := rep.backups.insert source backup }.advanceCommitIndex
    let rep :=
      if backup.lastApplied = rep.lastApplied ∧
          backup.lastChecksum ≠ rep.engine.stateChecksum then
        { rep with
          stats := { rep.stats with checksumMismatches := rep.stats.checksumMismatches + 1 } }
      else rep
    if rep.needsAppend backup then rep.sendAppendWired wires source false
    else return (rep, wires)

variable {rep : Replicator} {wires : Wires} {key : NodeId} {backup : BackupState}

/-! ### One send -/

/-- The replicator when a send has returned. -/
def returned (rep : Replicator) (wires : Wires) (target : NodeId) : Replicator :=
  if wires.next.2 then rep.onPeerDown target else rep

/-- The rest of `sendAppend` when its send has returned: an accepted message is noted. -/
def finish (rep : Replicator) (wires : Wires) (key : NodeId) (msg : AppendEntries)
    (note : ReplicationStats → ReplicationStats) : Option Replicator :=
  if wires.next.1 = .ok then
    ((rep.returned wires key).writeBackup key fun backup => backup.told msg).map fun after =>
      ({ after with stats := note after.stats } : Replicator)
  else some (rep.returned wires key)

theorem sendWired_commitIndex (rep : Replicator) (wires : Wires) (key : NodeId) (msg : Message) :
    (rep.sendWired wires key msg).1.commitIndex = rep.commitIndex := by
  unfold sendWired
  dsimp only
  split_ifs <;> rfl

/-- A send and what follows it, as `sendAppend` goes through them. -/
theorem finish_eq (rep : Replicator) (wires : Wires) (key : NodeId) (msg : AppendEntries)
    (note : ReplicationStats → ReplicationStats) :
    (if (rep.sendWired wires key (.appendEntries msg)).2.2 = .ok then
        ((rep.sendWired wires key (.appendEntries msg)).1.writeBackup key
          fun backup => backup.told msg).bind fun after =>
          some (({ after with stats := note after.stats } : Replicator),
            (rep.sendWired wires key (.appendEntries msg)).2.1)
      else some ((rep.sendWired wires key (.appendEntries msg)).1,
        (rep.sendWired wires key (.appendEntries msg)).2.1)) =
      (rep.finish wires key msg note).map fun after =>
        (after, (wires.send key (.appendEntries msg)).1) := by
  show (if wires.next.1 = .ok then
      ((rep.returned wires key).writeBackup key _).bind fun after => some (_, _) else _) = _
  unfold finish
  split_ifs
  · rw [Option.map_map, Option.map_eq_bind]
    rfl
  · rfl

/-- **`sendAppend`, wired and not**: nothing is sent, or one message. -/
theorem sendAppendWired_eq (found : rep.backups.find? key = some backup) (isNamed : backup.id = key)
    (wires : Wires) :
    (rep.appendFor backup = none ∧ rep.sendAppend wires.transport backup = (rep, wires.transport, backup) ∧
        rep.sendAppendWired wires key false = some (rep, wires)) ∨
      ∃ msg counted note, rep.appendFor backup = some msg ∧
        rep.sendAppend wires.transport backup =
          ({ rep with stats := if wires.next.1 = .ok then note counted else counted },
            (wires.send key (.appendEntries msg)).1.transport,
            if wires.next.1 = .ok then backup.told msg else backup) ∧
        rep.sendAppendWired wires key false =
          ({ rep with stats := counted }.finish wires key msg note).map
            fun after => (after, (wires.send key (.appendEntries msg)).1) := by
  subst isNamed
  unfold sendAppend sendAppendWired appendFor
  simp only [found, Option.bind_eq_bind, Option.bind_some, Bool.false_eq_true, if_false,
    sendWired_commitIndex]
  by_cases all : backup.nextSeq > rep.log.lastSeq
  · rw [if_pos all, if_pos all, if_pos all]
    by_cases news : rep.commitIndex > backup.lastCommitSent
    · rw [if_pos news, if_pos news, if_pos news]
      refine Or.inr ⟨rep.headAppend, rep.stats, id, rfl, ?_, ?_⟩
      · rw [Wires.transport_send, id, ite_self]
        rfl
      · exact finish_eq rep wires _ rep.headAppend id
    · rw [if_neg news, if_neg news, if_neg news]
      exact Or.inl ⟨rfl, rfl, rfl⟩
  · rw [if_neg all, if_neg all, if_neg all]
    by_cases served : rep.log.canServeFrom backup.nextSeq = true
    · rw [if_neg (not_not.mpr served), if_neg (not_not.mpr served)]
      by_cases empty : (rep.batchAppend backup.nextSeq).entries = []
      · rw [if_pos (List.isEmpty_iff.mpr empty), if_pos (List.isEmpty_iff.mpr empty),
          if_neg fun has => has.2 empty]
        exact Or.inl ⟨rfl, rfl, rfl⟩
      · have notEmpty : ¬ (rep.batchAppend backup.nextSeq).entries.isEmpty = true := fun isEmpty =>
          empty (List.isEmpty_iff.mp isEmpty)
        have isLast := List.getLast?_eq_some_getLast empty
        rw [if_neg notEmpty, if_neg notEmpty, if_pos ⟨served, empty⟩]
        have commits : (rep.batchAppend backup.nextSeq).commitSeq = rep.commitIndex := rfl
        clear served notEmpty
        generalize rep.batchAppend backup.nextSeq = msg at empty isLast commits
        have tells : ∀ known : BackupState, { known with
            lastSent := (msg.entries.getLast?.map (·.seq)).getD 0
            lastCommitSent := rep.commitIndex } = known.told msg := by
          intro known
          unfold BackupState.told
          rw [isLast, commits]
          rfl
        have counts : ∃ counted, (if msg.entries.length > 1 then
            { rep with stats := { rep.stats with catchUpBatches := rep.stats.catchUpBatches + 1 } }
            else rep) = { rep with stats := counted } := by
          split_ifs <;> exact ⟨_, rfl⟩
        obtain ⟨counted, counts⟩ := counts
        rw [counts]
        refine Or.inr ⟨msg, counted, fun stats => { stats with
          entriesSent := stats.entriesSent + msg.entries.length }, rfl, ?_, ?_⟩
        · rw [Wires.transport_send]
          simp only [ite_not, tells]
          split_ifs <;> rfl
        · refine Eq.trans ?_ (finish_eq { rep with stats := counted } wires _ msg _)
          simp only [ite_not, tells]
          rfl
    · rw [if_pos served, if_pos served, if_neg fun has => served has.1]
      exact Or.inl ⟨rfl, rfl, rfl⟩

theorem sendAppendWired_nothing (found : rep.backups.find? key = some backup) (isNamed : backup.id = key)
    (nothing : rep.appendFor backup = none) (wires : Wires) :
    rep.sendAppend wires.transport backup = (rep, wires.transport, backup) ∧
      rep.sendAppendWired wires key false = some (rep, wires) := by
  rcases sendAppendWired_eq found isNamed wires with ⟨_, same⟩ | ⟨msg, _, _, isFor, _⟩
  · exact same
  · exact absurd (nothing.symm.trans isFor) nofun

/-- A send that keeps its peer: the wired method is the plain one with its backup written back. -/
theorem sendAppendWired_kept (found : rep.backups.find? key = some backup) (isNamed : backup.id = key)
    (isFor : rep.appendFor backup ≠ none) (kept : wires.next.2 = false) :
    ∃ msg, (rep.sendAppend wires.transport backup).2.1 = (wires.send key msg).1.transport ∧
      rep.sendAppendWired wires key false = some ({ (rep.sendAppend wires.transport backup).1 with
        backups := (rep.sendAppend wires.transport backup).1.backups.insert key
          (rep.sendAppend wires.transport backup).2.2 }, (wires.send key msg).1) := by
  rcases sendAppendWired_eq found isNamed wires with
    ⟨nothing, _⟩ | ⟨msg, counted, note, _, plain, wired⟩
  · exact absurd nothing isFor
  · refine ⟨.appendEntries msg, ?_, ?_⟩
    · rw [plain]
    · rw [plain, wired]
      have stays : ({ rep with stats := counted } : Replicator).returned wires key =
          { rep with stats := counted } := by
        unfold returned
        rw [kept]
        rfl
      unfold finish
      rw [stays]
      by_cases taken : wires.next.1 = .ok
      · rw [if_pos taken, if_pos taken, if_pos taken]
        unfold writeBackup
        have found' : ({ rep with stats := counted } : Replicator).backups.find? key = some backup := found
        rw [found']
        rfl
      · rw [if_neg taken, if_neg taken, if_neg taken, OrderedMap.insert_eq_self found]
        rfl

/-- A send that drops its peer: the entry is gone, and an accepted message cannot be noted. -/
theorem sendAppendWired_dropped (found : rep.backups.find? key = some backup) (isNamed : backup.id = key)
    (isFor : rep.appendFor backup ≠ none) (dropped : wires.next.2 = true) :
    (wires.next.1 = .ok ∧ rep.sendAppendWired wires key false = none) ∨
      (wires.next.1 ≠ .ok ∧ ∃ rep' wires', rep.sendAppendWired wires key false = some (rep', wires') ∧
        rep'.backups.find? key = none) := by
  rcases sendAppendWired_eq found isNamed wires with
    ⟨nothing, _⟩ | ⟨msg, counted, note, _, _, wired⟩
  · exact absurd nothing isFor
  · have erased : (({ rep with stats := counted } : Replicator).returned wires key).backups.find? key =
        none := by
      unfold returned
      rw [if_pos dropped]
      show (rep.backups.erase key).find? key = none
      rw [OrderedMap.find?_erase, if_pos rfl]
    rw [wired]
    unfold finish
    by_cases taken : wires.next.1 = .ok
    · refine Or.inl ⟨taken, ?_⟩
      rw [if_pos taken]
      unfold writeBackup
      rw [erased]
      rfl
    · rw [if_neg taken]
      exact Or.inr ⟨taken, _, _, rfl, erased⟩

/-- A send uses what it has forgotten exactly when it is accepted and then drops the peer. -/
theorem sendAppendWired_isSome (found : rep.backups.find? key = some backup)
    (isNamed : backup.id = key) :
    (rep.sendAppendWired wires key false).isSome = true ↔
      (rep.appendFor backup ≠ none → wires.next ≠ (.ok, true)) := by
  by_cases nothing : rep.appendFor backup = none
  · rw [(sendAppendWired_nothing found isNamed nothing wires).2]
    exact iff_of_true rfl fun isFor => absurd nothing isFor
  · cases dropped : wires.next.2 with
    | false =>
      obtain ⟨_, _, wired⟩ := sendAppendWired_kept found isNamed nothing dropped
      rw [wired]
      refine iff_of_true rfl fun _ both => ?_
      exact absurd (dropped.symm.trans (congrArg Prod.snd both)) nofun
    | true =>
      rcases sendAppendWired_dropped found isNamed nothing dropped with
        ⟨taken, wired⟩ | ⟨refused, _, _, wired, _⟩
      · rw [wired]
        exact iff_of_false nofun fun never => never nothing (Prod.ext taken dropped)
      · rw [wired]
        exact iff_of_true rfl fun _ both => refused (congrArg Prod.fst both)

/-- A probe uses nothing once it is sent. -/
theorem sendProbeWired_isSome (found : rep.backups.find? key = some backup) :
    (rep.sendAppendWired wires key true).isSome = true := by
  unfold sendAppendWired
  rw [found]
  rfl

theorem sendAppendWired_isSome_iff (named : rep.Named) (found : rep.backups.find? key = some backup)
    (probe : Bool) :
    (rep.sendAppendWired wires key probe).isSome = true ↔
      (probe = false → rep.appendFor backup ≠ none → wires.next ≠ (.ok, true)) := by
  cases probe with
  | false =>
    rw [sendAppendWired_isSome found (named found)]
    exact ⟨fun holds _ => holds, fun holds => holds rfl⟩
  | true => exact iff_of_true (sendProbeWired_isSome found) nofun

/-! ### Backups stay filed under their ids -/

theorem named_returned (named : rep.Named) (wires : Wires) (target : NodeId) :
    (rep.returned wires target).Named := by
  unfold returned
  split_ifs
  · intro found
    replace found : (rep.backups.erase target).find? _ = some _ := found
    rw [OrderedMap.find?_erase] at found
    split_ifs at found
    exact named found
  · exact named

theorem named_finish (named : rep.Named) {msg : AppendEntries} {note : ReplicationStats → ReplicationStats}
    {rep' : Replicator} (done : rep.finish wires key msg note = some rep') : rep'.Named := by
  intro id backup' filed
  have back : (rep.returned wires key).Named := named_returned named wires key
  unfold finish at done
  generalize rep.returned wires key = after at back done
  by_cases taken : wires.next.1 = .ok
  · rw [if_pos taken] at done
    unfold writeBackup at done
    cases found : after.backups.find? key with
    | none => exact absurd (found ▸ done) nofun
    | some backup =>
      rw [found] at done
      obtain rfl := Option.some.inj done
      replace filed : (after.backups.insert key (backup.told msg)).find? id = some backup' := filed
      rw [OrderedMap.find?_insert] at filed
      split_ifs at filed with same
      · have isNamed : backup.id = key := back found
        rw [← Option.some.inj filed, same]
        exact isNamed
      · exact back filed
  · rw [if_neg taken] at done
    obtain rfl := Option.some.inj done
    exact back filed

theorem named_sendAppendWired (named : rep.Named) {probe : Bool} {rep' : Replicator} {wires' : Wires}
    (done : rep.sendAppendWired wires key probe = some (rep', wires')) : rep'.Named := by
  cases found : rep.backups.find? key with
  | none =>
    unfold sendAppendWired at done
    exact absurd (found ▸ done) nofun
  | some backup =>
    cases probe with
    | true =>
      unfold sendAppendWired at done
      rw [found] at done
      cases done
      intro id filed found'
      have counted : ({ rep with
          stats := { rep.stats with probesSent := rep.stats.probesSent + 1 } } : Replicator).Named := named
      exact named_returned counted wires backup.id found'
    | false =>
      rcases sendAppendWired_eq found (named found) wires with
        ⟨_, _, nothing⟩ | ⟨msg, counted, note, _, _, sends⟩
      · cases nothing.symm.trans done
        exact named
      · obtain ⟨after, finished, same⟩ := Option.map_eq_some_iff.mp (sends.symm.trans done)
        cases same
        have named' : ({ rep with stats := counted } : Replicator).Named := named
        intro id filed found'
        exact named_finish named' finished found'

end Replicator

end Sententia
