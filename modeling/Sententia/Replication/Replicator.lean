/-
**State-machine replication, primary to backup** (`replicator.hpp`, `replicator.cpp`).

Each method is a function from the replicator and the transport of the step to their next states. A
`BackupState&` of the source is passed as a value and written back by its caller; the loops over
`backups_` are `forBackups`.

`applied` is a history variable: the entries `applyCommitted` has handed to the engine, oldest first. Those that
`rebuildFromLog` replays are not among them. Nothing reads it.
-/

import Mathlib.Algebra.Group.Nat.Defs
import Mathlib.Data.List.Sort
import Sententia.Engine
import Sententia.Net.Message
import Sententia.Replication.CommandLog

namespace Sententia

open Library

/-- An entry as it travels. -/
def LogEntry.record (entry : LogEntry) : LogRecord where
  seq := entry.seq
  term := entry.term
  command := entry.command

inductive Role
  | primary
  | backup
deriving Repr, DecidableEq, Inhabited

inductive ReplicationMode
  | synchronous
  | asynchronous
deriving Repr, DecidableEq, Inhabited

inductive SubmitStatus
  | accepted
  | busy
  | notPrimary
  | noBackup
deriving Repr, DecidableEq

structure SubmitResult where
  status : SubmitStatus
  seq : Nat := 0
deriving Repr, DecidableEq

/-- The counters the modelled methods keep. -/
structure ReplicationStats where
  submitted : Nat := 0
  submitRejectedBusy : Nat := 0
  applied : Nat := 0
  entriesSent : Nat := 0
  entriesReceived : Nat := 0
  gapsDetected : Nat := 0
  catchUpBatches : Nat := 0
  probesSent : Nat := 0
  checksumMismatches : Nat := 0
  logTruncations : Nat := 0
  roleChanges : Nat := 0
  staleTermRejections : Nat := 0
  logMatchRejections : Nat := 0
  conflictingEntriesTruncated : Nat := 0
  commitAdvances : Nat := 0
deriving Repr, DecidableEq

/-- What the primary knows about one backup. -/
structure BackupState where
  id : NodeId := 0
  /-- The highest entry believed to be replicated here. -/
  matchSeq : Nat := 0
  /-- The commit point this backup has already been told about. -/
  lastCommitSent : Nat := 0
  lastApplied : Nat := 0
  /-- Highest sequence sent to it. -/
  lastSent : Nat := 0
  lastChecksum : UInt64 := 0
  probing : Bool := true
deriving Repr, DecidableEq

/-- `std::max(matchSeq, lastSent) + 1`, in 64 bits: the first entry that has not been sent to the backup. The
match point is what the backup says it is, so that the sum may wrap around. -/
def BackupState.nextSeq (backup : BackupState) : Nat :=
  if max backup.matchSeq backup.lastSent = 2 ^ 64 - 1 then 0 else max backup.matchSeq backup.lastSent + 1

/-- Everything known about a backup belonged to an earlier leader. -/
def BackupState.forget (backup : BackupState) : BackupState :=
  { backup with probing := true, lastSent := 0, lastApplied := 0, matchSeq := 0, lastCommitSent := 0 }

/-- What a response tells about its backup. -/
def BackupState.respond (backup : BackupState) (msg : AppendResponse) : BackupState :=
  { backup with
    lastApplied := msg.lastApplied
    matchSeq := if msg.ok then msg.lastLogSeq else backup.matchSeq
    lastChecksum := msg.stateChecksum
    probing := false
    lastSent := if ¬ msg.ok ∨ backup.lastSent < msg.lastApplied then msg.lastApplied
      else backup.lastSent }

structure Replicator where
  self : NodeId
  role : Role
  mode : ReplicationMode
  engine : MatchingEngine
  log : CommandLog := {}
  lastApplied : Nat := 0
  commitIndex : Nat := 0
  term : Nat := 0
  clusterSize : Nat := 2
  /-- The snapshot this node's log continues from, if any. -/
  snapshotBase : Option EngineSnapshot := none
  syncWindow : Nat := 1
  backups : OrderedMap NodeId BackupState (· < ·) := .empty
  stats : ReplicationStats := {}
  applied : List LogEntry := []

namespace Replicator

def majority (rep : Replicator) : Nat := rep.clusterSize / 2 + 1

def setClusterSize (rep : Replicator) (n : Nat) : Replicator :=
  { rep with clusterSize := if n < 1 then 1 else n }

def setSyncWindow (rep : Replicator) (n : Nat) : Replicator := { rep with syncWindow := n }

def setTerm (rep : Replicator) (term : Nat) : Replicator := { rep with term }

def commitSeq (rep : Replicator) : Nat := rep.commitIndex

/-- `log_.lastSeq() - commitSeq()`, how far the log is ahead of the commit point. A backup may name a match point
behind the head of the log, and the commit point follows it: then the difference wraps around. -/
def inFlightCount (rep : Replicator) : Nat :=
  (UInt64.ofNat rep.log.lastSeq - UInt64.ofNat rep.commitSeq).toNat

def setRole (rep : Replicator) (role : Role) : Replicator :=
  if role = rep.role then rep
  else
    { rep with
      role
      backups := rep.backups.mapValues BackupState.forget
      stats := { rep.stats with roleChanges := rep.stats.roleChanges + 1 } }

/-- The loop `for (auto& [id, state] : backups_)`, `body` updating the state it is given. -/
def forBackups
    (body : Replicator → Transport → NodeId → BackupState → Replicator × Transport × BackupState)
    (rep : Replicator) (net : Transport) : Replicator × Transport :=
  rep.backups.entries.foldl (fun (rep, net) (id, state) =>
    let (rep, net, state) := body rep net id state
    ({ rep with backups := rep.backups.insert id state }, net)) (rep, net)

/-! ### Sending -/

/-- The empty `AppendEntries` at the log head: a probe, or a bare commit point. -/
def headAppend (rep : Replicator) : AppendEntries where
  term := rep.term
  leaderId := rep.self
  commitSeq := rep.commitSeq
  prevSeq := rep.log.lastSeq
  prevTerm := (rep.log.termAt rep.log.lastSeq).getD 0

/-- The `AppendEntries` that carries the log from `from` on. -/
def batchAppend (rep : Replicator) (fromSeq : Nat) : AppendEntries where
  term := rep.term
  leaderId := rep.self
  commitSeq := rep.commitSeq
  prevSeq := fromSeq - 1
  prevTerm := (rep.log.termAt (fromSeq - 1)).getD 0
  entries := (rep.log.range fromSeq kMaxEntriesPerAppend).map LogEntry.record

/-- `sendAppend(backup, true)`. -/
def sendProbe (rep : Replicator) (net : Transport) (backup : BackupState) :
    Replicator × Transport :=
  let rep := { rep with stats := { rep.stats with probesSent := rep.stats.probesSent + 1 } }
  (rep, (net.send backup.id (.appendEntries rep.headAppend)).1)

/-- `sendAppend(backup, false)`. -/
def sendAppend (rep : Replicator) (net : Transport) (backup : BackupState) :
    Replicator × Transport × BackupState :=
  let fromSeq := backup.nextSeq
  if fromSeq > rep.log.lastSeq then
    if rep.commitIndex > backup.lastCommitSent then
      let (net, result) := net.send backup.id (.appendEntries rep.headAppend)
      (rep, net,
        if result = .ok then { backup with lastCommitSent := rep.commitIndex } else backup)
    else (rep, net, backup)
  -- The entries this backup needs have been truncated away.
  else if ¬ rep.log.canServeFrom fromSeq then (rep, net, backup)
  else
    let msg := rep.batchAppend fromSeq
    if msg.entries.isEmpty then (rep, net, backup)
    else
      let rep :=
        if msg.entries.length > 1 then
          { rep with stats := { rep.stats with catchUpBatches := rep.stats.catchUpBatches + 1 } }
        else rep
      let (net, result) := net.send backup.id (.appendEntries msg)
      if result ≠ .ok then (rep, net, backup)
      else
        ({ rep with stats :=
            { rep.stats with entriesSent := rep.stats.entriesSent + msg.entries.length } },
          net,
          { backup with
            lastSent := (msg.entries.getLast?.map (·.seq)).getD 0
            lastCommitSent := rep.commitIndex })

/-- There are new entries to send, or the commit point has moved and the backup has not been told. -/
def needsAppend (rep : Replicator) (backup : BackupState) : Bool :=
  backup.lastSent < rep.log.lastSeq ∨ rep.commitIndex > backup.lastCommitSent

def onPeerUp (rep : Replicator) (net : Transport) (id : NodeId) : Replicator × Transport :=
  if rep.role ≠ .primary then (rep, net)
  else
    let known := (rep.backups.find? id).getD {}
    let backup := { known with id, probing := true, lastSent := 0 }
    { rep with backups := rep.backups.insert id backup }.sendProbe net backup

def onPeerDown (rep : Replicator) (id : NodeId) : Replicator :=
  { rep with backups := rep.backups.erase id }

def tick (rep : Replicator) (net : Transport) : Replicator × Transport :=
  if rep.role ≠ .primary then (rep, net)
  else
    rep.forBackups (fun rep net id state =>
      if state.probing ∨ net.isSaturated id then (rep, net, state)
      else if rep.needsAppend state then rep.sendAppend net state
      else (rep, net, state)) net

/-! ### Applying -/

/-- Hand the entry after `lastApplied` to the engine. -/
def applyNext (rep : Replicator) (entry : LogEntry) : Replicator :=
  { rep with
    engine := (rep.engine.apply entry.command).1
    lastApplied := entry.seq
    applied := rep.applied ++ [entry]
    stats := { rep.stats with applied := rep.stats.applied + 1 } }

/-- The `while` loop of `applyCommitted`: every iteration raises `lastApplied`. -/
def applyLoop : Nat → Replicator → Replicator
  | 0, rep => rep
  | fuel + 1, rep =>
    if rep.lastApplied < rep.commitIndex then
      match rep.log.at? (rep.lastApplied + 1) with
      | none => rep
      | some entry => applyLoop fuel (rep.applyNext entry)
    else rep

/-- Applies everything up to the commit point. -/
def applyCommitted (rep : Replicator) : Replicator :=
  applyLoop (rep.commitIndex - rep.lastApplied) rep

/-- The replay loop of `rebuildFromLog`, over the sequence numbers that follow `seq`. -/
def rebuildLoop : Nat → Replicator → Nat → Replicator
  | 0, rep, _ => rep
  | fuel + 1, rep, seq =>
    if seq ≤ rep.log.lastSeq then
      match rep.log.at? seq with
      | none => rep
      | some entry => rebuildLoop fuel
          { rep with engine := (rep.engine.apply entry.command).1, lastApplied := seq } (seq + 1)
    else rep

/-- A fresh engine, or the snapshot the log continues from. -/
def rebuildBase (rep : Replicator) : MatchingEngine :=
  let fresh : MatchingEngine := { instrument := rep.engine.instrument }
  match rep.snapshotBase with
  | none => fresh
  | some snapshot => (fresh.restore snapshot).1

/-- Replays the retained log from the snapshot boundary, committed or not. -/
def rebuildFromLog (rep : Replicator) : Replicator :=
  let rep := rebuildLoop (rep.log.lastSeq - rep.log.snapshotSeq)
    { rep with engine := rep.rebuildBase, lastApplied := rep.log.snapshotSeq }
    (rep.log.snapshotSeq + 1)
  if rep.commitIndex > rep.lastApplied then { rep with commitIndex := rep.lastApplied } else rep

/-- Every node's match point, the leader's own log head first, padded to the configured size. -/
def matchPoints (rep : Replicator) : List Nat :=
  let known := rep.log.lastSeq :: rep.backups.entries.map fun backup => backup.2.matchSeq
  known ++ List.replicate (rep.clusterSize - known.length) 0

/-- The highest sequence a majority holds. -/
def commitCandidate (rep : Replicator) : Nat :=
  ((rep.matchPoints.insertionSort (· ≥ ·))[rep.majority - 1]?).getD 0

def advanceCommitIndex (rep : Replicator) : Replicator :=
  if rep.role ≠ .primary then rep
  else
    let candidate := rep.commitCandidate
    if candidate ≤ rep.commitIndex then rep
    -- An entry of an earlier term is never committed by counting.
    else if rep.log.termAt candidate ≠ some rep.term then rep
    else
      { rep with
        commitIndex := candidate
        stats := { rep.stats with commitAdvances := rep.stats.commitAdvances + 1 } }.applyCommitted

/-- The middle of `submit`: the command joins the log. -/
def accept (rep : Replicator) (cmd : Command) : Replicator :=
  let rep := { rep with
    log := (rep.log.append cmd rep.term).1
    stats := { rep.stats with submitted := rep.stats.submitted + 1 } }
  -- A single-node cluster is its own majority.
  if rep.clusterSize = 1 then rep.advanceCommitIndex else rep

def submit (rep : Replicator) (net : Transport) (cmd : Command) :
    Replicator × Transport × SubmitResult :=
  let busy := { rep with
    stats := { rep.stats with submitRejectedBusy := rep.stats.submitRejectedBusy + 1 } }
  if rep.role ≠ .primary then (rep, net, { status := .notPrimary })
  else if rep.mode = .synchronous ∧ rep.backups.isEmpty then (busy, net, { status := .noBackup })
  else if rep.mode = .synchronous ∧ rep.inFlightCount ≥ rep.syncWindow then
    (busy, net, { status := .busy })
  else if rep.backups.keys.any net.isSaturated then (busy, net, { status := .busy })
  else
    let (accepted, net) := (rep.accept cmd).forBackups (fun rep net _ state =>
      if state.probing then (rep, net, state) else rep.sendAppend net state) net
    (accepted, net, { status := .accepted, seq := (rep.log.append cmd rep.term).2 })

/-! ### Messages -/

/-- The response of this node in its present state. -/
def response (rep : Replicator) (ok : Bool) : AppendResponse where
  term := rep.term
  nodeId := rep.self
  lastLogSeq := rep.log.lastSeq
  ok := ok
  lastApplied := rep.lastApplied
  stateChecksum := rep.engine.stateChecksum

/-- The entry loop of `handleAppendEntries`; `false` when it refuses to truncate a committed entry. -/
def appendRecords (rep : Replicator) : List LogRecord → Replicator × Bool
  | [] => (rep, true)
  | record :: rest =>
    let store (rep : Replicator) : Replicator × Bool :=
      match rep.log.appendAt record.seq record.term record.command with
      | none =>
        ({ rep with stats := { rep.stats with gapsDetected := rep.stats.gapsDetected + 1 } }, true)
      | some log =>
        { rep with
          log
          stats := { rep.stats with
            entriesReceived := rep.stats.entriesReceived + 1 } }.appendRecords rest
    match rep.log.termAt record.seq with
    | none => store rep
    | some term =>
      if record.seq ≤ rep.log.lastSeq then
        -- Already have exactly this entry.
        if term = record.term then rep.appendRecords rest
        else if record.seq ≤ rep.commitIndex then (rep, false)
        else
          store { rep with
            log := rep.log.truncateFrom record.seq
            stats := { rep.stats with
              conflictingEntriesTruncated :=
                rep.stats.conflictingEntriesTruncated + 1 } }.rebuildFromLog
      else store rep

/-- The commit point a follower adopts from a leader's. -/
def adoptCommit (rep : Replicator) (commitSeq : Nat) : Replicator :=
  if commitSeq > rep.commitIndex then
    { rep with
      commitIndex := min commitSeq rep.log.lastSeq
      stats := { rep.stats with commitAdvances := rep.stats.commitAdvances + 1 } }
  else rep

def handleAppendEntries (rep : Replicator) (net : Transport) (source : NodeId)
    (msg : AppendEntries) : Replicator × Transport :=
  if msg.term < rep.term then
    ({ rep with
        stats := { rep.stats with staleTermRejections := rep.stats.staleTermRejections + 1 } },
      (net.send source (.appendResponse (rep.response false))).1)
  else
    match rep.log.termAt msg.prevSeq with
    | none =>
      ({ rep with stats := { rep.stats with gapsDetected := rep.stats.gapsDetected + 1 } },
        (net.send source (.appendResponse (rep.response false))).1)
    | some prevTerm =>
      if prevTerm ≠ msg.prevTerm then
        ({ rep with
            stats := { rep.stats with logMatchRejections := rep.stats.logMatchRejections + 1 } },
          (net.send source (.appendResponse (rep.response false))).1)
      else
        match rep.appendRecords msg.entries with
        | (rep, false) =>
          -- The refusal leaves the log head out of the response.
          (rep, (net.send source (.appendResponse { rep.response false with lastLogSeq := 0 })).1)
        | (rep, true) =>
          let rep := (rep.adoptCommit msg.commitSeq).applyCommitted
          (rep, (net.send source (.appendResponse (rep.response true))).1)

/-- The state of a backup after its response, whether or not it was known before. -/
def respondent (rep : Replicator) (source : NodeId) (msg : AppendResponse) : BackupState :=
  ((rep.backups.find? source).getD { id := source }).respond msg

/-- The end of `handleAppendResponse`: more to send, or a new commit point to advertise. -/
def followUp (rep : Replicator) (net : Transport) (source : NodeId) (backup : BackupState) :
    Replicator × Transport :=
  if rep.needsAppend backup then
    let (rep, net, backup) := rep.sendAppend net backup
    ({ rep with backups := rep.backups.insert source backup }, net)
  else (rep, net)

def handleAppendResponse (rep : Replicator) (net : Transport) (source : NodeId)
    (msg : AppendResponse) : Replicator × Transport :=
  if msg.term > rep.term then
    ({ rep with
        stats := { rep.stats with staleTermRejections := rep.stats.staleTermRejections + 1 } }, net)
  else
    let backup := rep.respondent source msg
    let rep := { rep with backups := rep.backups.insert source backup }.advanceCommitIndex
    let rep :=
      if backup.lastApplied = rep.lastApplied ∧
          backup.lastChecksum ≠ rep.engine.stateChecksum then
        { rep with
          stats := { rep.stats with checksumMismatches := rep.stats.checksumMismatches + 1 } }
      else rep
    rep.followUp net source backup

def onMessage (rep : Replicator) (net : Transport) (source : NodeId) (msg : Message) :
    Replicator × Transport :=
  match msg with
  | .appendEntries append => rep.handleAppendEntries net source append
  | .appendResponse answer => rep.handleAppendResponse net source answer
  | _ => (rep, net)

/-- Drops the log entries that are committed and applied. -/
def compactLog (rep : Replicator) : Replicator :=
  if rep.role ≠ .primary ∨ rep.backups.isEmpty then rep
  else
    let safe := min rep.commitSeq rep.lastApplied
    if safe = 0 then rep
    else
      let log := rep.log.truncateThrough safe
      { rep with
        log
        stats :=
          if log.entries.length ≠ rep.log.entries.length then
            { rep.stats with logTruncations := rep.stats.logTruncations + 1 }
          else rep.stats }

/-! ### The calls of a caller -/

inductive Call
  | submit (cmd : Command) (link : Link)
  | tick (link : Link)
  | compactLog
  | onPeerUp (id : NodeId) (link : Link)
  | onPeerDown (id : NodeId)
  | setRole (role : Role)
  | setTerm (term : Nat)
  | onMessage (source : NodeId) (msg : Message) (link : Link)

/-- The replicator after a call, and the transport with what the call has sent. -/
def perform (rep : Replicator) : Call → Replicator × Transport
  | .submit cmd link =>
    let (rep, net, _) := rep.submit { link } cmd
    (rep, net)
  | .tick link => rep.tick { link }
  | .compactLog => (rep.compactLog, { link := {} })
  | .onPeerUp id link => rep.onPeerUp { link } id
  | .onPeerDown id => (rep.onPeerDown id, { link := {} })
  | .setRole role => (rep.setRole role, { link := {} })
  | .setTerm term => (rep.setTerm term, { link := {} })
  | .onMessage source msg link => rep.onMessage { link } source msg

end Replicator

end Sententia
