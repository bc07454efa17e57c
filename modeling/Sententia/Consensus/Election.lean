/-
**Raft-style leader election** (`election.hpp`, `election.cpp`): a pure state machine. Time arrives as
a parameter, messages as calls, and what it wants done comes back as a list of actions.

Terms are 64-bit in the source; `++currentTerm_` is the only place that could wrap and is written with
the modulus. Clock readings and the generator state are the fixed-width integers of the source.
-/

import Mathlib.Algebra.Group.Nat.Defs
import Sententia.Net.Message

namespace Sententia

abbrev Millis := UInt64

inductive NodeRole
  | follower
  | candidate
  | leader
deriving Repr, DecidableEq, Inhabited

structure ElectionConfig where
  heartbeatInterval : Millis := 50
  electionTimeoutMin : Millis := 150
  electionTimeoutMax : Millis := 300
  randomSeed : UInt64 := 1
deriving Repr, DecidableEq

/-- Something the state machine wants done. -/
inductive Action
  | sendRequestVote (target : NodeId) (term lastLogSeq : Nat)
  | sendVoteResponse (target : NodeId) (term : Nat) (voteGranted : Bool)
  | sendHeartbeat (target : NodeId) (term : Nat)
  | becameLeader (term : Nat)
  | steppedDown (term : Nat)
deriving Repr, DecidableEq

abbrev ActionList := List Action

structure ElectionStats where
  electionsStarted : Nat := 0
  electionsWon : Nat := 0
  electionsLostToHigherTerm : Nat := 0
  votesGranted : Nat := 0
  votesRefused : Nat := 0
  votesRefusedStaleLog : Nat := 0
  stepDowns : Nat := 0
  heartbeatsSent : Nat := 0
  highestTermSeen : Nat := 0
deriving Repr, DecidableEq

structure Election where
  self : NodeId
  /-- Everyone else. -/
  peers : List NodeId
  config : ElectionConfig
  role : NodeRole := .follower
  currentTerm : Nat := 0
  votedFor : Option NodeId := none
  leaderId : Option NodeId := none
  lastLogSeq : Nat := 0
  lastHeardFromLeader : Millis := 0
  electionTimeout : Millis := 0
  lastHeartbeatSent : Millis := 0
  votesGranted : List NodeId := []
  rngState : UInt64 := 0
  stats : ElectionStats := {}
deriving Repr, DecidableEq

namespace Election

def clusterSize (node : Election) : Nat := node.peers.length + 1

/-- Strict majority: more than half. -/
def majority (node : Election) : Nat := node.clusterSize / 2 + 1

def nextRandom (node : Election) : Election × UInt64 :=
  let rngState := node.rngState * 6364136223846793005 + 1442695040888963407
  ({ node with rngState }, rngState >>> 17)

def resetElectionTimer (node : Election) (now : Millis) : Election :=
  let node := { node with lastHeardFromLeader := now }
  let span := node.config.electionTimeoutMax - node.config.electionTimeoutMin
  if span = 0 then { node with electionTimeout := node.config.electionTimeoutMin }
  else
    let (node, random) := node.nextRandom
    { node with electionTimeout := node.config.electionTimeoutMin + random % (span + 1) }

/-- The constructor. -/
def create (self : NodeId) (peers : List NodeId) (config : ElectionConfig) : Election :=
  let rngState := config.randomSeed ^^^ (self.toUInt64 + 0x9E3779B97F4A7C15)
  ({ self, peers, config, rngState } : Election).resetElectionTimer 0

def setLastLogSeq (node : Election) (seq : Nat) : Election := { node with lastLogSeq := seq }

/-- Adopts a strictly higher term and steps down; tells whether it did. -/
def observeTerm (node : Election) (term : Nat) (now : Millis) : Election × Bool :=
  if term ≤ node.currentTerm then (node, false)
  else
    ({ node with
        currentTerm := term
        votedFor := none
        role := .follower
        leaderId := none
        votesGranted := []
        stats := { node.stats with
          highestTermSeen := max node.stats.highestTermSeen term
          stepDowns :=
            if node.role = NodeRole.leader then node.stats.stepDowns + 1
            else node.stats.stepDowns } }.resetElectionTimer now, true)

def becomeFollower (node : Election) (term : Nat) (leader : Option NodeId) (now : Millis) :
    Election :=
  { node with
    role := .follower
    currentTerm := term
    leaderId := leader
    votesGranted := []
    stats := { node.stats with
      stepDowns :=
        if node.role = NodeRole.leader then node.stats.stepDowns + 1
        else node.stats.stepDowns } }.resetElectionTimer now

def broadcastHeartbeat (node : Election) (now : Millis) : Election × ActionList :=
  ({ node with
      lastHeartbeatSent := now
      stats := { node.stats with
        heartbeatsSent := node.stats.heartbeatsSent + node.peers.length } },
    node.peers.map fun peer => .sendHeartbeat peer node.currentTerm)

def becomeLeader (node : Election) (now : Millis) : Election × ActionList :=
  let node := { node with
    role := .leader
    leaderId := some node.self
    lastHeartbeatSent := now
    stats := { node.stats with electionsWon := node.stats.electionsWon + 1 } }
  let (node, heartbeats) := node.broadcastHeartbeat now
  (node, .becameLeader node.currentTerm :: heartbeats)

/-- `++currentTerm_`. -/
def nextTerm (term : Nat) : Nat := (term + 1) % 2 ^ 64

/-- The first half of `becomeCandidate`: a new term, and the node's own vote. -/
def standing (node : Election) (now : Millis) : Election :=
  { node with
    currentTerm := nextTerm node.currentTerm
    role := .candidate
    leaderId := none
    votedFor := some node.self
    votesGranted := [node.self]
    stats := { node.stats with
      highestTermSeen := max node.stats.highestTermSeen (nextTerm node.currentTerm)
      electionsStarted := node.stats.electionsStarted + 1 } }.resetElectionTimer now

def becomeCandidate (node : Election) (now : Millis) : Election × ActionList :=
  let node := node.standing now
  if node.votesGranted.length ≥ node.majority then node.becomeLeader now
  else
    (node, node.peers.map fun peer => .sendRequestVote peer node.currentTerm node.lastLogSeq)

def tick (node : Election) (now : Millis) : Election × ActionList :=
  if node.role = .leader then
    if now - node.lastHeartbeatSent ≥ node.config.heartbeatInterval then node.broadcastHeartbeat now
    else (node, [])
  else if now - node.lastHeardFromLeader ≥ node.electionTimeout then node.becomeCandidate now
  else (node, [])

/-- Whether a vote request is granted, once its term has been observed. -/
def grants (node : Election) (msg : RequestVote) : Bool :=
  msg.term ≥ node.currentTerm ∧ (node.votedFor = none ∨ node.votedFor = some msg.candidateId) ∧
    msg.lastLogSeq ≥ node.lastLogSeq

/-- `onRequestVote` once the term of the message has been observed. -/
def answerVote (node : Election) (msg : RequestVote) (now : Millis) : Election × ActionList :=
  if node.grants msg then
    let node := { node with votedFor := some msg.candidateId }.resetElectionTimer now
    ({ node with stats := { node.stats with votesGranted := node.stats.votesGranted + 1 } },
      [.sendVoteResponse msg.candidateId node.currentTerm true])
  else
    -- Only the log check, the last of the three, has a counter of its own.
    let staleLog := msg.term ≥ node.currentTerm ∧
      (node.votedFor = none ∨ node.votedFor = some msg.candidateId)
    ({ node with stats := { node.stats with
        votesRefused := node.stats.votesRefused + 1
        votesRefusedStaleLog :=
          if staleLog then node.stats.votesRefusedStaleLog + 1
          else node.stats.votesRefusedStaleLog } },
      [.sendVoteResponse msg.candidateId node.currentTerm false])

def onRequestVote (node : Election) (msg : RequestVote) (now : Millis) : Election × ActionList :=
  (node.observeTerm msg.term now).1.answerVote msg now

/-- `onVoteResponse` for a message of no higher term. -/
def countVote (node : Election) (msg : VoteResponse) (now : Millis) : Election × ActionList :=
  if node.role ≠ .candidate ∨ msg.term ≠ node.currentTerm then (node, [])
  else if ¬ msg.granted then (node, [])
  -- A duplicated response must not count twice.
  else if msg.voterId ∈ node.votesGranted then (node, [])
  else
    let node := { node with votesGranted := node.votesGranted ++ [msg.voterId] }
    if node.votesGranted.length ≥ node.majority then node.becomeLeader now else (node, [])

def onVoteResponse (node : Election) (msg : VoteResponse) (now : Millis) : Election × ActionList :=
  match node.observeTerm msg.term now with
  | (node, true) =>
    ({ node with stats := { node.stats with
        electionsLostToHigherTerm := node.stats.electionsLostToHigherTerm + 1 } }, [])
  | (node, false) => node.countVote msg now

/-- `onAppendEntries` once the term of the message has been observed. -/
def hearLeader (node : Election) (term : Nat) (leaderId : NodeId) (now : Millis) :
    Election × ActionList :=
  if node.role ≠ .follower then
    (node.becomeFollower term (some leaderId) now,
      if node.role = .leader then [.steppedDown term] else [])
  else ({ node with leaderId := some leaderId }.resetElectionTimer now, [])

def onAppendEntries (node : Election) (term : Nat) (leaderId : NodeId) (now : Millis) :
    Election × ActionList :=
  if term < node.currentTerm then (node, [])
  else (node.observeTerm term now).1.hearLeader term leaderId now

def onAppendResponse (node : Election) (term : Nat) (now : Millis) : Election × ActionList :=
  match node.observeTerm term now with
  | (node, true) => (node, [.steppedDown term])
  | (node, false) => (node, [])

/-- Wipes volatile state as though the process had restarted. -/
def resetVolatileState (node : Election) : Election :=
  { node with
    role := .follower
    leaderId := none
    votesGranted := []
    currentTerm := 0
    votedFor := none
    lastHeardFromLeader := 0
    lastHeartbeatSent := 0 }

/-! ### The calls of a caller -/

inductive Call
  | tick (now : Millis)
  | onRequestVote (msg : RequestVote) (now : Millis)
  | onVoteResponse (msg : VoteResponse) (now : Millis)
  | onAppendEntries (term : Nat) (leaderId : NodeId) (now : Millis)
  | onAppendResponse (term : Nat) (now : Millis)
  | setLastLogSeq (seq : Nat)
deriving Repr, DecidableEq

def perform (node : Election) : Call → Election × ActionList
  | .tick now => node.tick now
  | .onRequestVote msg now => node.onRequestVote msg now
  | .onVoteResponse msg now => node.onVoteResponse msg now
  | .onAppendEntries term leaderId now => node.onAppendEntries term leaderId now
  | .onAppendResponse term now => node.onAppendResponse term now
  | .setLastLogSeq seq => (node.setLastLogSeq seq, [])

def isLeader (node : Election) : Bool := node.role = .leader

end Election

end Sententia
