/-
**The messages nodes exchange, and the transport as its callers see it** (`message.hpp`,
`transport.hpp`).

What a send returns, which peers are saturated and which are ready depends on sockets, kernels and
the other end. The model asks a `Link` for these answers: a run picks the link of every step, so that
refused and failed sends happen wherever they can. The transport itself only counts the questions and
keeps what it accepted for sending.
-/

import Sententia.Types

namespace Sententia

abbrev NodeId := UInt32

/-- The most entries one `AppendEntries` carries. -/
def kMaxEntriesPerAppend : Nat := 512

structure Hello where
  nodeId : NodeId
  protocolVersion : UInt16 := 1
  /-- A byte string. -/
  advertisedAddress : List UInt8
deriving Repr, DecidableEq

structure Heartbeat where
  nodeId : NodeId
  counter : UInt64
deriving Repr, DecidableEq

structure CommandForward where
  originNodeId : NodeId
  originSeq : UInt64
  command : Command
deriving Repr, DecidableEq

structure EventAck where
  nodeId : NodeId
  throughEventSeq : UInt64
  stateChecksum : UInt64
deriving Repr, DecidableEq

structure LogRecord where
  seq : Nat
  term : Nat
  command : Command
deriving Repr, DecidableEq

structure AppendEntries where
  term : Nat := 0
  leaderId : NodeId := 0
  prevSeq : Nat := 0
  prevTerm : Nat := 0
  /-- The leader's commit point. -/
  commitSeq : Nat := 0
  entries : List LogRecord := []
deriving Repr, DecidableEq

structure AppendResponse where
  term : Nat := 0
  nodeId : NodeId := 0
  /-- The follower's log head, which is what a majority is counted over. -/
  lastLogSeq : Nat := 0
  ok : Bool := false
  lastApplied : Nat := 0
  stateChecksum : UInt64 := 0
deriving Repr, DecidableEq

structure RequestVote where
  term : Nat
  candidateId : NodeId
  lastLogSeq : Nat
deriving Repr, DecidableEq

structure VoteResponse where
  term : Nat
  voterId : NodeId
  granted : Bool
deriving Repr, DecidableEq

inductive Message
  | hello (msg : Hello)
  | heartbeat (msg : Heartbeat)
  | commandForward (msg : CommandForward)
  | eventAck (msg : EventAck)
  | appendEntries (msg : AppendEntries)
  | appendResponse (msg : AppendResponse)
  | requestVote (msg : RequestVote)
  | voteResponse (msg : VoteResponse)
deriving Repr, DecidableEq

/-- A message on its way. -/
structure Envelope where
  source : NodeId
  target : NodeId
  message : Message
deriving Repr, DecidableEq

inductive SendResult
  | ok
  | notConnected
  | wouldOverflow
deriving Repr, DecidableEq

/-- The environment's answers to one node during one step, by the number of sends tried so far. -/
structure Link where
  sendResult : Nat → SendResult := fun _ => .ok
  saturated : Nat → NodeId → Bool := fun _ _ => false
  ready : Nat → NodeId → Bool := fun _ _ => true

/-- The transport of a node during one step. -/
structure Transport where
  link : Link
  attempts : Nat := 0
  /-- What has been accepted for sending, oldest first. -/
  sent : List (NodeId × Message) := []

namespace Transport

def send (net : Transport) (target : NodeId) (msg : Message) : Transport × SendResult :=
  match net.link.sendResult net.attempts with
  | .ok => ({ net with attempts := net.attempts + 1, sent := net.sent ++ [(target, msg)] }, .ok)
  | refused => ({ net with attempts := net.attempts + 1 }, refused)

def isSaturated (net : Transport) (id : NodeId) : Bool := net.link.saturated net.attempts id

def isReady (net : Transport) (id : NodeId) : Bool := net.link.ready net.attempts id

/-- A send adds its message or nothing. -/
theorem sent_send (net : Transport) (target : NodeId) (msg : Message) :
    ((net.send target msg).2 = .ok ∧ (net.send target msg).1.sent = net.sent ++ [(target, msg)]) ∨
      ((net.send target msg).2 ≠ .ok ∧ (net.send target msg).1.sent = net.sent) := by
  unfold send
  cases net.link.sendResult net.attempts with
  | ok => exact Or.inl ⟨rfl, rfl⟩
  | notConnected => exact Or.inr ⟨nofun, rfl⟩
  | wouldOverflow => exact Or.inr ⟨nofun, rfl⟩

/-- The messages of a transport as envelopes from its node. -/
def outgoing (net : Transport) (source : NodeId) : List Envelope :=
  net.sent.map fun (target, message) => { source, target, message }

end Transport

end Sententia
