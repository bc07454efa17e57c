/-
**The node program** (`apps/node/main.cpp`) as it runs with `--elect`: one election, one replicator over
one log and one engine, and the glue between them. The election owns the term; it is told the log head
before every tick and every vote request, its actions are performed by `runActions`, and the replicator
learns the term before it sees a replication message.

A send that finds its connection dead drops the peer from within; here a disconnect is an event of its
own. The order file, the counters and the exit conditions of the main loop are left out: a submit is an
event too.
-/

import Sententia.Consensus.Election
import Sententia.Replication.Replicator

namespace Sententia

def kInstrument : InstrumentId := 1

structure Node where
  /-- Everyone else in the configuration. -/
  peerIds : List NodeId
  election : Election
  replicator : Replicator

namespace Node

/-- The construction in `main`. Nobody starts as primary; the replicator's cluster size is not set. -/
def create (members : List NodeId) (selfId : NodeId) (mode : ReplicationMode) (syncWindow : Nat) :
    Node :=
  let peerIds := members.filter (· != selfId)
  { peerIds
    election := Election.create selfId peerIds { randomSeed := 0x9E3779B9 * (selfId + 1).toUInt64 }
    replicator := ({ self := selfId, role := .backup, mode, engine := { instrument := kInstrument } } :
      Replicator).setSyncWindow syncWindow }

/-- One iteration of `runActions`. -/
def runAction (node : Node) (net : Transport) : Action → Node × Transport
  | .sendRequestVote target term lastLogSeq =>
    (node, (net.send target
      (.requestVote { term, candidateId := node.election.self, lastLogSeq })).1)
  | .sendVoteResponse target term granted =>
    (node, (net.send target (.voteResponse { term, voterId := node.election.self, granted })).1)
  -- An empty `AppendEntries` is the heartbeat; its `prevTerm` is left at zero.
  | .sendHeartbeat target term =>
    (node, (net.send target (.appendEntries
      { term
        leaderId := node.election.self
        prevSeq := node.replicator.log.lastSeq
        commitSeq := node.replicator.commitSeq })).1)
  | .becameLeader term =>
    let (replicator, net) := node.peerIds.foldl
      (fun (replicator, net) peer =>
        if net.isReady peer then replicator.onPeerUp net peer else (replicator, net))
      ((node.replicator.setTerm term).setRole .primary, net)
    ({ node with replicator }, net)
  | .steppedDown term =>
    ({ node with replicator := (node.replicator.setTerm term).setRole .backup }, net)

/-- Performs whatever the election asked for. -/
def runActions (node : Node) (net : Transport) : ActionList → Node × Transport
  | [] => (node, net)
  | action :: rest =>
    let (node, net) := node.runAction net action
    node.runActions net rest

/-- The election has moved and its actions are performed. -/
def elect (node : Node) (net : Transport) (result : Election × ActionList) : Node × Transport :=
  { node with election := result.1 }.runActions net result.2

/-- The replicator learns the election's term. -/
def syncTerm (node : Node) : Node :=
  { node with replicator := node.replicator.setTerm node.election.currentTerm }

/-- The handler of `transport.onMessage`. -/
def onMessage (node : Node) (net : Transport) (source : NodeId) (msg : Message) (now : Millis) :
    Node × Transport :=
  match msg with
  | .requestVote rv =>
    node.elect net ((node.election.setLastLogSeq node.replicator.log.lastSeq).onRequestVote rv now)
  | .voteResponse vr => node.elect net (node.election.onVoteResponse vr now)
  | .appendEntries ae =>
    let (node, net) := node.elect net (node.election.onAppendEntries ae.term ae.leaderId now)
    let node := node.syncTerm
    let (replicator, net) := node.replicator.onMessage net source msg
    ({ node with replicator }, net)
  | .appendResponse ar =>
    let (node, net) := node.elect net (node.election.onAppendResponse ar.term now)
    let node := node.syncTerm
    let (replicator, net) := node.replicator.onMessage net source msg
    ({ node with replicator }, net)
  | _ => (node, net)

/-- The ticks of one cycle of the main loop. -/
def tick (node : Node) (net : Transport) (now : Millis) : Node × Transport :=
  let (node, net) := node.elect net
    ((node.election.setLastLogSeq node.replicator.log.lastSeq).tick now)
  let node := node.syncTerm
  let (replicator, net) := node.replicator.tick net
  ({ node with replicator }, net)

def onPeerUp (node : Node) (net : Transport) (peer : NodeId) : Node × Transport :=
  let (replicator, net) := node.replicator.onPeerUp net peer
  ({ node with replicator }, net)

def onPeerDown (node : Node) (peer : NodeId) : Node :=
  { node with replicator := node.replicator.onPeerDown peer }

/-- The main loop submits on a primary only. -/
def submit (node : Node) (net : Transport) (cmd : Command) : Node × Transport :=
  if node.replicator.role = .primary then
    let (replicator, net, _) := node.replicator.submit net cmd
    ({ node with replicator }, net)
  else (node, net)

end Node

end Sententia
