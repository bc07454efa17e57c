/-
**Node programs on a message bus.** Every node runs election, replicator and log as `apps/node` wires them.
Any node ticks, submits, or hears of a peer coming or going; any message in flight is delivered in any order,
lost or duplicated. A step brings the clock value it needs and the link that answers its sends.

Three history variables record what leader completeness is about; nothing reads them.
-/

import Sententia.Library.Campaign
import Sententia.Node.RoleTracking

namespace Sententia

open Library

namespace Node

/-- An event of a running node, and what the node sends. -/
def perform (node : Node) : Event → Node × Transport
  | .message source msg now link => node.onMessage { link } source msg now
  | .tick now link => node.tick { link } now
  | .peerUp peer link => node.onPeerUp { link } peer
  | .peerDown peer => (node.onPeerDown peer, { link := {} })
  | .submit cmd link => node.submit { link } cmd

/-- The entries of the node's log that are of the node's own term. -/
def ownEntries (node : Node) : List LogEntry :=
  node.replicator.log.entries.filter fun entry => entry.term = node.election.currentTerm

end Node

/-- A node has become a leader. -/
structure Crowning where
  term : Nat
  id : NodeId
  /-- The log of the node at that moment. -/
  log : CommandLog
deriving DecidableEq

structure NodeCluster where
  members : List NodeId
  nodes : NodeId → Node
  inFlight : List Envelope := []
  crowned : List Crowning := []
  /-- Which node has stored which entry in the term of that entry. -/
  stored : List (NodeId × LogEntry) := []
  /-- The entries of a leader's own term that more than half of the members held while it was in office. -/
  secured : List LogEntry := []

namespace NodeCluster

inductive Label
  | tick (id : NodeId) (now : Millis) (link : Link)
  | submit (id : NodeId) (cmd : Command) (link : Link)
  | peerUp (id peer : NodeId) (link : Link)
  | peerDown (id peer : NodeId)
  | deliver (index : Nat) (now : Millis) (link : Link)
  | duplicate (index : Nat)
  | lose (index : Nat)

/-- Every member runs the node program. -/
def create (members : List NodeId) (modes : NodeId → ReplicationMode) (windows : NodeId → Nat) :
    NodeCluster where
  members := members
  nodes id := Node.create members id (modes id) (windows id)

/-- More than half of the members. -/
def Most (cluster : NodeCluster) (ids : List NodeId) : Prop :=
  cluster.members.length / 2 < ids.length

/-- Who has the entry in its log. -/
def holders (cluster : NodeCluster) (entry : LogEntry) : List NodeId :=
  cluster.members.filter fun id => (cluster.nodes id).replicator.log.at? entry.seq = some entry

/-- Who has stored the entry in its own term. -/
def keepers (cluster : NodeCluster) (entry : LogEntry) : List NodeId :=
  cluster.members.filter fun id => (id, entry) ∈ cluster.stored

/-- The leaders in office. -/
def leaders (cluster : NodeCluster) : List NodeId :=
  cluster.members.filter fun id => (cluster.nodes id).election.role = .leader

instance (cluster : NodeCluster) (ids : List NodeId) : Decidable (cluster.Most ids) :=
  inferInstanceAs (Decidable (_ < _))

/-- The entries of their own terms that the leaders in office share with more than half of the members. -/
def securing (cluster : NodeCluster) : List LogEntry :=
  cluster.leaders.flatMap fun leader =>
    (cluster.nodes leader).ownEntries.filter fun entry => cluster.Most (cluster.holders entry)

/-- A node moves; what it sent joins the messages in flight. -/
def act (cluster : NodeCluster) (id : NodeId) (result : Node × Transport) : NodeCluster :=
  let cluster' : NodeCluster := { cluster with
    nodes := Function.update cluster.nodes id result.1
    inFlight := cluster.inFlight ++ result.2.outgoing id
    crowned :=
      if result.1.election.role = .leader ∧ (cluster.nodes id).election.role ≠ .leader then
        cluster.crowned ++
          [{ term := result.1.election.currentTerm, id, log := result.1.replicator.log }]
      else cluster.crowned
    stored := cluster.stored ++ result.1.ownEntries.map fun entry => (id, entry) }
  { cluster' with secured := cluster'.secured ++ cluster'.securing }

def step (cluster : NodeCluster) : Label → Option NodeCluster
  | .tick id now link =>
    if id ∈ cluster.members then some (cluster.act id ((cluster.nodes id).perform (.tick now link)))
    else none
  | .submit id cmd link =>
    if id ∈ cluster.members then some (cluster.act id ((cluster.nodes id).perform (.submit cmd link)))
    else none
  | .peerUp id peer link =>
    if id ∈ cluster.members ∧ peer ∈ cluster.members ∧ peer ≠ id then
      some (cluster.act id ((cluster.nodes id).perform (.peerUp peer link)))
    else none
  | .peerDown id peer =>
    if id ∈ cluster.members then some (cluster.act id ((cluster.nodes id).perform (.peerDown peer)))
    else none
  | .deliver index now link => cluster.inFlight[index]?.bind fun envelope =>
    if envelope.target ∈ cluster.members then
      some ({ cluster with inFlight := cluster.inFlight.eraseIdx index }.act envelope.target
        ((cluster.nodes envelope.target).perform
          (.message envelope.source envelope.message now link)))
    else none
  | .duplicate index => cluster.inFlight[index]?.map fun envelope =>
    { cluster with inFlight := cluster.inFlight ++ [envelope] }
  | .lose index =>
    if index < cluster.inFlight.length then
      some { cluster with inFlight := cluster.inFlight.eraseIdx index }
    else none

/-! ### The election restriction -/

/-- **Leader completeness.** Whoever has become a leader had every entry in its log that a leader of an
earlier term appended and, while in office, shared with more than half of the members. -/
def LeaderComplete (cluster : NodeCluster) : Prop :=
  ∀ entry ∈ cluster.secured, ∀ crowning ∈ cluster.crowned, entry.term < crowning.term →
    crowning.log.at? entry.seq = some entry

instance (cluster : NodeCluster) : Decidable cluster.LeaderComplete :=
  inferInstanceAs (Decidable (∀ _ ∈ _, ∀ _ ∈ _, _ → _))

instance (voter candidate : List LogEntry) : Decidable (UpToDate LogEntry.term voter candidate) :=
  inferInstanceAs (Decidable (_ ∨ _))

/-- If the node grants the vote and the candidate still stands for it, the candidate's log is at least as
up to date as the node's. -/
def VotesUpToDate (cluster : NodeCluster) (id : NodeId) (msg : RequestVote) (now : Millis) : Prop :=
  (((cluster.nodes id).election.setLastLogSeq (cluster.nodes id).replicator.log.lastSeq).observeTerm
      msg.term now).1.grants msg = true →
    msg.candidateId ∈ cluster.members → (cluster.nodes msg.candidateId).election.role = .candidate →
      (cluster.nodes msg.candidateId).election.currentTerm = msg.term →
        UpToDate LogEntry.term (cluster.nodes id).replicator.log.entries
          (cluster.nodes msg.candidateId).replicator.log.entries

instance (cluster : NodeCluster) (id : NodeId) (msg : RequestVote) (now : Millis) :
    Decidable (cluster.VotesUpToDate id msg now) :=
  inferInstanceAs (Decidable (_ → _))

/-- The node as its replicator comes to handle a response. -/
def hearing (node : Node) (msg : AppendResponse) (now : Millis) : Node :=
  (node.elect { link := {} } (node.election.onAppendResponse msg.term now)).1.syncTerm

/-- What is asked of a message that is handed to a node. -/
def CarefulDelivery (cluster : NodeCluster) (envelope : Envelope) (now : Millis) (link : Link) : Prop :=
  (cluster.nodes envelope.target).KeepsOffice (.message envelope.source envelope.message now link) ∧
    match envelope.message with
    | .requestVote msg => cluster.VotesUpToDate envelope.target msg now
    | .appendResponse msg =>
      (hearing (cluster.nodes envelope.target) msg now).replicator.Silent link envelope.source msg
    | _ => True

instance (node : Node) : ∀ event, Decidable (node.KeepsOffice event)
  | .message _ (.requestVote rv) now _ =>
    inferInstanceAs (Decidable (node.election.KeepsOffice (.onRequestVote rv now)))
  | .message _ (.voteResponse vr) now _ =>
    inferInstanceAs (Decidable (node.election.KeepsOffice (.onVoteResponse vr now)))
  | .message _ (.appendEntries ae) now _ =>
    inferInstanceAs (Decidable (node.election.KeepsOffice (.onAppendEntries ae.term ae.leaderId now)))
  | .message _ (.appendResponse _) _ _ => isTrue trivial
  | .message _ (.hello _) _ _ => isTrue trivial
  | .message _ (.heartbeat _) _ _ => isTrue trivial
  | .message _ (.commandForward _) _ _ => isTrue trivial
  | .message _ (.eventAck _) _ _ => isTrue trivial
  | .tick _ _ => isTrue trivial
  | .peerUp _ _ => isTrue trivial
  | .peerDown _ => isTrue trivial
  | .submit _ _ => isTrue trivial

instance (cluster : NodeCluster) (envelope : Envelope) (now : Millis) (link : Link) :
    Decidable (cluster.CarefulDelivery envelope now link) := by
  unfold CarefulDelivery
  cases envelope.message <;> infer_instance

/-- No term is about to overflow, votes go to logs that are up to date, no leader hears of a higher term
in anything but a response, and no backup sends on a response. -/
def Careful (cluster : NodeCluster) : Label → Prop
  | .tick id _ _ => (cluster.nodes id).election.currentTerm < 2 ^ 64 - 1
  | .deliver index now link => ∀ envelope ∈ cluster.inFlight[index]?,
      cluster.CarefulDelivery envelope now link
  | _ => True

instance (cluster : NodeCluster) : ∀ label, Decidable (cluster.Careful label)
  | .tick _ _ _ => inferInstanceAs (Decidable (_ < _))
  | .deliver _ _ _ => inferInstanceAs (Decidable (∀ _ ∈ _, _))
  | .submit _ _ _ => isTrue trivial
  | .peerUp _ _ _ => isTrue trivial
  | .peerDown _ _ => isTrue trivial
  | .duplicate _ => isTrue trivial
  | .lose _ => isTrue trivial

/-- What more than half of the members share with a leader in office, more than half of them have stored in
the leader's term. -/
def Attested (cluster : NodeCluster) : Prop :=
  ∀ entry ∈ cluster.securing, cluster.Most (cluster.keepers entry)

instance (cluster : NodeCluster) : Decidable cluster.Attested :=
  inferInstanceAs (Decidable (∀ _ ∈ _, _))

end NodeCluster

end Sententia
