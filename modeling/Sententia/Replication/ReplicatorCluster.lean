/-
**Replicators on a message bus.** Any member submits, ticks, compacts its log, hears of peers coming and
going, is given a term or a role; any message in flight is delivered in any order, lost or duplicated.
Every step that may send brings the link that answers its sends, so sends are refused or fail
wherever a run says so.

Three history variables record what the steps did; nothing reads them.
-/

import Mathlib.Logic.Function.Basic
import Sententia.Library.Transition
import Sententia.Replication.Replicator

namespace Sententia

open Library

structure ReplicatorCluster where
  members : List NodeId
  nodes : NodeId → Replicator
  inFlight : List Envelope := []
  /-- The commands that were accepted, oldest first. -/
  accepted : List Command := []
  /-- Who was made primary in which term. -/
  tenures : List (Nat × NodeId) := []
  /-- Who has accepted entries from the leader of which term. -/
  taken : List (NodeId × Nat) := []

namespace ReplicatorCluster

inductive Label
  | submit (id : NodeId) (cmd : Command) (link : Link)
  | tick (id : NodeId) (link : Link)
  | compactLog (id : NodeId)
  | peerUp (id peer : NodeId) (link : Link)
  | peerDown (id peer : NodeId)
  | setTerm (id : NodeId) (term : Nat)
  | setRole (id : NodeId) (role : Role)
  | deliver (index : Nat) (link : Link)
  | duplicate (index : Nat)
  | lose (index : Nat)

/-- A node moves; what it sent joins the messages in flight. -/
def act (cluster : ReplicatorCluster) (id : NodeId) (result : Replicator × Transport) :
    ReplicatorCluster :=
  { cluster with
    nodes := Function.update cluster.nodes id result.1
    inFlight := cluster.inFlight ++ result.2.outgoing id }

/-- Whether a node takes the entries of an `AppendEntries` that has some. -/
def takes (rep : Replicator) (msg : AppendEntries) : Bool :=
  msg.entries ≠ [] ∧ rep.term ≤ msg.term ∧ rep.log.termAt msg.prevSeq = some msg.prevTerm ∧
    (rep.appendRecords msg.entries).2

/-- The record of a delivery. -/
def noteTaken (cluster : ReplicatorCluster) (envelope : Envelope) : List (NodeId × Nat) :=
  match envelope.message with
  | .appendEntries msg =>
    if takes (cluster.nodes envelope.target) msg then cluster.taken ++ [(envelope.target, msg.term)]
    else cluster.taken
  | _ => cluster.taken

def step (cluster : ReplicatorCluster) : Label → Option ReplicatorCluster
  | .submit id cmd link =>
    if id ∈ cluster.members then
      let result := (cluster.nodes id).submit { link } cmd
      some { cluster.act id (result.1, result.2.1) with
        accepted :=
          if result.2.2.status = .accepted then cluster.accepted ++ [cmd] else cluster.accepted }
    else none
  | .tick id link =>
    if id ∈ cluster.members then some (cluster.act id ((cluster.nodes id).tick { link })) else none
  | .compactLog id =>
    if id ∈ cluster.members then
      some (cluster.act id ((cluster.nodes id).compactLog, { link := {} }))
    else none
  | .peerUp id peer link =>
    if id ∈ cluster.members ∧ peer ∈ cluster.members ∧ peer ≠ id then
      some (cluster.act id ((cluster.nodes id).onPeerUp { link } peer))
    else none
  | .peerDown id peer =>
    if id ∈ cluster.members then
      some (cluster.act id ((cluster.nodes id).onPeerDown peer, { link := {} }))
    else none
  | .setTerm id term =>
    if id ∈ cluster.members then
      some (cluster.act id ((cluster.nodes id).setTerm term, { link := {} }))
    else none
  | .setRole id role =>
    if id ∈ cluster.members then
      some { cluster.act id ((cluster.nodes id).setRole role, { link := {} }) with
        tenures :=
          if role = .primary ∧ (cluster.nodes id).role ≠ .primary then
            cluster.tenures ++ [((cluster.nodes id).term, id)]
          else cluster.tenures }
    else none
  | .deliver index link => cluster.inFlight[index]?.bind fun envelope =>
    if envelope.target ∈ cluster.members then
      some { { cluster with inFlight := cluster.inFlight.eraseIdx index }.act envelope.target
          ((cluster.nodes envelope.target).onMessage { link } envelope.source envelope.message) with
        taken := cluster.noteTaken envelope }
    else none
  | .duplicate index => cluster.inFlight[index]?.map fun envelope =>
    { cluster with inFlight := cluster.inFlight ++ [envelope] }
  | .lose index =>
    if index < cluster.inFlight.length then
      some { cluster with inFlight := cluster.inFlight.eraseIdx index }
    else none

theorem members_step {cluster next : ReplicatorCluster} {label : Label}
    (enabled : cluster.step label = some next) : next.members = cluster.members := by
  cases label with
  | peerUp id peer link =>
    obtain ⟨_, moved⟩ := Option.ite_none_right_eq_some.mp enabled
    rw [← Option.some.inj moved]
    rfl
  | deliver index link =>
    obtain ⟨envelope, _, enabled'⟩ := Option.bind_eq_some_iff.mp enabled
    obtain ⟨_, moved⟩ := Option.ite_none_right_eq_some.mp enabled'
    rw [← Option.some.inj moved]
    rfl
  | duplicate index =>
    obtain ⟨envelope, _, moved⟩ := Option.map_eq_some_iff.mp enabled
    rw [← moved]
  | lose index =>
    obtain ⟨_, moved⟩ := Option.ite_none_right_eq_some.mp enabled
    rw [← Option.some.inj moved]
  | _ =>
    obtain ⟨_, moved⟩ := Option.ite_none_right_eq_some.mp enabled
    rw [← Option.some.inj moved]
    rfl

/-- An order that rests, for sample runs. -/
def restingSell (id : OrderId) : Command :=
  .newOrder { id, instrument := 1, side := .sell, type := .limit, tif := .goodTillCancel,
              price := 100, quantity := 5 }

end ReplicatorCluster

end Sententia
