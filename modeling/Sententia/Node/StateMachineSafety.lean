/-
**Which commands the members apply.** Votes go by the length of a log, and so two nodes come to apply different
commands at one sequence number. In clusters of four or fewer no two do, in every run in which no step takes one
of the node program's wrong turns (`stateMachineSafety`); in a cluster of five, two may even then
(`applied_apart`).

Two nodes commit an entry, whatever the size of the cluster. That they are two, and members, has to be known of a
run: only other members are filed as backups (`Filed`), for nobody answers a message of its own (`Wired`).
-/

import Sententia.Node.CommitQuorum
import Sententia.Node.CommittedEntries
import Sententia.Replication.Amplification
import Sententia.Replication.OnlyPrimary

namespace Sententia

open Library

/-- Log entries and what is answered to them go to other nodes. -/
def Elsewhere (id : NodeId) (message : NodeId × Message) : Prop :=
  match message.2 with
  | .appendEntries _ | .appendResponse _ => message.1 ≠ id
  | _ => True

theorem Elsewhere.of_ne {id : NodeId} {message : NodeId × Message} (other : message.1 ≠ id) :
    Elsewhere id message := by
  obtain ⟨target, content⟩ := message
  cases content with
  | appendEntries msg => exact other
  | appendResponse msg => exact other
  | _ => trivial

namespace Transport

variable {id : NodeId}

/-- All that has been sent goes elsewhere. -/
def Addressed (id : NodeId) (net : Transport) : Prop := ∀ message ∈ net.sent, Elsewhere id message

theorem addressed_start (id : NodeId) (link : Link) : ({ link } : Transport).Addressed id :=
  fun _ isSent => nomatch isSent

theorem Addressed.send {net : Transport} (addressed : net.Addressed id) {target : NodeId} {message : Message}
    (other : Elsewhere id (target, message)) : (net.send target message).1.Addressed id := by
  intro sent isSent
  rcases net.sent_send target message with ⟨_, grown⟩ | ⟨_, same⟩
  · rw [grown] at isSent
    rcases List.mem_append.mp isSent with old | new
    · exact addressed sent old
    · rw [List.mem_singleton.mp new]
      exact other
  · rw [same] at isSent
    exact addressed sent isSent

end Transport

namespace Replicator

variable {members : List NodeId} {id : NodeId} {rep rep' : Replicator} {net net' : Transport}

/-- Only other members are filed, each under its own id. -/
structure Filed (members : List NodeId) (id : NodeId) (rep : Replicator) : Prop where
  built : Node.Built members id rep
  kept : rep.Kept

namespace Filed

/-- A call that comes with a fresh transport. -/
theorem call (filed : rep.Filed members id) {request : Node.Call}
    (enabled : Node.call members id rep request = some rep') : rep'.Filed members id := by
  refine ⟨filed.built.call enabled, ?_⟩
  cases request with
  | setTerm term =>
    obtain rfl := Option.some.inj enabled
    exact filed.kept.perform (.setTerm term)
  | setRole role =>
    obtain rfl := Option.some.inj enabled
    exact filed.kept.perform (.setRole role)
  | peerUp peer link =>
    obtain ⟨_, moved⟩ := Option.ite_none_right_eq_some.mp enabled
    obtain rfl := Option.some.inj moved
    exact filed.kept.perform (.onPeerUp peer link)
  | peerDown peer =>
    obtain rfl := Option.some.inj enabled
    exact filed.kept.perform (.onPeerDown peer)
  | tick link =>
    obtain rfl := Option.some.inj enabled
    exact filed.kept.perform (.tick link)
  | submit cmd link =>
    obtain rfl := Option.some.inj enabled
    exact filed.kept.perform (.submit cmd link)
  | message source msg link =>
    obtain ⟨_, moved⟩ := Option.ite_none_right_eq_some.mp enabled
    obtain rfl := Option.some.inj moved
    exact filed.kept.perform (.onMessage source msg link)

/-- What is sent goes to the backups. -/
theorem sends (filed : rep.Filed members id) (sends : rep.Sends net rep' net') (addressed : net.Addressed id) :
    rep'.Filed members id ∧ net'.Addressed id := by
  have log : rep'.log = rep.log := congrArg (·.log) sends.frame
  refine ⟨⟨filed.built.of_sends sends, sends.named filed.kept.named, log ▸ filed.kept.fromOne⟩, ?_⟩
  intro message isSent
  rcases sends.sent message isSent with before | ⟨_, _, _, toBackup⟩
  · exact addressed message before
  · obtain ⟨backup, found⟩ := toBackup filed.kept.named
    exact .of_ne (filed.built.peers _ backup found).2

theorem onPeerUp (filed : rep.Filed members id) {peer : NodeId} (known : peer ∈ members ∧ peer ≠ id)
    (addressed : net.Addressed id) :
    (rep.onPeerUp net peer).1.Filed members id ∧ (rep.onPeerUp net peer).2.Addressed id := by
  by_cases leading : rep.role = .primary
  · have greeted : (rep.greet peer).Filed members id :=
      ⟨⟨filed.built.self, filed.built.size, filed.built.peers.insert known⟩, filed.kept.greet peer⟩
    exact greeted.sends (onPeerUp_sends leading net peer) addressed
  · rw [onPeerUp_idle leading]
    exact ⟨filed, addressed⟩

theorem greetReady {peers : List NodeId} (filed : rep.Filed members id)
    (known : ∀ peer ∈ peers, peer ∈ members ∧ peer ≠ id) (addressed : net.Addressed id) :
    let result := peers.foldl (fun (rep, net) peer =>
      if net.isReady peer then rep.onPeerUp net peer else (rep, net)) (rep, net)
    result.1.Filed members id ∧ result.2.Addressed id := by
  induction peers generalizing rep net with
  | nil => exact ⟨filed, addressed⟩
  | cons peer rest ih =>
    obtain ⟨first, others⟩ := List.forall_mem_cons.mp known
    have once : (if net.isReady peer then rep.onPeerUp net peer else (rep, net)).1.Filed members id ∧
        (if net.isReady peer then rep.onPeerUp net peer else (rep, net)).2.Addressed id := by
      split_ifs
      · exact filed.onPeerUp first addressed
      · exact ⟨filed, addressed⟩
    exact ih once.1 others once.2

theorem submit (filed : rep.Filed members id) (cmd : Command) (link : Link) :
    (rep.submit { link } cmd).1.Filed members id ∧ (rep.submit { link } cmd).2.1.Addressed id := by
  have start := Transport.addressed_start id link
  rcases rep.submit_cases { link } cmd with ⟨sends, _⟩ | ⟨_, sends, _⟩
  · exact filed.sends sends start
  · have accepted : (rep.accept cmd).Filed members id := by
      refine ⟨?_, filed.kept.accept cmd⟩
      obtain ⟨_, _, _, _, _, accepts⟩ := rep.accept_frame cmd
      rw [accepts]
      exact ⟨filed.built.self, filed.built.size, filed.built.peers⟩
    exact accepted.sends sends start

/-- The answer goes back to where the message came from. -/
theorem onMessage (filed : rep.Filed members id) {source : NodeId} (known : source ∈ members ∧ source ≠ id)
    (msg : Message) (link : Link) :
    (rep.onMessage { link } source msg).1.Filed members id ∧
      (rep.onMessage { link } source msg).2.Addressed id := by
  have start := Transport.addressed_start id link
  cases msg with
  | appendEntries append =>
    have handled : Node.call members id rep (.message source (.appendEntries append) link) = some _ :=
      if_pos known
    refine ⟨filed.call handled, ?_⟩
    obtain ⟨answer, replies⟩ := rep.handleAppendEntries_replies link source append
    show (rep.handleAppendEntries { link } source append).2.Addressed id
    rw [replies]
    exact start.send known.2
  | appendResponse answer =>
    rcases rep.handleAppendResponse_cases { link } source answer with ⟨_, sends, _⟩ | ⟨_, stats, sends, _⟩
    · exact filed.sends sends start
    · have noted : ({ rep.noteResponse source answer with stats } : Replicator).Filed members id := by
        obtain ⟨named, fromOne⟩ := filed.kept.noteResponse source answer
        refine ⟨?_, ⟨named, fromOne⟩⟩
        obtain ⟨_, _, _, _, _, _, advanced⟩ := (rep.noted source answer).advanceCommitIndex_frame
        have same : rep.noteResponse source answer = _ := advanced
        rw [same]
        exact ⟨filed.built.self, filed.built.size, filed.built.peers.insert known⟩
      exact noted.sends sends start
  | _ => exact ⟨filed, start⟩

end Filed

end Replicator

namespace Node

variable {members : List NodeId} {id : NodeId} {node : Node} {net : Transport}

/-- A node that writes to other members only. -/
structure Placed (members : List NodeId) (id : NodeId) (node : Node) : Prop where
  filed : node.replicator.Filed members id
  peerIds : ∀ peer ∈ node.peerIds, peer ∈ members ∧ peer ≠ id
  peers : ∀ peer ∈ node.election.peers, peer ≠ id

namespace Placed

/-- The replicator has moved. -/
theorem replicate (placed : node.Placed members id) {replicator : Replicator}
    (filed : replicator.Filed members id) : ({ node with replicator } : Node).Placed members id :=
  { placed with filed }

theorem syncTerm (placed : node.Placed members id) : node.syncTerm.Placed members id :=
  placed.replicate (placed.filed.call (show call members id node.replicator (.setTerm _) = some _ from rfl))

/-- One action. -/
theorem runAction (placed : node.Placed members id) (addressed : net.Addressed id) {action : Action}
    (heartbeat : ∀ {target term}, action = .sendHeartbeat target term → target ≠ id) :
    (node.runAction net action).1.Placed members id ∧ (node.runAction net action).2.Addressed id := by
  have settled : ∀ term role, ((node.replicator.setTerm term).setRole role).Filed members id := by
    intro term role
    have told : (node.replicator.setTerm term).Filed members id :=
      placed.filed.call (show call members id node.replicator (.setTerm term) = some _ from rfl)
    exact told.call (show call members id _ (.setRole role) = some _ from rfl)
  cases action with
  | sendRequestVote target term lastLogSeq => exact ⟨placed, addressed.send trivial⟩
  | sendVoteResponse target term granted => exact ⟨placed, addressed.send trivial⟩
  | sendHeartbeat target term => exact ⟨placed, addressed.send (heartbeat rfl)⟩
  | becameLeader term =>
    obtain ⟨filed, sent⟩ := (settled term .primary).greetReady placed.peerIds addressed
    exact ⟨placed.replicate filed, sent⟩
  | steppedDown term => exact ⟨placed.replicate (settled term .backup), addressed⟩

theorem runActions {actions : ActionList} (placed : node.Placed members id) (addressed : net.Addressed id)
    (heartbeats : ∀ {target term}, .sendHeartbeat target term ∈ actions → target ≠ id) :
    (node.runActions net actions).1.Placed members id ∧ (node.runActions net actions).2.Addressed id := by
  induction actions generalizing node net with
  | nil => exact ⟨placed, addressed⟩
  | cons action rest ih =>
    obtain ⟨placed', addressed'⟩ := placed.runAction addressed fun {target term} same =>
      @heartbeats target term (List.mem_cons.mpr (Or.inl same.symm))
    exact ih placed' addressed' fun member => heartbeats (List.mem_cons_of_mem _ member)

/-- The election has moved and its actions are performed. -/
theorem elect (placed : node.Placed members id) {result : Election × ActionList}
    (addresses : node.election.Addresses result) (link : Link) :
    (node.elect { link } result).1.Placed members id ∧ (node.elect { link } result).2.Addressed id := by
  have moved : ({ node with election := result.1 } : Node).Placed members id :=
    { placed with peers := fun peer isPeer => placed.peers peer (addresses.peers ▸ isPeer) }
  exact moved.runActions (Transport.addressed_start id link) fun member =>
    placed.peers _ (addresses.heartbeats member)

/-- Handling a response, the node learns of its term. -/
theorem hearing (placed : node.Placed members id) (msg : AppendResponse) (now : Millis) :
    (NodeCluster.hearing node msg now).Placed members id :=
  (placed.elect (node.election.onAppendResponse_addresses msg.term now) {}).1.syncTerm

/-- **A message is handled.** -/
theorem onMessage (placed : node.Placed members id) {source : NodeId} {msg : Message}
    (member : source ∈ members) (elsewhere : Elsewhere source (id, msg)) (now : Millis) (link : Link) :
    (node.onMessage { link } source msg now).1.Placed members id ∧
      (node.onMessage { link } source msg now).2.Addressed id := by
  cases msg with
  | requestVote rv =>
    have addresses := ((node.election.setLastLogSeq node.replicator.log.lastSeq).onRequestVote_addresses
      rv now).of_setLastLogSeq
    exact placed.elect addresses link
  | voteResponse vr => exact placed.elect (node.election.onVoteResponse_addresses vr now) link
  | appendEntries ae =>
    obtain ⟨placed', _⟩ := placed.elect (node.election.onAppendEntries_addresses ae.term ae.leaderId now) link
    have quiet := (node.elect_onAppendEntries { link } { link } ae.term ae.leaderId now).2
    unfold Node.onMessage
    simp only
    generalize node.elect { link } _ = result at *
    obtain ⟨next, net⟩ := result
    obtain rfl := quiet
    have known : source ∈ members ∧ source ≠ id := ⟨member, Ne.symm elsewhere⟩
    obtain ⟨filed, sent⟩ := placed'.syncTerm.filed.onMessage known (.appendEntries ae) link
    exact ⟨placed'.syncTerm.replicate filed, sent⟩
  | appendResponse ar =>
    obtain ⟨placed', _⟩ := placed.elect (node.election.onAppendResponse_addresses ar.term now) link
    have quiet := (node.elect_onAppendResponse { link } { link } ar.term now).2
    unfold Node.onMessage
    simp only
    generalize node.elect { link } _ = result at *
    obtain ⟨next, net⟩ := result
    obtain rfl := quiet
    have known : source ∈ members ∧ source ≠ id := ⟨member, Ne.symm elsewhere⟩
    obtain ⟨filed, sent⟩ := placed'.syncTerm.filed.onMessage known (.appendResponse ar) link
    exact ⟨placed'.syncTerm.replicate filed, sent⟩
  | _ => exact ⟨placed, Transport.addressed_start id link⟩

theorem tick (placed : node.Placed members id) (now : Millis) (link : Link) :
    (node.tick { link } now).1.Placed members id ∧ (node.tick { link } now).2.Addressed id := by
  have addresses := ((node.election.setLastLogSeq node.replicator.log.lastSeq).tick_addresses
    now).of_setLastLogSeq
  obtain ⟨placed', sent⟩ := placed.elect addresses link
  unfold Node.tick
  generalize node.elect { link } _ = result at *
  obtain ⟨next, net⟩ := result
  obtain ⟨filed, sent'⟩ := placed'.syncTerm.filed.sends (next.syncTerm.replicator.tick_sends net) sent
  exact ⟨placed'.syncTerm.replicate filed, sent'⟩

theorem submit (placed : node.Placed members id) (cmd : Command) (link : Link) :
    (node.submit { link } cmd).1.Placed members id ∧ (node.submit { link } cmd).2.Addressed id := by
  unfold Node.submit
  split_ifs
  · obtain ⟨filed, sent⟩ := placed.filed.submit cmd link
    exact ⟨placed.replicate filed, sent⟩
  · exact ⟨placed, Transport.addressed_start id link⟩

theorem onPeerUp (placed : node.Placed members id) {peer : NodeId} (known : peer ∈ members ∧ peer ≠ id)
    (link : Link) :
    (node.onPeerUp { link } peer).1.Placed members id ∧ (node.onPeerUp { link } peer).2.Addressed id := by
  obtain ⟨filed, sent⟩ := placed.filed.onPeerUp known (Transport.addressed_start id link)
  exact ⟨placed.replicate filed, sent⟩

theorem onPeerDown (placed : node.Placed members id) (peer : NodeId) :
    (node.onPeerDown peer).Placed members id :=
  placed.replicate (placed.filed.call (show call members id node.replicator (.peerDown peer) = some _ from rfl))

end Placed

theorem placed_create (members : List NodeId) (id : NodeId) (mode : ReplicationMode) (syncWindow : Nat) :
    (create members id mode syncWindow).Placed members id := by
  have others : ∀ peer ∈ members.filter (· != id), peer ∈ members ∧ peer ≠ id := by
    intro peer isPeer
    obtain ⟨member, different⟩ := List.mem_filter.mp isPeer
    exact ⟨member, bne_iff_ne.mp different⟩
  refine ⟨⟨built_create members id mode syncWindow, ⟨(fun found => nomatch found), ?_⟩⟩, others,
    fun peer isPeer => ?_⟩
  · exact ⟨(fun _ _ found => nomatch found), fun _ isEntry => nomatch isEntry⟩
  · have peers : (create members id mode syncWindow).election.peers = members.filter (· != id) :=
      (Election.resetElectionTimer_same _ 0).peers
    rw [peers] at isPeer
    exact (others peer isPeer).2

end Node

namespace NodeCluster

variable {members : List NodeId} {cluster next : NodeCluster}

/-! ### Two nodes of four -/

/-- In a cluster of four or fewer, the two nodes behind a commit point are half. -/
theorem counted_of_few {id : NodeId} {rep : Replicator} (few : members.length ≤ 4) (member : id ∈ members)
    (built : Node.Built members id rep) {source : NodeId} {msg : Message} (isMember : source ∈ members)
    (elsewhere : Elsewhere source (id, msg)) : Counted members rep source msg := by
  cases msg with
  | appendResponse answer =>
    intro more
    have noted : Node.Built members id (rep.noted source answer) :=
      ⟨built.self, built.size, built.peers.insert ⟨isMember, Ne.symm elsewhere⟩⟩
    obtain ⟨_, _, _, two, _⟩ := (noted.advances_iff _).mp ⟨more, rfl⟩
    obtain ⟨distinct, inside⟩ := noted.holders member (rep.noteResponse source answer).commitIndex
    have counted := distinct.length_le_of_subset fun holder isHolder =>
      List.mem_filter.mpr ⟨inside isHolder, decide_eq_true isHolder⟩
    have enough := Nat.le_trans two counted
    omega
  | _ => trivial

/-- Every member writes to other members only, and all that is under way was written so. -/
structure Wired (members : List NodeId) (cluster : NodeCluster) : Prop where
  sameMembers : cluster.members = members
  placed : ∀ id ∈ members, (cluster.nodes id).Placed members id
  between : ∀ envelope ∈ cluster.inFlight, envelope.source ∈ members ∧
    Elsewhere envelope.source (envelope.target, envelope.message)

namespace Wired

/-- Losing messages, or seeing them twice. -/
theorem reshuffle (wired : cluster.Wired members) {inFlight : List Envelope}
    (known : inFlight ⊆ cluster.inFlight) : ({ cluster with inFlight } : NodeCluster).Wired members :=
  { wired with between := fun envelope isMessage => wired.between envelope (known isMessage) }

/-- A node moves. -/
theorem act (wired : cluster.Wired members) {id : NodeId} (member : id ∈ members) {result : Node × Transport}
    (moved : result.1.Placed members id ∧ result.2.Addressed id) : (cluster.act id result).Wired members where
  sameMembers := wired.sameMembers
  placed other isMember := by
    show (Function.update cluster.nodes id result.1 other).Placed members other
    by_cases same : other = id
    · subst same
      rw [Function.update_self]
      exact moved.1
    · rw [Function.update_of_ne same]
      exact wired.placed other isMember
  between envelope isMessage := by
    rcases List.mem_append.mp isMessage with old | new
    · exact wired.between envelope old
    · obtain ⟨message, isSent, rfl⟩ := List.mem_map.mp new
      exact ⟨member, moved.2 message isSent⟩

/-- **Every step.** -/
theorem step (wired : cluster.Wired members) {label : Label} (enabled : cluster.step label = some next) :
    next.Wired members := by
  cases label with
  | tick id now link =>
    obtain ⟨member, moved⟩ := Option.ite_none_right_eq_some.mp enabled
    obtain rfl := Option.some.inj moved
    rw [wired.sameMembers] at member
    exact wired.act member ((wired.placed id member).tick now link)
  | submit id cmd link =>
    obtain ⟨member, moved⟩ := Option.ite_none_right_eq_some.mp enabled
    obtain rfl := Option.some.inj moved
    rw [wired.sameMembers] at member
    exact wired.act member ((wired.placed id member).submit cmd link)
  | peerUp id peer link =>
    obtain ⟨⟨member, known⟩, moved⟩ := Option.ite_none_right_eq_some.mp enabled
    obtain rfl := Option.some.inj moved
    rw [wired.sameMembers] at member known
    exact wired.act member ((wired.placed id member).onPeerUp known link)
  | peerDown id peer =>
    obtain ⟨member, moved⟩ := Option.ite_none_right_eq_some.mp enabled
    obtain rfl := Option.some.inj moved
    rw [wired.sameMembers] at member
    exact wired.act member ⟨(wired.placed id member).onPeerDown peer, Transport.addressed_start id {}⟩
  | deliver index now link =>
    obtain ⟨envelope, found, enabled'⟩ := Option.bind_eq_some_iff.mp enabled
    obtain ⟨member, moved⟩ := Option.ite_none_right_eq_some.mp enabled'
    obtain rfl := Option.some.inj moved
    rw [wired.sameMembers] at member
    obtain ⟨isMember, elsewhere⟩ := wired.between envelope (List.mem_of_getElem? found)
    exact (wired.reshuffle List.eraseIdx_subset).act member
      ((wired.placed envelope.target member).onMessage isMember elsewhere now link)
  | duplicate index =>
    obtain ⟨envelope, found, rfl⟩ := Option.map_eq_some_iff.mp enabled
    have isMessage := List.mem_of_getElem? found
    refine wired.reshuffle (List.append_subset.mpr ⟨List.Subset.refl _, ?_⟩)
    simpa using isMessage
  | lose index =>
    obtain ⟨_, moved⟩ := Option.ite_none_right_eq_some.mp enabled
    obtain rfl := Option.some.inj moved
    exact wired.reshuffle List.eraseIdx_subset

end Wired

/-! ### State machine safety -/

/-- **State machine safety.** No two members have applied different commands at one sequence number. -/
def AppliesAlike (cluster : NodeCluster) : Prop :=
  ∀ id ∈ cluster.members, ∀ other ∈ cluster.members,
    ∀ entry ∈ (cluster.nodes id).replicator.applied, ∀ entry' ∈ (cluster.nodes other).replicator.applied,
      entry.seq = entry'.seq → entry.command = entry'.command

instance (cluster : NodeCluster) : Decidable cluster.AppliesAlike :=
  -- The members are gone through, not all ids there are.
  have (id : NodeId) : Decidable (∀ other ∈ cluster.members,
      ∀ entry ∈ (cluster.nodes id).replicator.applied, ∀ entry' ∈ (cluster.nodes other).replicator.applied,
        entry.seq = entry'.seq → entry.command = entry'.command) := List.decidableBAll _ _
  List.decidableBAll _ _

/-- A careful step; a log that accepts a message has no tail that the message does not vouch for, and no
acknowledgement of an earlier term raises a match point. -/
def Cautious (cluster : NodeCluster) (label : Label) : Prop :=
  cluster.Careful label ∧ match label with
    | .deliver index now link => ∀ envelope ∈ cluster.inFlight[index]?,
        ReplicatorCluster.VouchedDelivery
          (handling (cluster.nodes envelope.target) now envelope.message).replicator link envelope.source
          envelope.message
    | _ => True

instance (cluster : NodeCluster) : ∀ label, Decidable (cluster.Cautious label)
  | .deliver _ _ _ => inferInstanceAs (Decidable (_ ∧ ∀ _ ∈ _, _))
  | .tick _ _ _ => inferInstanceAs (Decidable (_ ∧ True))
  | .submit _ _ _ => inferInstanceAs (Decidable (_ ∧ True))
  | .peerUp _ _ _ => inferInstanceAs (Decidable (_ ∧ True))
  | .peerDown _ _ => inferInstanceAs (Decidable (_ ∧ True))
  | .duplicate _ => inferInstanceAs (Decidable (_ ∧ True))
  | .lose _ => inferInstanceAs (Decidable (_ ∧ True))

/-- What is committed in a small cluster is counted. -/
theorem Cautious.sober (wired : cluster.Wired members) (few : members.length ≤ 4) {label : Label}
    (cautious : cluster.Cautious label) (enabled : cluster.step label = some next) : cluster.Sober label := by
  obtain ⟨careful, vouched⟩ := cautious
  refine ⟨careful, ?_⟩
  cases label with
  | deliver index now link =>
    intro envelope found
    obtain ⟨envelope', found', enabled'⟩ := Option.bind_eq_some_iff.mp enabled
    obtain rfl : envelope = envelope' := Option.some.inj (found.symm.trans found')
    obtain ⟨member, _⟩ := Option.ite_none_right_eq_some.mp enabled'
    obtain ⟨isMember, elsewhere⟩ := wired.between envelope (List.mem_of_getElem? found)
    rw [wired.sameMembers] at member ⊢
    refine ⟨vouched envelope found, ?_⟩
    have placed := wired.placed envelope.target member
    generalize envelope.message = msg at elsewhere
    cases msg with
    | appendResponse answer =>
      exact counted_of_few few member (placed.hearing answer now).filed.built isMember elsewhere
    | _ => trivial
  | _ => trivial

theorem wired_create (members : List NodeId) (modes : NodeId → ReplicationMode) (windows : NodeId → Nat) :
    (create members modes windows).Wired members where
  sameMembers := rfl
  placed id _ := Node.placed_create members id (modes id) (windows id)
  between _ isMessage := nomatch isMessage

/-- **State machine safety**, in every run of cautious steps of a small cluster. -/
theorem stateMachineSafety {members : List NodeId} (distinct : members.Nodup) (few : members.length ≤ 4)
    (modes : NodeId → ReplicationMode) (windows : NodeId → Nat) (labels : List Label)
    {cluster : NodeCluster} (cautious : Guarded step Cautious (create members modes windows) labels)
    (ran : run step (create members modes windows) labels = some cluster) : cluster.AppliesAlike := by
  have reached : (∃ campaign, CommitInvariant members campaign cluster) ∧ cluster.Wired members :=
    run_invariant (fun cluster => (∃ campaign, CommitInvariant members campaign cluster) ∧ cluster.Wired members)
      (fun ⟨⟨_, holds⟩, wired⟩ guarded enabled =>
        ⟨holds.step distinct (Cautious.sober wired few guarded enabled) enabled, wired.step enabled⟩)
      ⟨⟨_, commitInvariant_create distinct modes windows⟩, wired_create members modes windows⟩ cautious ran
  obtain ⟨⟨campaign, inv⟩, _⟩ := reached
  intro id member other member' entry isApplied entry' isApplied' sameSeq
  rw [inv.sameMembers] at member member'
  obtain ⟨front, decided, _, found⟩ := (inv.sealed id member).commits.applied entry isApplied
  obtain ⟨front', decided', _, found'⟩ := (inv.sealed other member').commits.applied entry' isApplied'
  rw [← sameSeq] at found'
  have sound := inv.inv.sound
  exact congrArg (·.command) (decided.agree sound.logs sound.elected decided' found found')

/-- Nodes 1 and 2 both apply the command that node 1 has committed in term 1. -/
theorem stateMachineSafety_handover :
    ∃ cluster, run step threeNodes handover = some cluster ∧ cluster.AppliesAlike ∧
      (cluster.nodes 1).replicator.applied.map (·.seq) = [1] ∧
      (cluster.nodes 2).replicator.applied.map (·.seq) = [1] ∧
      (cluster.nodes 3).replicator.applied = [] :=
  have ran : run step threeNodes handover =
      some ((run step threeNodes handover).get (by decide +kernel)) := (Option.some_get _).symm
  ⟨_, ran, stateMachineSafety (by decide) (by decide) (fun _ => .asynchronous) (fun _ => 8) handover
    (by decide +kernel) ran, by decide +kernel, by decide +kernel, by decide +kernel⟩

/-- Node 1 leads term 3 with its longer log, as in `longerLog`, has node 3 take that log, and commits it with a
command of its own term. -/
def longerLogCommits : List Label :=
  longerLog ++ [.lose 0, .peerUp 1 3 {}, .deliver 0 3003 {}, .deliver 0 3004 {}, .deliver 0 3005 {},
    .deliver 0 3006 {}, .submit 1 (ReplicatorCluster.restingSell 4) {}, .deliver 0 3008 {}, .deliver 0 3009 {}]

/-- Five nodes. -/
def fiveNodes : NodeCluster := create [1, 2, 3, 4, 5] (fun _ => .asynchronous) fun _ => 8

/-- Node 1 leads term 1 with the votes of 2 and 3, and commits a command with node 2. Node 3 leads term 2 with
the votes of 4 and 5, and commits a command with node 4. -/
def twoOfFive : List Label :=
  [.tick 1 1000 {}, .lose 3, .lose 2, .deliver 0 1001 {}, .deliver 0 1002 {}, .deliver 0 1003 {},
    .deliver 0 1004 cutOff, .peerUp 1 2 {}, .deliver 0 1005 {}, .deliver 0 1006 {},
    .submit 1 (ReplicatorCluster.restingSell 1) {}, .deliver 0 1007 {}, .deliver 0 1008 cutOff,
    .tick 3 2000 {}, .lose 1, .lose 0, .deliver 0 2001 {}, .deliver 0 2002 {}, .deliver 0 2003 {},
    .deliver 0 2004 cutOff, .peerUp 3 4 {}, .deliver 0 2005 {}, .deliver 0 2006 {},
    .submit 3 (ReplicatorCluster.restingSell 2) {}, .deliver 0 2007 {}, .deliver 0 2008 cutOff]

/-- What a member has applied. -/
def appliedBy (cluster : NodeCluster) (id : NodeId) : List (Nat × Command) :=
  (cluster.nodes id).replicator.applied.map fun entry => (entry.seq, entry.command)

/-- **Two commands at one sequence number**: once over a vote for the longer log, with every step before it
cautious; and once in a cluster of five, with every step cautious. -/
theorem applied_apart :
    (∃ cluster, run step threeNodes longerLogCommits = some cluster ∧ ¬ cluster.AppliesAlike ∧
      cluster.appliedBy 1 = [(1, ReplicatorCluster.restingSell 1), (2, ReplicatorCluster.restingSell 2),
        (3, ReplicatorCluster.restingSell 4)] ∧
      cluster.appliedBy 2 = [(1, ReplicatorCluster.restingSell 3)] ∧
      Guarded step Cautious threeNodes (longerLogCommits.take 21)) ∧
    ∃ cluster, run step fiveNodes twoOfFive = some cluster ∧ ¬ cluster.AppliesAlike ∧
      cluster.appliedBy 1 = [(1, ReplicatorCluster.restingSell 1)] ∧
      cluster.appliedBy 3 = [(1, ReplicatorCluster.restingSell 2)] ∧
      Guarded step Cautious fiveNodes twoOfFive := by
  refine ⟨⟨_, (Option.some_get (by decide +kernel)).symm, ?_⟩,
    ⟨_, (Option.some_get (by decide +kernel)).symm, ?_⟩⟩
  · decide +kernel
  · decide +kernel

end NodeCluster

end Sententia
