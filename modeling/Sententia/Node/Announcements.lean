/-
**What a node tells of its commit point.** Every `AppendEntries` that a node sends carries its commit point, and
its log or nothing; and whoever sends one leads, in the term that it names (`Announces`). This holds of the
heartbeats and of the greetings of a new leader (`elect_announces`), and of what the replicator of a leader
sends (`Announced.of_sends`).
-/

import Sententia.Consensus.Proclamations
import Sententia.Node.NodeCampaign

namespace Sententia

open Library

namespace Replicator

/-- The log, the commit point, what has been applied and the configured size are as they were. -/
structure Still (rep rep' : Replicator) : Prop where
  log : rep'.log = rep.log
  commitIndex : rep'.commitIndex = rep.commitIndex
  applied : rep'.applied = rep.applied
  clusterSize : rep'.clusterSize = rep.clusterSize

namespace Still

variable {rep rep' rep'' : Replicator}

theorem refl (rep : Replicator) : rep.Still rep := ⟨rfl, rfl, rfl, rfl⟩

theorem trans (first : rep.Still rep') (second : rep'.Still rep'') : rep.Still rep'' :=
  ⟨second.log.trans first.log, second.commitIndex.trans first.commitIndex,
    second.applied.trans first.applied, second.clusterSize.trans first.clusterSize⟩

theorem of_core (same : rep'.core = rep.core) : rep.Still rep' :=
  ⟨congrArg (·.log) same, congrArg (·.commitIndex) same, congrArg (·.applied) same,
    congrArg (·.clusterSize) same⟩

theorem setTerm (rep : Replicator) (term : Nat) : rep.Still (rep.setTerm term) := ⟨rfl, rfl, rfl, rfl⟩

theorem setRole (rep : Replicator) (role : Role) : rep.Still (rep.setRole role) := by
  obtain ⟨_, _, changed⟩ := rep.setRole_frame role
  rw [changed]
  exact ⟨rfl, rfl, rfl, rfl⟩

end Still

end Replicator

namespace Node

variable {node node' : Node}

/-- The message is a bare heartbeat, or a slice of the log in the term that it names. -/
def SliceOf (log : CommandLog) (msg : AppendEntries) : Prop :=
  (msg.entries = [] ∧ msg.prevTerm = 0) ∨
    ∃ speaker : Replicator, speaker.log = log ∧ speaker.term = msg.term ∧ speaker.AppendOf msg

/-- The node leads in the term of the message, which tells its commit point and a slice of its log. -/
structure Announces (node : Node) (msg : AppendEntries) : Prop where
  leads : node.election.role = .leader
  term : msg.term = node.election.currentTerm
  commitSeq : msg.commitSeq = node.replicator.commitIndex
  slice : SliceOf node.replicator.log msg

/-- No response is sent, and every `AppendEntries` announces. -/
def Announced (node : Node) : Message → Prop
  | .appendEntries msg => node.Announces msg
  | .appendResponse _ => False
  | _ => True

theorem Announced.of_still {message : Message} (announced : node.Announced message)
    (election : node'.election = node.election) (still : node.replicator.Still node'.replicator) :
    node'.Announced message := by
  cases message with
  | appendEntries msg =>
    exact ⟨election ▸ announced.leads, election ▸ announced.term, still.commitIndex ▸ announced.commitSeq,
      still.log ▸ announced.slice⟩
  | appendResponse msg => exact announced.elim
  | _ => trivial

/-- What the replicator of a leader sends, announces. -/
theorem Announced.of_sends {rep rep' : Replicator} {net net' : Transport} (sends : rep.Sends net rep' net')
    (leads : node.election.role = .leader) (term : rep.term = node.election.currentTerm)
    (still : rep.Still node.replicator) :
    ∀ message ∈ net'.sent, message ∈ net.sent ∨ node.Announced message.2 := by
  intro message isSent
  refine (sends.sent message isSent).imp_right fun ⟨append, content, built, _⟩ => ?_
  rw [content]
  exact ⟨leads, built.term.trans term, built.commitSeq.trans still.commitIndex.symm,
    Or.inr ⟨rep, still.log.symm, built.term.symm, built⟩⟩

/-! ### Performing the actions -/

/-- What a node that performs the actions says. -/
def Utters (rep : Replicator) (actions : ActionList) : Message → Prop
  | .appendEntries msg => msg.commitSeq = rep.commitIndex ∧ SliceOf rep.log msg ∧
      ∃ action ∈ actions, Election.leadsIn action = some msg.term
  | .appendResponse _ => False
  | _ => True

theorem Utters.of_still {rep rep' : Replicator} {actions actions' : ActionList} {message : Message}
    (utters : Utters rep' actions' message) (still : rep.Still rep') (among : actions' ⊆ actions) :
    Utters rep actions message := by
  cases message with
  | appendEntries msg =>
    obtain ⟨commitSeq, slice, action, member, leads⟩ := utters
    exact ⟨commitSeq.trans still.commitIndex, still.log ▸ slice, action, among member, leads⟩
  | appendResponse msg => exact utters.elim
  | _ => trivial

/-- One action. -/
theorem runAction_utters (node : Node) (net : Transport) (action : Action) :
    node.replicator.Still (node.runAction net action).1.replicator ∧
      ∀ message ∈ (node.runAction net action).2.sent, message ∈ net.sent ∨
        Utters node.replicator [action] message.2 := by
  have spoken : ∀ target message, Utters node.replicator [action] message →
      ∀ sent ∈ (net.send target message).1.sent, sent ∈ net.sent ∨
        Utters node.replicator [action] sent.2 := by
    intro target message uttered sent isSent
    rcases net.sent_send target message with ⟨_, grown⟩ | ⟨_, same⟩
    · rw [grown, List.mem_append, List.mem_singleton] at isSent
      refine isSent.imp_right fun new => ?_
      rw [new]
      exact uttered
    · rw [same] at isSent
      exact Or.inl isSent
  cases action with
  | sendRequestVote target term lastLogSeq => exact ⟨.refl _, spoken _ _ trivial⟩
  | sendVoteResponse target term granted => exact ⟨.refl _, spoken _ _ trivial⟩
  | sendHeartbeat target term =>
    exact ⟨.refl _, spoken _ _ ⟨rfl, Or.inl ⟨rfl, rfl⟩, _, List.mem_singleton_self _, rfl⟩⟩
  | steppedDown term =>
    exact ⟨(Replicator.Still.setTerm _ term).trans (.setRole _ _), fun _ => Or.inl⟩
  | becameLeader term =>
    have made := (Replicator.Still.setTerm node.replicator term).trans (.setRole _ .primary)
    obtain ⟨frame, sent⟩ := greetReady_sends node.peerIds
      ((node.replicator.setTerm term).role_setRole .primary) net
    refine ⟨made.trans (.of_core frame), fun message isSent => (sent message isSent).imp_right ?_⟩
    rintro ⟨append, content, built⟩
    rw [content]
    have ofTerm : ((node.replicator.setTerm term).setRole .primary).term = term := by
      obtain ⟨_, _, changed⟩ := (node.replicator.setTerm term).setRole_frame .primary
      rw [changed]
      rfl
    exact ⟨built.commitSeq.trans made.commitIndex, Or.inr ⟨_, made.log, built.term.symm, built⟩, _,
      List.mem_singleton_self _, congrArg some (ofTerm.symm.trans built.term.symm)⟩

/-- **`runActions`** leaves the log and the commit point alone, and tells of them. -/
theorem runActions_utters (actions : ActionList) (node : Node) (net : Transport) :
    node.replicator.Still (node.runActions net actions).1.replicator ∧
      ∀ message ∈ (node.runActions net actions).2.sent, message ∈ net.sent ∨
        Utters node.replicator actions message.2 := by
  induction actions generalizing node net with
  | nil => exact ⟨.refl _, fun _ => Or.inl⟩
  | cons action rest ih =>
    obtain ⟨still, sent⟩ := node.runAction_utters net action
    obtain ⟨still', sent'⟩ := ih (node.runAction net action).1 (node.runAction net action).2
    refine ⟨still.trans still', fun message isSent => ?_⟩
    rcases sent' message isSent with earlier | uttered
    · refine (sent message earlier).imp_right fun uttered => ?_
      exact uttered.of_still (.refl _) (List.cons_subset_cons action (List.nil_subset rest))
    · exact Or.inr (uttered.of_still still (List.subset_cons_self _ _))

/-- **The election moves and its actions are performed**: whatever is said of leading is true of the node. -/
theorem elect_announces (node : Node) (link : Link) {result : Election × ActionList}
    (proclaims : node.election.Proclaims result) :
    node.replicator.Still (node.elect { link } result).1.replicator ∧
      ∀ message ∈ (node.elect { link } result).2.sent,
        (node.elect { link } result).1.Announced message.2 := by
  obtain ⟨still, sent⟩ := runActions_utters result.2 { node with election := result.1 } { link }
  have election := node.election_elect { link } result
  refine ⟨still, fun message isSent => ?_⟩
  have uttered := (sent message isSent).resolve_left List.not_mem_nil
  obtain ⟨target, content⟩ := message
  cases content with
  | appendEntries msg =>
    obtain ⟨commitSeq, slice, action, member, leads⟩ := uttered
    obtain ⟨leader, term⟩ := proclaims.leads action member _ leads
    refine ⟨?_, ?_, commitSeq.trans still.commitIndex.symm, ?_⟩
    · rw [election]
      exact leader
    · rw [election]
      exact term.symm
    · have log : (node.elect { link } result).1.replicator.log = node.replicator.log := still.log
      rw [log]
      exact slice
  | appendResponse msg => exact uttered.elim
  | _ => trivial

/-- Handling an `AppendEntries`, the election sends nothing, over whatever link. -/
theorem elect_onAppendEntries (node : Node) (net net' : Transport) (term : Nat) (leader : NodeId)
    (now : Millis) :
    (node.elect net (node.election.onAppendEntries term leader now)).1 =
        (node.elect net' (node.election.onAppendEntries term leader now)).1 ∧
      (node.elect net (node.election.onAppendEntries term leader now)).2 = net := by
  unfold Election.onAppendEntries Election.hearLeader
  split_ifs <;> exact ⟨rfl, rfl⟩

/-! ### Match points -/

theorem greetReady_files {allowed : NodeId → Nat → Prop} (unknown : ∀ id, allowed id 0)
    (peers : List NodeId) {rep : Replicator} (files : rep.Files allowed) (net : Transport) :
    (peers.foldl (fun (rep, net) peer =>
      if net.isReady peer then rep.onPeerUp net peer else (rep, net)) (rep, net)).1.Files allowed := by
  induction peers generalizing rep net with
  | nil => exact files
  | cons peer rest ih =>
    have once : (if net.isReady peer then rep.onPeerUp net peer else (rep, net)).1.Files allowed := by
      split_ifs
      · exact files.onPeerUp net (unknown peer)
      · exact files
    exact ih once _

/-- A node that comes to be a primary knows no match point; one that is a primary keeps what it knows. -/
theorem runActions_files {allowed : NodeId → Nat → Prop} (unknown : ∀ id, allowed id 0)
    (actions : ActionList) (node : Node) (net : Transport)
    (files : node.replicator.role = .primary → node.replicator.Files allowed) :
    (node.runActions net actions).1.replicator.role = .primary →
      (node.runActions net actions).1.replicator.Files allowed := by
  induction actions generalizing node net with
  | nil => exact files
  | cons action rest ih =>
    refine ih (node.runAction net action).1 (node.runAction net action).2 fun leading => ?_
    cases action with
    | becameLeader term =>
      refine greetReady_files unknown node.peerIds ?_ net
      by_cases before : node.replicator.role = .primary
      · have same : (node.replicator.setTerm term).setRole .primary = node.replicator.setTerm term :=
          if_pos before.symm
        rw [same]
        exact files before
      · intro id backup found
        have following : (node.replicator.setTerm term).role ≠ .primary := before
        have unmatched := Replicator.matchedBy_setRole following (fun _ => 0) id backup found
        rw [Nat.le_zero.mp unmatched]
        exact unknown id
    | steppedDown term =>
      have follows : ((node.replicator.setTerm term).setRole .backup).role = .primary := leading
      rw [Replicator.role_setRole] at follows
      cases follows
    | sendRequestVote target term lastLogSeq => exact files leading
    | sendVoteResponse target term granted => exact files leading
    | sendHeartbeat target term => exact files leading

end Node

end Sententia
