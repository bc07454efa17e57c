/-
**Who says that it leads.** Heartbeats and the notification of a won election carry a term. Whatever call of
the election emits one, the node leads after the call, in that term; a leader that stays one keeps its term;
and nobody stands for, or leads, the first term (`Proclaims`). Heartbeats go to the peers (`Addresses`).
-/

import Sententia.Consensus.RoleNotifications

namespace Sententia

namespace Election

/-- The term that an action says its sender leads. -/
def leadsIn : Action → Option Nat
  | .sendHeartbeat _ term => some term
  | .becameLeader term => some term
  | _ => none

/-- Nobody stands for, or leads, the first term. -/
def Raised (node : Election) : Prop := node.role ≠ .follower → 0 < node.currentTerm

/-- What the result of a call says about leading is true. -/
structure Proclaims (node : Election) (result : Election × ActionList) : Prop where
  leads : ∀ action ∈ result.2, ∀ term, leadsIn action = some term →
    result.1.role = .leader ∧ result.1.currentTerm = term
  stays : node.role = .leader → result.1.role = .leader → result.1.currentTerm = node.currentTerm
  raised : node.Raised → result.1.Raised

variable {node node' : Election}

theorem raised_of_follower (following : node.role = .follower) : node.Raised :=
  fun standing => absurd following standing

/-- A call that says nothing about leading. -/
theorem Proclaims.quiet {actions : ActionList} (silent : ∀ action ∈ actions, leadsIn action = none)
    (stays : node'.role ≠ .follower → node'.role = node.role ∧ node'.currentTerm = node.currentTerm) :
    node.Proclaims (node', actions) where
  leads action member term isTerm := by
    rw [silent action member] at isTerm
    cases isTerm
  stays _ leading := by
    refine (stays ?_).2
    rw [leading]
    exact nofun
  raised before standing := by
    obtain ⟨sameRole, sameTerm⟩ := stays standing
    rw [sameTerm]
    exact before (sameRole ▸ standing)

theorem Proclaims.same {actions : ActionList} (silent : ∀ action ∈ actions, leadsIn action = none)
    (role : node'.role = node.role) (term : node'.currentTerm = node.currentTerm) :
    node.Proclaims (node', actions) :=
  .quiet silent fun _ => ⟨role, term⟩

/-- A call whose first part leaves the node as it is, or makes it a follower of which the rest makes no
leader. -/
theorem Proclaims.of_observed (term : Nat) (now : Millis) {result : Election × ActionList}
    (known : node.observeTerm term now = (node, false) → node.Proclaims result)
    (news : (node.observeTerm term now).1.role = .follower →
      result.1.role = .follower ∧ ∀ action ∈ result.2, leadsIn action = none) :
    node.Proclaims result := by
  by_cases old : term ≤ node.currentTerm
  · exact known (observeTerm_old old now)
  · obtain ⟨following, silent⟩ := news (observeTerm_news (Nat.lt_of_not_le old) now).1
    exact .quiet silent fun standing => absurd following standing

/-! ### The calls -/

/-- Whoever wins did not lead before. -/
theorem becomeLeader_proclaims (node before : Election) (notLeading : before.role ≠ .leader)
    (positive : 0 < node.currentTerm) (now : Millis) : before.Proclaims (node.becomeLeader now) where
  leads action member term isTerm := by
    refine ⟨rfl, ?_⟩
    rcases List.mem_cons.mp member with rfl | heartbeat
    · exact Option.some.inj isTerm
    · obtain ⟨peer, _, rfl⟩ := List.mem_map.mp heartbeat
      exact Option.some.inj isTerm
  stays leading _ := absurd leading notLeading
  raised _ _ := positive

theorem tick_proclaims (node : Election) (bounded : node.currentTerm < 2 ^ 64 - 1) (now : Millis) :
    node.Proclaims (node.tick now) := by
  unfold tick
  split_ifs with leading
  · refine ⟨fun action member term isTerm => ?_, fun _ _ => rfl, fun before => before⟩
    obtain ⟨peer, _, rfl⟩ := List.mem_map.mp member
    exact ⟨leading, Option.some.inj isTerm⟩
  · exact .same (fun _ member => nomatch member) rfl rfl
  · have term : (node.standing now).currentTerm = node.currentTerm + 1 := by
      have stood : (node.standing now).currentTerm = nextTerm node.currentTerm :=
        (resetElectionTimer_same _ now).currentTerm
      rw [stood]
      exact Nat.mod_eq_of_lt (by omega)
    have positive : 0 < (node.standing now).currentTerm := by
      rw [term]
      exact Nat.succ_pos _
    have role : (node.standing now).role = .candidate := (resetElectionTimer_same _ now).role
    unfold becomeCandidate
    by_cases enough : (node.standing now).votesGranted.length ≥ (node.standing now).majority
    · simp only [if_pos enough]
      exact becomeLeader_proclaims _ _ leading positive now
    · simp only [if_neg enough]
      refine ⟨fun action member term isTerm => ?_, fun leads _ => absurd leads leading, fun _ _ => positive⟩
      obtain ⟨peer, _, rfl⟩ := List.mem_map.mp member
      cases isTerm
  · exact .same (fun _ member => nomatch member) rfl rfl

theorem answerVote_proclaims (node : Election) (msg : RequestVote) (now : Millis) :
    node.Proclaims (node.answerVote msg now) ∧
      ∀ action ∈ (node.answerVote msg now).2, leadsIn action = none := by
  have silent : ∀ action ∈ (node.answerVote msg now).2, leadsIn action = none := by
    unfold answerVote
    split_ifs
    · exact List.forall_mem_singleton.mpr rfl
    · exact List.forall_mem_singleton.mpr rfl
  have term : (node.answerVote msg now).1.currentTerm = node.currentTerm := by
    unfold answerVote
    split_ifs
    · exact (resetElectionTimer_same _ now).currentTerm
    · rfl
  exact ⟨.same silent (node.role_answerVote msg now) term, silent⟩

theorem onRequestVote_proclaims (node : Election) (msg : RequestVote) (now : Millis) :
    node.Proclaims (node.onRequestVote msg now) := by
  refine .of_observed msg.term now (fun known => ?_) fun follows => ?_
  · unfold onRequestVote
    rw [known]
    exact (node.answerVote_proclaims msg now).1
  · exact ⟨((node.observeTerm msg.term now).1.role_answerVote msg now).trans follows,
      ((node.observeTerm msg.term now).1.answerVote_proclaims msg now).2⟩

theorem onVoteResponse_proclaims (node : Election) (raised : node.Raised) (msg : VoteResponse)
    (now : Millis) : node.Proclaims (node.onVoteResponse msg now) := by
  refine .of_observed msg.term now (fun known => ?_) fun follows => ?_
  · unfold onVoteResponse
    rw [known]
    show node.Proclaims (node.countVote msg now)
    unfold countVote
    simp only
    split_ifs with elsewhere
    · exact .same (fun _ member => nomatch member) rfl rfl
    · exact .same (fun _ member => nomatch member) rfl rfl
    · -- Only a candidate counts votes.
      have standing : node.role = .candidate := not_not.mp (not_or.mp elsewhere).1
      refine becomeLeader_proclaims { node with votesGranted := node.votesGranted ++ [msg.voterId] } node
        ?_ (raised ?_) now
      · rw [standing]
        decide
      · rw [standing]
        decide
    · exact .same (fun _ member => nomatch member) rfl rfl
    · exact .same (fun _ member => nomatch member) rfl rfl
  · have stays : (node.onVoteResponse msg now).1.role = .follower ∧
        (node.onVoteResponse msg now).2 = [] := by
      unfold onVoteResponse
      generalize node.observeTerm msg.term now = result at follows
      obtain ⟨seen, higher⟩ := result
      cases higher with
      | true => exact ⟨follows, rfl⟩
      | false =>
        have notStanding : seen.role ≠ .candidate := by
          rw [show seen.role = .follower from follows]
          decide
        have ignores : seen.countVote msg now = (seen, []) := if_pos (Or.inl notStanding)
        show (seen.countVote msg now).1.role = _ ∧ (seen.countVote msg now).2 = []
        rw [ignores]
        exact ⟨follows, rfl⟩
    refine ⟨stays.1, ?_⟩
    rw [stays.2]
    exact fun _ member => nomatch member

/-- After hearing a leader the node follows, and says so at most. -/
theorem hearLeader_follows (node : Election) (term : Nat) (leader : NodeId) (now : Millis) :
    (node.hearLeader term leader now).1.role = .follower ∧
      ∀ action ∈ (node.hearLeader term leader now).2, leadsIn action = none := by
  unfold hearLeader
  split_ifs with standing leading
  · exact ⟨(resetElectionTimer_same _ now).role, List.forall_mem_singleton.mpr rfl⟩
  · exact ⟨(resetElectionTimer_same _ now).role, fun _ member => nomatch member⟩
  · exact ⟨(resetElectionTimer_same _ now).role.trans (not_not.mp standing), fun _ member => nomatch member⟩

theorem onAppendEntries_proclaims (node : Election) (term : Nat) (leader : NodeId) (now : Millis) :
    node.Proclaims (node.onAppendEntries term leader now) := by
  unfold onAppendEntries
  split_ifs
  · exact .same (fun _ member => nomatch member) rfl rfl
  · obtain ⟨follows, silent⟩ := (node.observeTerm term now).1.hearLeader_follows term leader now
    exact .quiet silent fun standing => absurd follows standing

theorem onAppendResponse_proclaims (node : Election) (term : Nat) (now : Millis) :
    node.Proclaims (node.onAppendResponse term now) := by
  unfold onAppendResponse
  by_cases old : term ≤ node.currentTerm
  · rw [observeTerm_old old now]
    exact .same (fun _ member => nomatch member) rfl rfl
  · obtain ⟨follows, news⟩ := observeTerm_news (Nat.lt_of_not_le old) now
    generalize node.observeTerm term now = result at follows news
    obtain ⟨seen, higher⟩ := result
    obtain rfl := news
    exact .quiet (List.forall_mem_singleton.mpr rfl) fun standing => absurd follows standing

/-- Being told of the log head changes nothing here. -/
theorem Proclaims.of_setLastLogSeq {seq : Nat} {result : Election × ActionList}
    (proclaims : (node.setLastLogSeq seq).Proclaims result) : node.Proclaims result :=
  ⟨proclaims.leads, proclaims.stays, proclaims.raised⟩

/-! ### Who is told -/

/-- The peers stay who they are, and heartbeats go to them. -/
structure Addresses (node : Election) (result : Election × ActionList) : Prop where
  peers : result.1.peers = node.peers
  heartbeats : ∀ {target term}, .sendHeartbeat target term ∈ result.2 → target ∈ node.peers

/-- A call after which no heartbeat is sent. -/
theorem Addresses.quiet {result : Election × ActionList} (peers : result.1.peers = node.peers)
    (silent : ∀ action ∈ result.2, leadsIn action = none) : node.Addresses result :=
  ⟨peers, fun {target term} member => nomatch silent (.sendHeartbeat target term) member⟩

/-- A second part of the call. -/
theorem Addresses.of_peers {result : Election × ActionList} (addresses : node'.Addresses result)
    (peers : node'.peers = node.peers) : node.Addresses result :=
  ⟨addresses.peers.trans peers, fun member => peers ▸ addresses.heartbeats member⟩

/-- Being told of the log head changes nothing here. -/
theorem Addresses.of_setLastLogSeq {seq : Nat} {result : Election × ActionList}
    (addresses : (node.setLastLogSeq seq).Addresses result) : node.Addresses result :=
  addresses.of_peers rfl

theorem peers_observeTerm (node : Election) (term : Nat) (now : Millis) :
    (node.observeTerm term now).1.peers = node.peers := by
  by_cases old : term ≤ node.currentTerm
  · rw [observeTerm_old old now]
  · unfold observeTerm
    rw [if_neg old]
    exact (resetElectionTimer_same _ now).peers

theorem becomeLeader_addresses (node : Election) (now : Millis) : node.Addresses (node.becomeLeader now) where
  peers := rfl
  heartbeats member := by
    rcases List.mem_cons.mp member with notified | heartbeat
    · cases notified
    · obtain ⟨peer, isPeer, same⟩ := List.mem_map.mp heartbeat
      cases same
      exact isPeer

theorem tick_addresses (node : Election) (now : Millis) : node.Addresses (node.tick now) := by
  unfold tick
  split_ifs
  · refine ⟨rfl, fun member => ?_⟩
    obtain ⟨peer, isPeer, same⟩ := List.mem_map.mp member
    cases same
    exact isPeer
  · exact .quiet rfl fun _ member => nomatch member
  · have peers : (node.standing now).peers = node.peers := (resetElectionTimer_same _ now).peers
    unfold becomeCandidate
    by_cases enough : (node.standing now).votesGranted.length ≥ (node.standing now).majority
    · simp only [if_pos enough]
      exact ((node.standing now).becomeLeader_addresses now).of_peers peers
    · simp only [if_neg enough]
      refine .quiet peers fun action member => ?_
      obtain ⟨peer, _, rfl⟩ := List.mem_map.mp member
      rfl
  · exact .quiet rfl fun _ member => nomatch member

theorem onRequestVote_addresses (node : Election) (msg : RequestVote) (now : Millis) :
    node.Addresses (node.onRequestVote msg now) := by
  have answered : ((node.observeTerm msg.term now).1.answerVote msg now).1.peers =
      (node.observeTerm msg.term now).1.peers := by
    unfold answerVote
    split_ifs
    · exact (resetElectionTimer_same _ now).peers
    · rfl
  exact .quiet (answered.trans (node.peers_observeTerm msg.term now))
    ((node.observeTerm msg.term now).1.answerVote_proclaims msg now).2

theorem countVote_addresses (node : Election) (msg : VoteResponse) (now : Millis) :
    node.Addresses (node.countVote msg now) := by
  unfold countVote
  simp only
  split_ifs
  · exact .quiet rfl fun _ member => nomatch member
  · exact .quiet rfl fun _ member => nomatch member
  · exact (becomeLeader_addresses { node with votesGranted := node.votesGranted ++ [msg.voterId] } now).of_peers rfl
  · exact .quiet rfl fun _ member => nomatch member
  · exact .quiet rfl fun _ member => nomatch member

theorem onVoteResponse_addresses (node : Election) (msg : VoteResponse) (now : Millis) :
    node.Addresses (node.onVoteResponse msg now) := by
  have peers := node.peers_observeTerm msg.term now
  unfold onVoteResponse
  generalize node.observeTerm msg.term now = result at peers
  obtain ⟨seen, higher⟩ := result
  cases higher with
  | true => exact .quiet peers fun _ member => nomatch member
  | false => exact (seen.countVote_addresses msg now).of_peers peers

theorem onAppendEntries_addresses (node : Election) (term : Nat) (leader : NodeId) (now : Millis) :
    node.Addresses (node.onAppendEntries term leader now) := by
  unfold onAppendEntries
  split_ifs
  · exact .quiet rfl fun _ member => nomatch member
  · have heard : ((node.observeTerm term now).1.hearLeader term leader now).1.peers =
        (node.observeTerm term now).1.peers := by
      unfold hearLeader
      split_ifs
      · exact (resetElectionTimer_same _ now).peers
      · exact (resetElectionTimer_same _ now).peers
      · exact (resetElectionTimer_same _ now).peers
    exact .quiet (heard.trans (node.peers_observeTerm term now))
      ((node.observeTerm term now).1.hearLeader_follows term leader now).2

theorem onAppendResponse_addresses (node : Election) (term : Nat) (now : Millis) :
    node.Addresses (node.onAppendResponse term now) := by
  have peers := node.peers_observeTerm term now
  unfold onAppendResponse
  generalize node.observeTerm term now = result at peers
  obtain ⟨seen, higher⟩ := result
  cases higher with
  | true => exact .quiet peers (List.forall_mem_singleton.mpr rfl)
  | false => exact .quiet peers fun _ member => nomatch member

end Election

end Sententia
