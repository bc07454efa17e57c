/-
**One node's share of election safety.** `Recorded history members node` ties a node's vote, term and
role to the vote history of the cluster; every handler of the election keeps it, extending the history
by at most the node's own vote and its own victory, and emits only actions that the history backs.

The handlers are composed of six moves, each with a lemma of its own: observe a term, vote, stand,
count a vote, lead, follow. Timers and counters never matter: `sameBallot` says which fields do.
-/

import Sententia.Consensus.Election
import Sententia.Library.Ballot

namespace Sententia

open Library

namespace Election

/-! ### What the timers leave alone -/

/-- Two states that differ in timers, random state and counters only. -/
structure SameBallot (node node' : Election) : Prop where
  self : node'.self = node.self
  peers : node'.peers = node.peers
  role : node'.role = node.role
  currentTerm : node'.currentTerm = node.currentTerm
  votedFor : node'.votedFor = node.votedFor
  leaderId : node'.leaderId = node.leaderId
  votesGranted : node'.votesGranted = node.votesGranted
  lastLogSeq : node'.lastLogSeq = node.lastLogSeq

theorem resetElectionTimer_same (node : Election) (now : Millis) :
    node.SameBallot (node.resetElectionTimer now) := by
  unfold resetElectionTimer
  by_cases fixed : node.config.electionTimeoutMax - node.config.electionTimeoutMin = 0
  · simp only [if_pos fixed]
    exact ⟨rfl, rfl, rfl, rfl, rfl, rfl, rfl, rfl⟩
  · simp only [if_neg fixed]
    exact ⟨rfl, rfl, rfl, rfl, rfl, rfl, rfl, rfl⟩

theorem broadcastHeartbeat_same (node : Election) (now : Millis) :
    node.SameBallot (node.broadcastHeartbeat now).1 :=
  ⟨rfl, rfl, rfl, rfl, rfl, rfl, rfl, rfl⟩

/-! ### The record of a node -/

/-- The node's fields agree with the vote history. -/
structure Recorded (history : VoteHistory NodeId) (members : List NodeId) (node : Election) :
    Prop where
  member : node.self ∈ members
  size : node.clusterSize = members.length
  peers : node.peers ⊆ members
  vote : history.voted node.self node.currentTerm = node.votedFor
  future : ∀ term, node.currentTerm < term → history.voted node.self term = none
  ballot : node.role ≠ .follower → node.votesGranted.Nodup ∧ node.votesGranted ⊆ members ∧
    ∀ voter ∈ node.votesGranted, history.voted voter node.currentTerm = some node.self
  leads : node.role = .leader → history.won node.currentTerm node.self
  leader : ∀ id, node.leaderId = some id → history.won node.currentTerm id

/-- The history backs an action. -/
def Backed (history : VoteHistory NodeId) (members : List NodeId) (self : NodeId) : Action → Prop
  | .sendRequestVote target _ _ => target ∈ members
  | .sendVoteResponse target term granted =>
    target ∈ members ∧ (granted = true → history.voted self term = some target)
  | .sendHeartbeat target term => target ∈ members ∧ history.won term self
  | .becameLeader term => history.won term self
  | .steppedDown _ => True

namespace Recorded

variable {history history' : VoteHistory NodeId} {members : List NodeId} {node node' : Election}

theorem majority_eq (recorded : Recorded history members node) :
    node.majority = members.length / 2 + 1 := by
  unfold majority
  rw [recorded.size]

theorem of_same (recorded : Recorded history members node) (same : node.SameBallot node') :
    Recorded history members node' where
  member := same.self ▸ recorded.member
  size := by
    unfold clusterSize
    rw [same.peers]
    exact recorded.size
  peers := same.peers ▸ recorded.peers
  vote := by
    rw [same.self, same.currentTerm, same.votedFor]
    exact recorded.vote
  future term later := by
    rw [same.currentTerm] at later
    rw [same.self]
    exact recorded.future term later
  ballot standing := by
    rw [same.role] at standing
    rw [same.votesGranted, same.currentTerm, same.self]
    exact recorded.ballot standing
  leads leading := by
    rw [same.role] at leading
    rw [same.currentTerm, same.self]
    exact recorded.leads leading
  leader id isLeader := by
    rw [same.leaderId] at isLeader
    rw [same.currentTerm]
    exact recorded.leader id isLeader

/-- Another node's step leaves the record valid. -/
theorem mono (recorded : Recorded history members node) {other : NodeId}
    (grows : history.Grows other history') (different : node.self ≠ other) :
    Recorded history' members node where
  member := recorded.member
  size := recorded.size
  peers := recorded.peers
  vote := (grows.others different).trans recorded.vote
  future term later := (grows.others different).trans (recorded.future term later)
  ballot standing :=
    ⟨(recorded.ballot standing).1, (recorded.ballot standing).2.1, fun voter member =>
      grows.kept ((recorded.ballot standing).2.2 voter member)⟩
  leads leading := grows.won (recorded.leads leading)
  leader id isLeader := grows.won (recorded.leader id isLeader)

/-! ### The moves -/

/-- **Observe a higher term**: no vote has been cast in it. -/
theorem observeTerm (recorded : Recorded history members node) (term : Nat) (now : Millis) :
    Recorded history members (node.observeTerm term now).1 := by
  unfold Election.observeTerm
  by_cases old : term ≤ node.currentTerm
  · rw [if_pos old]
    exact recorded
  · rw [if_neg old]
    refine of_same ?_ (resetElectionTimer_same _ now)
    have higher : node.currentTerm < term := Nat.lt_of_not_le old
    exact
      { member := recorded.member
        size := recorded.size
        peers := recorded.peers
        vote := recorded.future term higher
        future := fun later less => recorded.future later (higher.trans less)
        ballot := fun standing => absurd rfl standing
        leads := fun leading => nomatch leading
        leader := fun id isLeader => nomatch isLeader }

/-- **Vote** for a candidate, if no other vote was cast in the term. -/
theorem castVote (recorded : Recorded history members node) {choice : NodeId}
    (free : node.votedFor = none ∨ node.votedFor = some choice) :
    Recorded (history.vote node.self node.currentTerm choice) members
      { node with votedFor := some choice } := by
  rw [← recorded.vote] at free
  have grows := VoteHistory.grows_vote free
  exact
    { member := recorded.member
      size := recorded.size
      peers := recorded.peers
      vote := VoteHistory.voted_vote_self _ _ _ _
      future := fun term later =>
        (if_neg fun both => Nat.ne_of_gt later both.2).trans (recorded.future term later)
      ballot := fun standing =>
        ⟨(recorded.ballot standing).1, (recorded.ballot standing).2.1, fun voter member =>
          grows.kept ((recorded.ballot standing).2.2 voter member)⟩
      leads := recorded.leads
      leader := recorded.leader }

/-- **Count a vote** that was cast for this candidate. -/
theorem count (recorded : Recorded history members node) {voter : NodeId}
    (inside : voter ∈ members) (new : voter ∉ node.votesGranted)
    (voted : history.voted voter node.currentTerm = some node.self) :
    Recorded history members { node with votesGranted := node.votesGranted ++ [voter] } :=
  { recorded with
    ballot := fun standing => by
      obtain ⟨nodup, subset, votes⟩ := recorded.ballot standing
      refine ⟨?_, ?_, ?_⟩
      · exact nodup.append (List.nodup_singleton voter) (List.disjoint_singleton.mpr new)
      · exact List.append_subset.mpr ⟨subset, by simpa using inside⟩
      · intro other member
        rcases List.mem_append.mp member with old | isNew
        · exact votes other old
        · rw [List.mem_singleton.mp isNew]
          exact voted }

/-- **Lead**, with the votes of a majority. -/
theorem becomeLeader (recorded : Recorded history members node) (sound : history.Sound members)
    (standing : node.role = .candidate) (enough : node.votesGranted.length ≥ node.majority)
    (now : Millis) :
    let history' := history.win node.currentTerm node.self
    history.Grows node.self history' ∧ history'.Sound members ∧
      Recorded history' members (node.becomeLeader now).1 ∧
        ∀ action ∈ (node.becomeLeader now).2, Backed history' members node.self action := by
  have notFollower : node.role ≠ .follower := by
    rw [standing]
    decide
  obtain ⟨nodup, subset, votes⟩ := recorded.ballot notFollower
  rw [recorded.majority_eq] at enough
  have wins : (history.win node.currentTerm node.self).won node.currentTerm node.self :=
    Or.inr ⟨rfl, rfl⟩
  refine ⟨VoteHistory.grows_win _ _ _ _, sound.win ⟨nodup, subset, enough⟩ votes, ?_, ?_⟩
  · exact
      { member := recorded.member
        size := recorded.size
        peers := recorded.peers
        vote := recorded.vote
        future := recorded.future
        ballot := fun _ => ⟨nodup, subset, votes⟩
        leads := fun _ => wins
        leader := fun id isLeader => by
          cases isLeader
          exact wins }
  · intro action member
    rcases List.mem_cons.mp member with rfl | heartbeat
    · exact wins
    · obtain ⟨peer, isPeer, rfl⟩ := List.mem_map.mp heartbeat
      exact ⟨recorded.peers isPeer, wins⟩

/-- **Stand** in the next term, voting for oneself. -/
theorem stand (recorded : Recorded history members node)
    (bounded : node.currentTerm < 2 ^ 64 - 1) (now : Millis) :
    history.Grows node.self (history.vote node.self (node.currentTerm + 1) node.self) ∧
      Recorded (history.vote node.self (node.currentTerm + 1) node.self) members
        (node.standing now) := by
  have next : nextTerm node.currentTerm = node.currentTerm + 1 :=
    Nat.mod_eq_of_lt (by omega)
  have free := recorded.future (node.currentTerm + 1) (Nat.lt_succ_self _)
  refine ⟨VoteHistory.grows_vote (Or.inl free), ?_⟩
  refine of_same ?_ (resetElectionTimer_same _ now)
  exact
    { member := recorded.member
      size := recorded.size
      peers := recorded.peers
      vote := by
        rw [next]
        exact VoteHistory.voted_vote_self _ _ _ _
      future := fun term later => by
        rw [next] at later
        refine (if_neg fun both => Nat.ne_of_gt later both.2).trans ?_
        exact recorded.future term ((Nat.lt_succ_self _).trans later)
      ballot := fun _ => by
        refine ⟨List.nodup_singleton _, by simpa using recorded.member, fun voter member => ?_⟩
        rw [List.mem_singleton.mp member, next]
        exact VoteHistory.voted_vote_self _ _ _ _
      leads := fun leading => nomatch leading
      leader := fun id isLeader => nomatch isLeader }

/-- **Follow** the leader of the term, giving up whatever the node was. -/
theorem follow (recorded : Recorded history members node) {leader : NodeId}
    (won : history.won node.currentTerm leader) (now : Millis) :
    Recorded history members (node.becomeFollower node.currentTerm (some leader) now) := by
  refine of_same ?_ (resetElectionTimer_same _ now)
  exact
    { member := recorded.member
      size := recorded.size
      peers := recorded.peers
      vote := recorded.vote
      future := recorded.future
      ballot := fun standing => absurd rfl standing
      leads := fun leading => nomatch leading
      leader := fun id isLeader => by
        cases isLeader
        exact won }

end Recorded

/-- A node that has just been made, with all other members as its peers. -/
theorem recorded_create {members : List NodeId} (distinct : members.Nodup) {id : NodeId}
    (member : id ∈ members) (config : ElectionConfig) :
    Recorded VoteHistory.empty members (create id (members.filter (· != id)) config) := by
  have size : (members.filter (· != id)).length + 1 = members.length := by
    rw [← distinct.erase_eq_filter id]
    exact List.length_erase_add_one member
  refine Recorded.of_same ?_ (resetElectionTimer_same _ 0)
  exact
    { member := member
      size := size
      peers := List.filter_subset_self members
      vote := rfl
      future := fun _ _ => rfl
      ballot := fun standing => absurd rfl standing
      leads := fun leading => nomatch leading
      leader := fun leader isLeader => nomatch isLeader }

/-! ### The handlers -/

/-- The result of a handler is recorded in an extension of the history that backs its actions. -/
def Keeps (history : VoteHistory NodeId) (members : List NodeId) (node : Election)
    (result : Election × ActionList) : Prop :=
  ∃ history', history.Grows node.self history' ∧ history'.Sound members ∧
    Recorded history' members result.1 ∧ result.1.self = node.self ∧
      (∀ action ∈ result.2, Backed history' members node.self action) ∧
        ∀ term winner, history'.won term winner → history.won term winner ∨
          (result.1.role = .leader ∧ term = result.1.currentTerm ∧ winner = node.self)

section Handlers

variable {history : VoteHistory NodeId} {members : List NodeId} {node : Election}

theorem keeps_silent (sound : history.Sound members) {node' : Election}
    (recorded : Recorded history members node') (same : node'.self = node.self) :
    Keeps history members node (node', []) :=
  ⟨history, VoteHistory.Grows.refl _ _, sound, recorded, same,
    fun _ member => absurd member List.not_mem_nil, fun _ _ => Or.inl⟩

theorem self_observeTerm (node : Election) (term : Nat) (now : Millis) :
    (node.observeTerm term now).1.self = node.self := by
  unfold observeTerm
  by_cases old : term ≤ node.currentTerm
  · rw [if_pos old]
  · rw [if_neg old]
    exact (resetElectionTimer_same _ now).self

/-- After observing a term that is not older, the node is in it. -/
theorem currentTerm_observeTerm {term : Nat} (current : node.currentTerm ≤ term) (now : Millis) :
    (node.observeTerm term now).1.currentTerm = term := by
  unfold observeTerm
  by_cases old : term ≤ node.currentTerm
  · rw [if_pos old]
    exact Nat.le_antisymm current old
  · rw [if_neg old]
    exact (resetElectionTimer_same _ now).currentTerm

theorem becomeCandidate_keeps (sound : history.Sound members)
    (recorded : Recorded history members node) (bounded : node.currentTerm < 2 ^ 64 - 1)
    (now : Millis) : Keeps history members node (node.becomeCandidate now) := by
  obtain ⟨grows, standing⟩ := recorded.stand bounded now
  have sound' := sound.mono grows fun won => won
  have sameSelf : (node.standing now).self = node.self := (resetElectionTimer_same _ now).self
  unfold becomeCandidate
  by_cases enough : (node.standing now).votesGranted.length ≥ (node.standing now).majority
  · simp only [if_pos enough]
    have isCandidate : (node.standing now).role = .candidate := (resetElectionTimer_same _ now).role
    have leading := standing.becomeLeader sound' isCandidate enough now
    rw [sameSelf] at leading
    obtain ⟨grows', sound'', leading, backed⟩ := leading
    exact ⟨_, grows.trans grows', sound'', leading, sameSelf, backed, fun term winner won =>
      won.imp id fun new => ⟨rfl, new⟩⟩
  · simp only [if_neg enough]
    refine ⟨_, grows, sound', standing, sameSelf, fun action member => ?_, fun _ _ => Or.inl⟩
    obtain ⟨peer, isPeer, rfl⟩ := List.mem_map.mp member
    exact standing.peers isPeer

theorem tick_keeps (sound : history.Sound members) (recorded : Recorded history members node)
    (bounded : node.currentTerm < 2 ^ 64 - 1) (now : Millis) :
    Keeps history members node (node.tick now) := by
  unfold tick
  split_ifs with leading
  · refine ⟨history, VoteHistory.Grows.refl _ _, sound,
      recorded.of_same (broadcastHeartbeat_same node now), rfl, fun action member => ?_,
      fun _ _ => Or.inl⟩
    obtain ⟨peer, isPeer, rfl⟩ := List.mem_map.mp member
    exact ⟨recorded.peers isPeer, recorded.leads leading⟩
  · exact keeps_silent sound recorded rfl
  · exact becomeCandidate_keeps sound recorded bounded now
  · exact keeps_silent sound recorded rfl

theorem answerVote_keeps (sound : history.Sound members)
    (recorded : Recorded history members node) {msg : RequestVote}
    (inside : msg.candidateId ∈ members) (now : Millis) :
    Keeps history members node (node.answerVote msg now) := by
  unfold answerVote
  by_cases granted : node.grants msg = true
  · simp only [granted, if_true]
    have free := (of_decide_eq_true granted).2.1
    have grows : history.Grows node.self
        (history.vote node.self node.currentTerm msg.candidateId) :=
      VoteHistory.grows_vote (recorded.vote ▸ free)
    have timer := resetElectionTimer_same { node with votedFor := some msg.candidateId } now
    refine ⟨_, grows, sound.mono grows fun won => won, ?_, timer.self, ?_, fun _ _ => Or.inl⟩
    · exact ((recorded.castVote free).of_same timer).of_same ⟨rfl, rfl, rfl, rfl, rfl, rfl, rfl, rfl⟩
    · intro action member
      rw [List.mem_singleton.mp member]
      refine ⟨inside, fun _ => ?_⟩
      rw [timer.currentTerm]
      exact VoteHistory.voted_vote_self _ _ _ _
  · simp only [granted]
    refine ⟨history, VoteHistory.Grows.refl _ _, sound,
      recorded.of_same ⟨rfl, rfl, rfl, rfl, rfl, rfl, rfl, rfl⟩, rfl, fun action member => ?_,
      fun _ _ => Or.inl⟩
    rw [List.mem_singleton.mp member]
    exact ⟨inside, fun impossible => nomatch impossible⟩

/-- A handler that first observes the term of its message. -/
theorem Keeps.of_observed (term : Nat) (now : Millis) {result : Election × ActionList}
    (keeps : Keeps history members (node.observeTerm term now).1 result) :
    Keeps history members node result := by
  unfold Keeps at keeps ⊢
  rw [self_observeTerm] at keeps
  exact keeps

theorem onRequestVote_keeps (sound : history.Sound members)
    (recorded : Recorded history members node) {msg : RequestVote}
    (inside : msg.candidateId ∈ members) (now : Millis) :
    Keeps history members node (node.onRequestVote msg now) :=
  (answerVote_keeps sound (recorded.observeTerm msg.term now) inside now).of_observed msg.term now

theorem countVote_keeps (sound : history.Sound members)
    (recorded : Recorded history members node) {msg : VoteResponse}
    (voted : msg.granted = true → msg.voterId ∈ members ∧
      history.voted msg.voterId msg.term = some node.self) (now : Millis) :
    Keeps history members node (node.countVote msg now) := by
  unfold countVote
  by_cases elsewhere : node.role ≠ .candidate ∨ msg.term ≠ node.currentTerm
  · rw [if_pos elsewhere]
    exact keeps_silent sound recorded rfl
  · rw [if_neg elsewhere]
    obtain ⟨standing, sameTerm⟩ := not_or.mp elsewhere
    rw [not_not] at standing sameTerm
    by_cases refused : ¬ msg.granted = true
    · rw [if_pos refused]
      exact keeps_silent sound recorded rfl
    · rw [if_neg refused]
      obtain ⟨inside, vote⟩ := voted (not_not.mp refused)
      rw [sameTerm] at vote
      by_cases counted : msg.voterId ∈ node.votesGranted
      · rw [if_pos counted]
        exact keeps_silent sound recorded rfl
      · rw [if_neg counted]
        have more := recorded.count inside counted vote
        simp only
        split_ifs with enough
        · obtain ⟨grows, sound', leading, backed⟩ := more.becomeLeader sound standing enough now
          exact ⟨_, grows, sound', leading, rfl, backed, fun term winner won =>
            won.imp id fun new => ⟨rfl, new⟩⟩
        · exact keeps_silent sound more rfl

theorem onVoteResponse_keeps (sound : history.Sound members)
    (recorded : Recorded history members node) {msg : VoteResponse}
    (voted : msg.granted = true → msg.voterId ∈ members ∧
      history.voted msg.voterId msg.term = some node.self) (now : Millis) :
    Keeps history members node (node.onVoteResponse msg now) := by
  have observed := recorded.observeTerm msg.term now
  have sameSelf := node.self_observeTerm msg.term now
  refine Keeps.of_observed msg.term now ?_
  unfold onVoteResponse
  generalize node.observeTerm msg.term now = result at observed sameSelf
  obtain ⟨seen, higher⟩ := result
  cases higher with
  | true =>
    exact keeps_silent sound (observed.of_same ⟨rfl, rfl, rfl, rfl, rfl, rfl, rfl, rfl⟩) rfl
  | false => exact countVote_keeps sound observed (sameSelf ▸ voted) now

theorem hearLeader_keeps (sound : history.Sound members)
    (recorded : Recorded history members node) {leader : NodeId}
    (won : history.won node.currentTerm leader) (now : Millis) :
    Keeps history members node (node.hearLeader node.currentTerm leader now) := by
  unfold hearLeader
  by_cases following : node.role = .follower
  · rw [if_neg (not_not.mpr following)]
    have timer := resetElectionTimer_same { node with leaderId := some leader } now
    refine keeps_silent sound (Recorded.of_same ?_ timer) timer.self
    exact { recorded with
      leader := fun id isLeader => by
        cases isLeader
        exact won }
  · rw [if_pos following]
    refine ⟨history, VoteHistory.Grows.refl _ _, sound, recorded.follow won now,
      (resetElectionTimer_same _ now).self, fun action member => ?_, fun _ _ => Or.inl⟩
    split_ifs at member
    · rw [List.mem_singleton.mp member]
      trivial
    · cases member

theorem onAppendEntries_keeps (sound : history.Sound members)
    (recorded : Recorded history members node) {term : Nat} {leader : NodeId}
    (won : history.won term leader) (now : Millis) :
    Keeps history members node (node.onAppendEntries term leader now) := by
  unfold onAppendEntries
  by_cases stale : term < node.currentTerm
  · rw [if_pos stale]
    exact keeps_silent sound recorded rfl
  · rw [if_neg stale]
    have sameTerm := currentTerm_observeTerm (Nat.le_of_not_lt stale) now
    have won' : history.won (node.observeTerm term now).1.currentTerm leader := by
      rw [sameTerm]
      exact won
    have heard := hearLeader_keeps sound (recorded.observeTerm term now) won' now
    rw [sameTerm] at heard
    exact heard.of_observed term now

theorem onAppendResponse_keeps (sound : history.Sound members)
    (recorded : Recorded history members node) (term : Nat) (now : Millis) :
    Keeps history members node (node.onAppendResponse term now) := by
  have observed := recorded.observeTerm term now
  refine Keeps.of_observed term now ?_
  unfold onAppendResponse
  generalize node.observeTerm term now = result at observed
  obtain ⟨seen, higher⟩ := result
  cases higher with
  | true =>
    refine ⟨history, VoteHistory.Grows.refl _ _, sound, observed, rfl, fun action member => ?_,
      fun _ _ => Or.inl⟩
    rw [List.mem_singleton.mp member]
    trivial
  | false => exact keeps_silent sound observed rfl

end Handlers

end Election

end Sententia
