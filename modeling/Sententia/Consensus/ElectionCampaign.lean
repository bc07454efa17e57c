/-
**One node's share of a campaign.** `Campaigns` ties a node's election to the votes of the cluster and to the
history of its logs at once; every handler keeps it, whoever else stands or leads. What the handlers need
of their callers is what the election cannot see: that a candidate has reached the term it asks for
votes in, and that the log of a candidate that gets one is up to date.

The handlers are composed of the six moves of `Recorded`, each of them a move of the campaign too.
-/

import Sententia.Consensus.ElectionInvariant
import Sententia.Library.Campaign

namespace Sententia

open Library

namespace Election

variable {Entry : Type*} {termOf : Entry → Nat} {members : List NodeId} {stands leads : NodeId → Prop}

/-- The election and the campaign agree. The predicates say who else stands and who else leads. -/
structure Campaigns (termOf : Entry → Nat) (members : List NodeId) (stands leads : NodeId → Prop)
    (campaign : Campaign NodeId Entry) (node : Election) : Prop where
  recorded : node.Recorded campaign.votes members
  term : campaign.logs.term node.self = node.currentTerm
  sound : campaign.Sound termOf members (Function.update stands node.self (node.role = .candidate))
    (Function.update leads node.self (node.role = .leader))

/-- The election moves, the campaign with it, and no log changes. -/
structure Moves (termOf : Entry → Nat) (members : List NodeId) (stands leads : NodeId → Prop)
    (campaign : Campaign NodeId Entry) (node : Election) (campaign' : Campaign NodeId Entry)
    (node' : Election) : Prop where
  campaigns : node'.Campaigns termOf members stands leads campaign'
  grows : campaign.Grows node.self campaign'
  self : node'.self = node.self
  log : campaign'.logs.log = campaign.logs.log

variable {campaign campaign' campaign'' : Campaign NodeId Entry} {node node' node'' : Election}

theorem Moves.trans (first : Moves termOf members stands leads campaign node campaign' node')
    (second : Moves termOf members stands leads campaign' node' campaign'' node'') :
    Moves termOf members stands leads campaign node campaign'' node'' where
  campaigns := second.campaigns
  grows := first.grows.trans (first.self ▸ second.grows)
  self := second.self.trans first.self
  log := second.log.trans first.log

/-- What a predicate says of a node may become less. -/
theorem update_imp {holds : NodeId → Prop} {id : NodeId} {now before : Prop} (less : now → before)
    (any : NodeId) (still : Function.update holds id now any) : Function.update holds id before any := by
  by_cases same : any = id
  · subst same
    rw [Function.update_self] at still ⊢
    exact less still
  · rw [Function.update_of_ne same] at still ⊢
    exact still

namespace Campaigns

/-- Timers and counters do not matter. -/
theorem of_same (campaigns : node.Campaigns termOf members stands leads campaign)
    (same : node.SameBallot node') : Moves termOf members stands leads campaign node campaign node' where
  campaigns :=
    { recorded := campaigns.recorded.of_same same
      term := by
        rw [same.self, same.currentTerm]
        exact campaigns.term
      sound := by
        rw [same.self, same.role]
        exact campaigns.sound }
  grows := .refl _ _
  self := same.self
  log := rfl

theorem refl (campaigns : node.Campaigns termOf members stands leads campaign) :
    Moves termOf members stands leads campaign node campaign node :=
  campaigns.of_same ⟨rfl, rfl, rfl, rfl, rfl, rfl, rfl, rfl⟩

/-- Being told of the log head does not matter. -/
theorem setLastLogSeq (campaigns : node.Campaigns termOf members stands leads campaign) (seq : Nat) :
    (node.setLastLogSeq seq).Campaigns termOf members stands leads campaign :=
  ⟨{ campaigns.recorded with }, campaigns.term, campaigns.sound⟩

/-- A leader's log is the log of its term. -/
theorem office (campaigns : node.Campaigns termOf members stands leads campaign)
    (leading : node.role = .leader) :
    campaign.logs.log node.self = campaign.logs.lead node.currentTerm := by
  have leads : Function.update leads node.self (node.role = .leader) node.self := by
    rw [Function.update_self]
    exact leading
  rw [← campaigns.term]
  exact (campaigns.sound.office leads).2

/-! ### The moves -/

/-- **Observe a term**: a higher one makes a follower of the node. -/
theorem observeTerm (campaigns : node.Campaigns termOf members stands leads campaign) (term : Nat)
    (now : Millis) :
    ∃ campaign', Moves termOf members stands leads campaign node campaign' (node.observeTerm term now).1 := by
  have recorded := campaigns.recorded.observeTerm term now
  unfold Election.observeTerm at recorded ⊢
  by_cases old : term ≤ node.currentTerm
  · rw [if_pos old]
    exact ⟨campaign, campaigns.refl⟩
  · rw [if_neg old] at recorded ⊢
    have higher : campaign.logs.term node.self ≤ term := by
      rw [campaigns.term]
      exact Nat.le_of_not_le old
    have quits : campaign.Sound termOf members (Function.update stands node.self False)
        (Function.update leads node.self False) :=
      campaigns.sound.fewer (update_imp False.elim) (update_imp False.elim)
    have timer := resetElectionTimer_same { node with
      currentTerm := term
      votedFor := none
      role := .follower
      leaderId := none
      votesGranted := []
      stats := { node.stats with
        highestTermSeen := max node.stats.highestTermSeen term
        stepDowns :=
          if node.role = NodeRole.leader then node.stats.stepDowns + 1
          else node.stats.stepDowns } } now
    have self := timer.self
    refine ⟨{ campaign with logs := campaign.logs.raise node.self term },
      ⟨recorded, ?_, ?_⟩, Campaign.Sound.grows_raise campaign higher, self, rfl⟩
    · rw [self, timer.currentTerm]
      exact Function.update_self _ _ _
    · rw [self, timer.role]
      have follows : (NodeRole.follower = .candidate) = False ∧ (NodeRole.follower = .leader) = False := by
        simp
      show Campaign.Sound _ _ (Function.update _ _ (NodeRole.follower = .candidate))
        (Function.update _ _ (NodeRole.follower = .leader)) _
      rw [follows.1, follows.2]
      refine quits.observe higher ?_ ?_ <;> simp

/-- **Vote** for a candidate, if no other vote was cast in the term. -/
theorem vote (campaigns : node.Campaigns termOf members stands leads campaign) {choice : NodeId}
    (free : node.votedFor = none ∨ node.votedFor = some choice)
    (reached : node.currentTerm ≤ campaign.logs.term choice)
    (upToDate : stands choice → campaign.logs.term choice = node.currentTerm →
      UpToDate termOf (campaign.logs.log node.self) (campaign.logs.log choice)) :
    ∃ campaign', Moves termOf members stands leads campaign node campaign'
        { node with votedFor := some choice } ∧
      campaign'.votes.voted node.self node.currentTerm = some choice := by
  have unvoted := free
  rw [← campaigns.recorded.vote, ← campaigns.term] at unvoted
  obtain ⟨logs, grows, sound, sameLog, sameTerm⟩ := campaigns.sound.vote unvoted
    (campaigns.term ▸ reached) (fun standing sameTerm => by
      by_cases itself : choice = node.self
      · rw [itself]
        exact Or.inr ⟨rfl, Nat.le_refl _⟩
      · rw [Function.update_of_ne itself] at standing
        exact upToDate standing (sameTerm.trans campaigns.term))
  rw [campaigns.term] at grows sound
  refine ⟨_, ⟨⟨campaigns.recorded.castVote free, ?_, sound⟩, grows, rfl, sameLog⟩,
    VoteHistory.voted_vote_self _ _ _ _⟩
  show logs.term node.self = node.currentTerm
  rw [sameTerm]
  exact campaigns.term

/-- **Count a vote** that was cast for this candidate. -/
theorem count (campaigns : node.Campaigns termOf members stands leads campaign) {voter : NodeId}
    (inside : voter ∈ members) (new : voter ∉ node.votesGranted)
    (voted : campaign.votes.voted voter node.currentTerm = some node.self) :
    Moves termOf members stands leads campaign node campaign
      { node with votesGranted := node.votesGranted ++ [voter] } :=
  ⟨⟨campaigns.recorded.count inside new voted, campaigns.term, campaigns.sound⟩, .refl _ _, rfl, rfl⟩

/-- **Stand** in the next term, voting for oneself. -/
theorem stand (campaigns : node.Campaigns termOf members stands leads campaign)
    (bounded : node.currentTerm < 2 ^ 64 - 1) (now : Millis) :
    ∃ campaign', Moves termOf members stands leads campaign node campaign' (node.standing now) := by
  have next : nextTerm node.currentTerm = node.currentTerm + 1 := Nat.mod_eq_of_lt (by omega)
  obtain ⟨_, recorded⟩ := campaigns.recorded.stand bounded now
  have timer := resetElectionTimer_same { node with
    currentTerm := nextTerm node.currentTerm
    role := .candidate
    leaderId := none
    votedFor := some node.self
    votesGranted := [node.self]
    stats := { node.stats with
      highestTermSeen := max node.stats.highestTermSeen (nextTerm node.currentTerm)
      electionsStarted := node.stats.electionsStarted + 1 } } now
  have self : (node.standing now).self = node.self := timer.self
  have role : (node.standing now).role = .candidate := timer.role
  have term : (node.standing now).currentTerm = node.currentTerm + 1 := timer.currentTerm.trans next
  have quits : campaign.Sound termOf members (Function.update stands node.self False)
      (Function.update leads node.self False) :=
    campaigns.sound.fewer (update_imp False.elim) (update_imp False.elim)
  have higher : campaign.logs.term node.self < node.currentTerm + 1 := by
    rw [campaigns.term]
    exact Nat.lt_succ_self _
  have standing : ∀ any,
      Function.update stands node.self ((node.standing now).role = .candidate) any →
        any = node.self ∨ Function.update stands node.self False any := by
    intro any standing
    by_cases same : any = node.self
    · exact Or.inl same
    · rw [Function.update_of_ne same] at standing ⊢
      exact Or.inr standing
  have leading : ∀ any, Function.update leads node.self ((node.standing now).role = .leader) any →
      Function.update leads node.self False any :=
    update_imp fun leading => by
      rw [role] at leading
      cases leading
  obtain ⟨logs, grows, sound, sameLog, ownTerm⟩ := quits.stand higher (by simp) (by simp)
    (campaigns.recorded.future _ (Nat.lt_succ_self _)) standing leading
  refine ⟨_, ⟨recorded, ?_, ?_⟩, grows, self, sameLog⟩
  · rw [self, term]
    exact ownTerm
  · rw [self]
    exact sound

/-- **Lead**, with the votes of a majority. -/
theorem becomeLeader (campaigns : node.Campaigns termOf members stands leads campaign)
    (standing : node.role = .candidate) (enough : node.votesGranted.length ≥ node.majority)
    (now : Millis) :
    ∃ campaign', Moves termOf members stands leads campaign node campaign' (node.becomeLeader now).1 ∧
      campaign'.votes.won node.currentTerm node.self ∧ campaign'.logs.led node.currentTerm ∧
        campaign'.logs.base node.currentTerm = campaign.logs.log node.self := by
  have notFollower : node.role ≠ .follower := by
    rw [standing]
    decide
  obtain ⟨nodup, subset, votes⟩ := campaigns.recorded.ballot notFollower
  obtain ⟨_, _, recorded, _⟩ :=
    campaigns.recorded.becomeLeader campaigns.sound.votes standing enough now
  rw [campaigns.recorded.majority_eq] at enough
  have isCandidate : Function.update stands node.self (node.role = .candidate) node.self := by
    rw [Function.update_self]
    exact standing
  have standing' : ∀ any,
      Function.update stands node.self ((node.becomeLeader now).1.role = .candidate) any →
        Function.update stands node.self (node.role = .candidate) any ∧ any ≠ node.self := by
    intro any standing'
    by_cases same : any = node.self
    · subst same
      rw [Function.update_self] at standing'
      cases standing'
    · rw [Function.update_of_ne same] at standing' ⊢
      exact ⟨standing', same⟩
  have leading' : ∀ any,
      Function.update leads node.self ((node.becomeLeader now).1.role = .leader) any →
        any = node.self ∨ Function.update leads node.self (node.role = .leader) any := by
    intro any leading
    by_cases same : any = node.self
    · exact Or.inl same
    · rw [Function.update_of_ne same] at leading ⊢
      exact Or.inr leading
  have wins := campaigns.sound.win isCandidate ⟨nodup, subset, enough⟩ (campaigns.term ▸ votes)
    standing' leading'
  rw [campaigns.term] at wins
  obtain ⟨grows, sound, started, led⟩ := wins
  exact ⟨⟨campaign.votes.win node.currentTerm node.self, campaign.logs.elect node.self⟩,
    ⟨⟨recorded, campaigns.term, sound⟩, grows, rfl, rfl⟩, Or.inr ⟨rfl, rfl⟩, led, started⟩

/-- **Follow** the leader of the term, giving up whatever the node was. -/
theorem follow (campaigns : node.Campaigns termOf members stands leads campaign) {leader : NodeId}
    (won : campaign.votes.won node.currentTerm leader) (now : Millis) :
    Moves termOf members stands leads campaign node campaign
      (node.becomeFollower node.currentTerm (some leader) now) := by
  have recorded := campaigns.recorded.follow won now
  have timer := resetElectionTimer_same { node with
    role := .follower
    currentTerm := node.currentTerm
    leaderId := some leader
    votesGranted := []
    stats := { node.stats with
      stepDowns :=
        if node.role = NodeRole.leader then node.stats.stepDowns + 1
        else node.stats.stepDowns } } now
  have self : (node.becomeFollower node.currentTerm (some leader) now).self = node.self := timer.self
  have role : (node.becomeFollower node.currentTerm (some leader) now).role = .follower := timer.role
  have term : (node.becomeFollower node.currentTerm (some leader) now).currentTerm = node.currentTerm :=
    timer.currentTerm
  refine ⟨⟨recorded, ?_, ?_⟩, .refl _ _, self, rfl⟩
  · rw [self, term]
    exact campaigns.term
  · rw [self, role]
    exact campaigns.sound.fewer (update_imp fun impossible => nomatch impossible)
      (update_imp fun impossible => nomatch impossible)

end Campaigns

/-! ### The handlers -/

/-- What a caller who was in some term makes of an action. -/
def noticeTerm (told : Nat) : Action → Nat
  | .becameLeader term => term
  | .steppedDown term => term
  | _ => told

/-- The campaign supports an action. -/
def Supported (campaign : Campaign NodeId Entry) (self : NodeId) : Action → Prop
  | .sendRequestVote _ term _ => term ≤ campaign.logs.term self
  | .sendVoteResponse target term granted =>
    granted = true → campaign.votes.voted self term = some target
  | .sendHeartbeat _ term => campaign.votes.won term self
  | .becameLeader term => campaign.votes.won term self ∧ campaign.logs.log self = campaign.logs.lead term
  | .steppedDown _ => True

/-- A handler's result is a move of the campaign, which supports what the handler wants done. A node that now
leads led before, or is told so and starts its term with the log it has. -/
def Carries (termOf : Entry → Nat) (members : List NodeId) (stands leads : NodeId → Prop)
    (campaign : Campaign NodeId Entry) (node : Election) (result : Election × ActionList) : Prop :=
  ∃ campaign', Moves termOf members stands leads campaign node campaign' result.1 ∧
    (∀ action ∈ result.2, Supported campaign' node.self action) ∧
      (result.1.role = .leader →
        (node.role = .leader ∧ result.1.currentTerm = node.currentTerm ∧
          ∀ told, result.2.foldl noticeTerm told = told) ∨
        ((∀ told, result.2.foldl noticeTerm told = result.1.currentTerm) ∧
          campaign'.logs.led result.1.currentTerm ∧
            campaign'.logs.base result.1.currentTerm = campaign.logs.log node.self))

/-- Messages tell no term. -/
theorem foldl_noticeTerm_map (told : Nat) (peers : List NodeId) (send : NodeId → Action)
    (quiet : ∀ peer, noticeTerm told (send peer) = told) :
    (peers.map send).foldl noticeTerm told = told := by
  induction peers with
  | nil => rfl
  | cons peer rest ih =>
    rw [List.map_cons, List.foldl_cons, quiet peer]
    exact ih

namespace Moves

/-- A handler that asks for nothing. -/
theorem silent (moves : Moves termOf members stands leads campaign node campaign' node')
    (office : node'.role = .leader → node.role = .leader ∧ node'.currentTerm = node.currentTerm) :
    Carries termOf members stands leads campaign node (node', []) := by
  refine ⟨campaign', moves, fun action member => ?_, fun leading => ?_⟩
  · cases member
  · exact Or.inl ⟨(office leading).1, (office leading).2, fun _ => rfl⟩

/-- A handler that first makes a move that takes nobody into office. -/
theorem carries (moves : Moves termOf members stands leads campaign node campaign' node')
    (office : node'.role = .leader → node.role = .leader ∧ node'.currentTerm = node.currentTerm)
    {result : Election × ActionList}
    (carries : Carries termOf members stands leads campaign' node' result) :
    Carries termOf members stands leads campaign node result := by
  obtain ⟨campaign'', moves', supported, leading⟩ := carries
  rw [moves.self] at supported leading
  refine ⟨campaign'', moves.trans moves', supported, fun isLeader => ?_⟩
  rcases leading isLeader with ⟨before, sameTerm, quiet⟩ | ⟨told, led, started⟩
  · exact Or.inl ⟨(office before).1, sameTerm.trans (office before).2, quiet⟩
  · rw [moves.log] at started
    exact Or.inr ⟨told, led, started⟩

end Moves

/-- A handler of an election that was told of the log head. -/
theorem Carries.of_setLastLogSeq {seq : Nat} {result : Election × ActionList}
    (carries : Carries termOf members stands leads campaign (node.setLastLogSeq seq) result) :
    Carries termOf members stands leads campaign node result := by
  obtain ⟨campaign', moves, rest⟩ := carries
  exact ⟨campaign', ⟨moves.campaigns, moves.grows, moves.self, moves.log⟩, rest⟩

/-- Observing a term takes nobody into office. -/
theorem office_observeTerm (node : Election) (term : Nat) (now : Millis)
    (leading : (node.observeTerm term now).1.role = .leader) :
    node.role = .leader ∧ (node.observeTerm term now).1.currentTerm = node.currentTerm := by
  unfold observeTerm at leading ⊢
  by_cases old : term ≤ node.currentTerm
  · rw [if_pos old] at leading ⊢
    exact ⟨leading, rfl⟩
  · rw [if_neg old] at leading
    have follows : NodeRole.follower = .leader := (resetElectionTimer_same _ now).role.symm.trans leading
    cases follows

section Handlers

variable (campaigns : node.Campaigns termOf members stands leads campaign)

include campaigns

/-- A handler that first observes the term of its message. -/
theorem carries_of_observed (term : Nat) (now : Millis) {result : Election × ActionList}
    (carries : ∀ campaign', Moves termOf members stands leads campaign node campaign'
      (node.observeTerm term now).1 →
        Carries termOf members stands leads campaign' (node.observeTerm term now).1 result) :
    Carries termOf members stands leads campaign node result := by
  obtain ⟨campaign', moves⟩ := campaigns.observeTerm term now
  exact moves.carries (node.office_observeTerm term now) (carries campaign' moves)

theorem becomeLeader_carries (standing : node.role = .candidate)
    (enough : node.votesGranted.length ≥ node.majority) (now : Millis) :
    Carries termOf members stands leads campaign node (node.becomeLeader now) := by
  obtain ⟨campaign', moves, won, led, started⟩ := campaigns.becomeLeader standing enough now
  refine ⟨campaign', moves, fun action member => ?_, fun _ => Or.inr ⟨fun told => ?_, led, started⟩⟩
  · rcases List.mem_cons.mp member with rfl | heartbeat
    · exact ⟨won, moves.campaigns.office rfl⟩
    · obtain ⟨peer, _, rfl⟩ := List.mem_map.mp heartbeat
      exact won
  · exact foldl_noticeTerm_map _ _ _ fun _ => rfl

theorem becomeCandidate_carries (bounded : node.currentTerm < 2 ^ 64 - 1) (now : Millis) :
    Carries termOf members stands leads campaign node (node.becomeCandidate now) := by
  obtain ⟨campaign', moves⟩ := campaigns.stand bounded now
  have isCandidate : (node.standing now).role = .candidate := (resetElectionTimer_same _ now).role
  have notLeader : (node.standing now).role ≠ .leader := by
    rw [isCandidate]
    decide
  unfold becomeCandidate
  by_cases enough : (node.standing now).votesGranted.length ≥ (node.standing now).majority
  · simp only [if_pos enough]
    exact moves.carries (fun leading => absurd leading notLeader)
      (becomeLeader_carries moves.campaigns isCandidate enough now)
  · simp only [if_neg enough]
    refine ⟨campaign', moves, fun action member => ?_, fun leading => absurd leading notLeader⟩
    obtain ⟨peer, _, rfl⟩ := List.mem_map.mp member
    have ownTerm := moves.campaigns.term
    rw [moves.self] at ownTerm
    exact Nat.le_of_eq ownTerm.symm

theorem tick_carries (bounded : node.currentTerm < 2 ^ 64 - 1) (now : Millis) :
    Carries termOf members stands leads campaign node (node.tick now) := by
  unfold tick
  split_ifs with leading
  · refine ⟨campaign, campaigns.of_same (broadcastHeartbeat_same node now), fun action member => ?_,
      fun _ => Or.inl ⟨leading, rfl, fun told => foldl_noticeTerm_map told _ _ fun _ => rfl⟩⟩
    obtain ⟨peer, _, rfl⟩ := List.mem_map.mp member
    exact campaigns.recorded.leads leading
  · exact campaigns.refl.silent fun isLeader => ⟨isLeader, rfl⟩
  · exact becomeCandidate_carries campaigns bounded now
  · exact campaigns.refl.silent fun isLeader => ⟨isLeader, rfl⟩

theorem answerVote_carries {msg : RequestVote}
    (reached : msg.term ≤ campaign.logs.term msg.candidateId)
    (current : msg.term ≤ node.currentTerm)
    (upToDate : node.grants msg = true → stands msg.candidateId →
      campaign.logs.term msg.candidateId = msg.term →
        UpToDate termOf (campaign.logs.log node.self) (campaign.logs.log msg.candidateId))
    (now : Millis) : Carries termOf members stands leads campaign node (node.answerVote msg now) := by
  unfold answerVote
  by_cases granted : node.grants msg = true
  · obtain ⟨fromTerm, free, _⟩ := of_decide_eq_true granted
    have sameTerm : msg.term = node.currentTerm := Nat.le_antisymm current fromTerm
    obtain ⟨campaign', moves, voted⟩ := campaigns.vote free (sameTerm ▸ reached)
      fun standing inTerm => upToDate granted standing (inTerm.trans sameTerm.symm)
    have timer := resetElectionTimer_same { node with votedFor := some msg.candidateId } now
    have timed := moves.trans (moves.campaigns.of_same timer)
    simp only [granted, if_true]
    refine ⟨campaign', timed.trans (timed.campaigns.of_same ⟨rfl, rfl, rfl, rfl, rfl, rfl, rfl, rfl⟩),
      fun action member => ?_,
      fun leading => Or.inl ⟨timer.role.symm.trans leading, timer.currentTerm, fun _ => rfl⟩⟩
    rw [List.mem_singleton.mp member]
    intro _
    rw [timer.currentTerm]
    exact voted
  · simp only [granted]
    refine ⟨campaign, campaigns.of_same ⟨rfl, rfl, rfl, rfl, rfl, rfl, rfl, rfl⟩, fun action member => ?_,
      fun leading => Or.inl ⟨leading, rfl, fun _ => rfl⟩⟩
    rw [List.mem_singleton.mp member]
    exact fun impossible => nomatch impossible

/-- **A vote request**, from a candidate that has reached its term. If the vote is granted and the candidate
still stands, its log must be up to date. -/
theorem onRequestVote_carries {msg : RequestVote}
    (reached : msg.term ≤ campaign.logs.term msg.candidateId) (now : Millis)
    (upToDate : (node.observeTerm msg.term now).1.grants msg = true → stands msg.candidateId →
      campaign.logs.term msg.candidateId = msg.term →
        UpToDate termOf (campaign.logs.log node.self) (campaign.logs.log msg.candidateId)) :
    Carries termOf members stands leads campaign node (node.onRequestVote msg now) := by
  refine carries_of_observed campaigns msg.term now fun campaign' moves => ?_
  have current : msg.term ≤ (node.observeTerm msg.term now).1.currentTerm := by
    by_cases old : msg.term ≤ node.currentTerm
    · unfold observeTerm
      rw [if_pos old]
      exact old
    · exact Nat.le_of_eq (currentTerm_observeTerm (Nat.le_of_not_le old) now).symm
  refine answerVote_carries moves.campaigns (reached.trans (moves.grows.term _)) current
    (fun granted standing inTerm => ?_) now
  by_cases itself : msg.candidateId = node.self
  · rw [itself, moves.self]
    exact Or.inr ⟨rfl, Nat.le_refl _⟩
  · rw [(moves.grows.others itself).1] at inTerm
    rw [moves.log, moves.self]
    exact upToDate granted standing inTerm

theorem countVote_carries {msg : VoteResponse}
    (voted : msg.granted = true → msg.voterId ∈ members ∧
      campaign.votes.voted msg.voterId msg.term = some node.self) (now : Millis) :
    Carries termOf members stands leads campaign node (node.countVote msg now) := by
  have stays : Carries termOf members stands leads campaign node (node, []) :=
    campaigns.refl.silent fun isLeader => ⟨isLeader, rfl⟩
  unfold countVote
  by_cases elsewhere : node.role ≠ .candidate ∨ msg.term ≠ node.currentTerm
  · rw [if_pos elsewhere]
    exact stays
  · rw [if_neg elsewhere]
    obtain ⟨standing, sameTerm⟩ := not_or.mp elsewhere
    rw [not_not] at standing sameTerm
    by_cases refused : ¬ msg.granted = true
    · rw [if_pos refused]
      exact stays
    · rw [if_neg refused]
      obtain ⟨inside, vote⟩ := voted (not_not.mp refused)
      rw [sameTerm] at vote
      by_cases counted : msg.voterId ∈ node.votesGranted
      · rw [if_pos counted]
        exact stays
      · rw [if_neg counted]
        have more := campaigns.count inside counted vote
        simp only
        split_ifs with enough
        · exact more.carries (fun isLeader => ⟨isLeader, rfl⟩)
            (becomeLeader_carries more.campaigns standing enough now)
        · exact more.silent fun isLeader => ⟨isLeader, rfl⟩

theorem onVoteResponse_carries {msg : VoteResponse}
    (voted : msg.granted = true → msg.voterId ∈ members ∧
      campaign.votes.voted msg.voterId msg.term = some node.self) (now : Millis) :
    Carries termOf members stands leads campaign node (node.onVoteResponse msg now) := by
  refine carries_of_observed campaigns msg.term now fun campaign' moves => ?_
  unfold onVoteResponse
  have sameSelf := moves.self
  have observed := moves.campaigns
  have grows := moves.grows.votes
  generalize node.observeTerm msg.term now = result at observed sameSelf
  obtain ⟨seen, higher⟩ := result
  cases higher with
  | true =>
    refine Moves.silent (observed.of_same ?_) fun isLeader => ⟨isLeader, rfl⟩
    exact ⟨rfl, rfl, rfl, rfl, rfl, rfl, rfl, rfl⟩
  | false =>
    refine countVote_carries observed (fun granted => ?_) now
    rw [sameSelf]
    exact ⟨(voted granted).1, grows.kept (voted granted).2⟩

theorem hearLeader_carries {leader : NodeId} (won : campaign.votes.won node.currentTerm leader)
    (now : Millis) :
    Carries termOf members stands leads campaign node (node.hearLeader node.currentTerm leader now) := by
  unfold hearLeader
  by_cases following : node.role = .follower
  · rw [if_neg (not_not.mpr following)]
    have recorded : Recorded campaign.votes members { node with leaderId := some leader } :=
      { campaigns.recorded with
        leader := fun id isLeader => by
          cases isLeader
          exact won }
    have told : Moves termOf members stands leads campaign node campaign
        { node with leaderId := some leader } :=
      ⟨⟨recorded, campaigns.term, campaigns.sound⟩, .refl _ _, rfl, rfl⟩
    have timer := resetElectionTimer_same { node with leaderId := some leader } now
    exact (told.trans (told.campaigns.of_same timer)).silent fun isLeader =>
      ⟨timer.role.symm.trans isLeader, timer.currentTerm⟩
  · rw [if_pos following]
    refine ⟨campaign, campaigns.follow won now, fun action member => ?_, fun leading => ?_⟩
    · split_ifs at member
      · rw [List.mem_singleton.mp member]
        trivial
      · cases member
    · have follows : NodeRole.follower = .leader := (resetElectionTimer_same _ now).role.symm.trans leading
      cases follows

theorem onAppendEntries_carries {term : Nat} {leader : NodeId} (won : campaign.votes.won term leader)
    (now : Millis) :
    Carries termOf members stands leads campaign node (node.onAppendEntries term leader now) := by
  unfold onAppendEntries
  by_cases stale : term < node.currentTerm
  · rw [if_pos stale]
    exact campaigns.refl.silent fun isLeader => ⟨isLeader, rfl⟩
  · rw [if_neg stale]
    refine carries_of_observed campaigns term now fun campaign' moves => ?_
    have sameTerm := currentTerm_observeTerm (Nat.le_of_not_lt stale) now
    have won' : campaign'.votes.won (node.observeTerm term now).1.currentTerm leader := by
      rw [sameTerm]
      exact moves.grows.votes.won won
    have heard := hearLeader_carries moves.campaigns won' now
    rw [sameTerm] at heard
    exact heard

omit campaigns in
/-- After an `AppendEntries` of no earlier term the node follows in its term. -/
theorem onAppendEntries_heard (node : Election) (term : Nat) (leader : NodeId) (now : Millis) :
    term < (node.onAppendEntries term leader now).1.currentTerm ∨
      ((node.onAppendEntries term leader now).1.role = .follower ∧
        (node.onAppendEntries term leader now).1.currentTerm = term) := by
  unfold onAppendEntries
  by_cases stale : term < node.currentTerm
  · rw [if_pos stale]
    exact Or.inl stale
  · rw [if_neg stale]
    have sameTerm := currentTerm_observeTerm (Nat.le_of_not_lt stale) now
    generalize (node.observeTerm term now).1 = seen at sameTerm
    unfold hearLeader
    by_cases following : seen.role = .follower
    · rw [if_neg (not_not.mpr following)]
      have timer := resetElectionTimer_same { seen with leaderId := some leader } now
      exact Or.inr ⟨timer.role.trans following, timer.currentTerm.trans sameTerm⟩
    · rw [if_pos following]
      exact Or.inr ⟨(resetElectionTimer_same _ now).role, (resetElectionTimer_same _ now).currentTerm⟩

theorem onAppendResponse_carries (term : Nat) (now : Millis) :
    Carries termOf members stands leads campaign node (node.onAppendResponse term now) := by
  unfold onAppendResponse
  by_cases old : term ≤ node.currentTerm
  · have same : node.observeTerm term now = (node, false) := if_pos old
    rw [same]
    exact campaigns.refl.silent fun isLeader => ⟨isLeader, rfl⟩
  · obtain ⟨campaign', moves⟩ := campaigns.observeTerm term now
    have news : (node.observeTerm term now).2 = true ∧
        (node.observeTerm term now).1.role ≠ .leader := by
      unfold observeTerm
      rw [if_neg old]
      refine ⟨rfl, ?_⟩
      have follows := (resetElectionTimer_same { node with
        currentTerm := term
        votedFor := none
        role := .follower
        leaderId := none
        votesGranted := []
        stats := { node.stats with
          highestTermSeen := max node.stats.highestTermSeen term
          stepDowns :=
            if node.role = NodeRole.leader then node.stats.stepDowns + 1
            else node.stats.stepDowns } } now).role
      rw [follows]
      exact nofun
    generalize node.observeTerm term now = result at moves news
    obtain ⟨seen, higher⟩ := result
    obtain ⟨rfl, notLeader⟩ := news
    refine ⟨campaign', moves, fun action member => ?_, fun leading => absurd leading notLeader⟩
    rw [List.mem_singleton.mp member]
    trivial

end Handlers

end Election

end Sententia
