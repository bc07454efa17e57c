/-
**One vote a term, over the lifetime of a node.** The election remembers its vote in `votedFor` and
forgets it with everything else when the process restarts: `resetVolatileState` clears it, and the node
program constructs its election anew. The durable store for term and vote is never consulted by either.

`Lifetime` is a node together with the votes it has made known, those from before its last restart kept
apart. Between restarts the election votes once a term; so a node votes twice in a term exactly if it
votes, after a restart, in a term in which it had voted for another candidate before (`oneVote_iff`). A
term that overflows has the same effect as a restart.
-/

import Sententia.Consensus.RoleNotifications

namespace Sententia

open Library

namespace Election

structure Ballot where
  term : Nat
  candidate : NodeId
deriving Repr, DecidableEq

/-- The vote that an action makes known: one granted to a candidate, or the node's own for itself. -/
def ballotOf (self : NodeId) : Action → Option Ballot
  | .sendRequestVote _ term _ => some ⟨term, self⟩
  | .sendVoteResponse target term true => some ⟨term, target⟩
  | .becameLeader term => some ⟨term, self⟩
  | _ => none

/-- The votes that the actions of a call make known. -/
def ballotsOf (self : NodeId) (actions : ActionList) : List Ballot :=
  actions.filterMap (ballotOf self)

/-- The vote that a call makes the node cast, by standing or by granting a request. -/
def casts (node : Election) : Call → Option Ballot
  | .tick now =>
    if node.role ≠ .leader ∧ now - node.lastHeardFromLeader ≥ node.electionTimeout then
      some ⟨nextTerm node.currentTerm, node.self⟩
    else none
  | .onRequestVote msg now =>
    if (node.observeTerm msg.term now).1.grants msg then some ⟨msg.term, msg.candidateId⟩ else none
  | _ => none

structure Lifetime where
  node : Election
  /-- Every vote made known. -/
  ballots : List Ballot := []
  /-- Those from before the last restart, or before the term last overflowed. -/
  forgotten : List Ballot := []

namespace Lifetime

inductive Label
  | call (call : Call)
  | resetVolatileState
  /-- The node program starts anew. -/
  | restart (peers : List NodeId) (config : ElectionConfig)

/-- The votes that the node no longer knows of once it is in the given term. -/
def past (life : Lifetime) (term : Nat) : List Ballot :=
  if term < life.node.currentTerm then life.ballots else life.forgotten

def step (life : Lifetime) : Label → Option Lifetime
  | .call call =>
    let (node, actions) := life.node.perform call
    some {
      node
      ballots := life.ballots ++ ballotsOf life.node.self actions
      forgotten := life.past node.currentTerm }
  | .resetVolatileState =>
    some { life with node := life.node.resetVolatileState, forgotten := life.ballots }
  | .restart peers config =>
    some { life with
      node := Election.create life.node.self peers config, forgotten := life.ballots }

/-- No two votes of one term are for different candidates. -/
def OneVote (life : Lifetime) : Prop :=
  ∀ first ∈ life.ballots, ∀ second ∈ life.ballots, first.term = second.term →
    first.candidate = second.candidate

/-- The vote that the step makes the node cast, if any, is not in a term in which it voted for another
candidate before its last restart. -/
def VotesAnew (life : Lifetime) : Label → Prop
  | .call call => ∀ ballot ∈ life.node.casts call, ∀ old ∈ life.past ballot.term,
      old.term = ballot.term → old.candidate = ballot.candidate
  | _ => True

instance (life : Lifetime) (label : Label) : Decidable (life.VotesAnew label) := by
  cases label <;> unfold VotesAnew <;> infer_instance

end Lifetime

/-! ### What a call does to the vote -/

theorem nextTerm_ne (term : Nat) : nextTerm term ≠ term := by
  unfold nextTerm
  omega

/-- The node's vote after a call that casts `ballot`. -/
structure Casts (node : Election) (ballot : Ballot) (result : Election × ActionList) : Prop where
  self : result.1.self = node.self
  term : result.1.currentTerm = ballot.term
  vote : result.1.votedFor = some ballot.candidate
  free : ballot.term = node.currentTerm →
    node.votedFor = none ∨ node.votedFor = some ballot.candidate
  standing : result.1.role ≠ .follower → ballot.candidate = node.self ∨
    (ballot.term = node.currentTerm ∧ node.role ≠ .follower)
  known : ballot ∈ ballotsOf node.self result.2
  only : ∀ other ∈ ballotsOf node.self result.2, other = ballot

/-- The node's vote after a call that casts none: as it was, or gone in a higher term. -/
structure Abstains (node : Election) (result : Election × ActionList) : Prop where
  self : result.1.self = node.self
  later : node.currentTerm ≤ result.1.currentTerm
  vote : result.1.currentTerm = node.currentTerm → result.1.votedFor = node.votedFor
  standing : result.1.role ≠ .follower →
    result.1.currentTerm = node.currentTerm ∧ node.role ≠ .follower
  won : ∀ ballot ∈ ballotsOf node.self result.2,
    ballot = ⟨node.currentTerm, node.self⟩ ∧ node.role ≠ .follower

theorem Abstains.of_same {node node' : Election} (same : node.SameBallot node') {actions : ActionList}
    (quiet : ballotsOf node.self actions = []) : node.Abstains (node', actions) where
  self := same.self
  later := Nat.le_of_eq same.currentTerm.symm
  vote _ := same.votedFor
  standing isStanding := ⟨same.currentTerm, same.role ▸ isStanding⟩
  won _ member := absurd (quiet ▸ member) List.not_mem_nil

theorem SameBallot.refl (node : Election) : node.SameBallot node :=
  ⟨rfl, rfl, rfl, rfl, rfl, rfl, rfl, rfl⟩

theorem ballotsOf_heartbeats (self : NodeId) (peers : List NodeId) (term : Nat) :
    ballotsOf self (peers.map fun peer => .sendHeartbeat peer term) = [] := by
  unfold ballotsOf
  rw [List.filterMap_map]
  exact List.filterMap_eq_nil_iff.mpr fun _ _ => rfl

theorem ballotsOf_becomeLeader (node : Election) (now : Millis) :
    ballotsOf node.self (node.becomeLeader now).2 = [⟨node.currentTerm, node.self⟩] := by
  show ballotsOf node.self (.becameLeader node.currentTerm :: _) = _
  unfold ballotsOf
  rw [List.filterMap_cons]
  show _ :: ballotsOf _ _ = _
  rw [ballotsOf_heartbeats]

theorem becomeCandidate_casts (node : Election) (now : Millis) :
    node.Casts ⟨nextTerm node.currentTerm, node.self⟩ (node.becomeCandidate now) := by
  have same := resetElectionTimer_same { node with
    currentTerm := nextTerm node.currentTerm
    role := .candidate
    leaderId := none
    votedFor := some node.self
    votesGranted := [node.self]
    stats := { node.stats with
      highestTermSeen := max node.stats.highestTermSeen (nextTerm node.currentTerm)
      electionsStarted := node.stats.electionsStarted + 1 } } now
  have self : (node.standing now).self = node.self := same.self
  have term : (node.standing now).currentTerm = nextTerm node.currentTerm := same.currentTerm
  have fresh : nextTerm node.currentTerm = node.currentTerm →
      node.votedFor = none ∨ node.votedFor = some node.self := fun equal =>
    absurd equal (nextTerm_ne _)
  unfold becomeCandidate
  by_cases enough : (node.standing now).votesGranted.length ≥ (node.standing now).majority
  · have leads := (node.standing now).ballotsOf_becomeLeader now
    rw [self, term] at leads
    simp only [if_pos enough]
    refine ⟨self, term, same.votedFor, fresh, fun _ => Or.inl rfl, ?_, ?_⟩
    · rw [leads]
      exact List.mem_singleton_self _
    · rw [leads]
      exact fun other member => List.mem_singleton.mp member
  · simp only [if_neg enough]
    have asks : ballotsOf node.self ((node.standing now).peers.map fun peer =>
        .sendRequestVote peer (node.standing now).currentTerm (node.standing now).lastLogSeq) =
          (node.standing now).peers.map fun _ => ⟨nextTerm node.currentTerm, node.self⟩ := by
      unfold ballotsOf
      rw [List.filterMap_map, term, ← List.filterMap_eq_map]
      rfl
    -- The node's own vote is a majority unless it has peers.
    have someone : (node.standing now).peers ≠ [] := by
      intro alone
      have votes : (node.standing now).votesGranted = [node.self] := same.votesGranted
      rw [votes] at enough
      unfold majority clusterSize at enough
      rw [alone] at enough
      exact enough (Nat.le_refl 1)
    obtain ⟨peer, isPeer⟩ := List.exists_mem_of_ne_nil _ someone
    refine ⟨self, term, same.votedFor, fresh, fun _ => Or.inl rfl, ?_, ?_⟩
    · rw [asks]
      exact List.mem_map.mpr ⟨peer, isPeer, rfl⟩
    · rw [asks]
      intro other member
      obtain ⟨_, _, rfl⟩ := List.mem_map.mp member
      rfl

theorem countVote_abstains (node : Election) (msg : VoteResponse) (now : Millis) :
    node.Abstains (node.countVote msg now) := by
  unfold countVote
  by_cases ignored : node.role ≠ .candidate ∨ msg.term ≠ node.currentTerm
  · rw [if_pos ignored]
    exact .of_same (.refl node) rfl
  · rw [if_neg ignored]
    push Not at ignored
    have notFollower : node.role ≠ .follower := by
      rw [ignored.1]
      decide
    simp only
    split_ifs
    · exact .of_same (.refl node) rfl
    · refine ⟨rfl, Nat.le_refl _, fun _ => rfl, fun _ => ⟨rfl, notFollower⟩, fun ballot member => ?_⟩
      have leads := ballotsOf_becomeLeader
        { node with votesGranted := node.votesGranted ++ [msg.voterId] } now
      exact ⟨List.mem_singleton.mp (leads ▸ member), notFollower⟩
    · exact ⟨rfl, Nat.le_refl _, fun _ => rfl, fun _ => ⟨rfl, notFollower⟩,
        fun _ member => absurd member List.not_mem_nil⟩
    · exact .of_same (.refl node) rfl

/-- The node stays in its term and ends as a follower. -/
theorem becomeFollower_abstains (node : Election) (leader : Option NodeId) (now : Millis)
    {actions : ActionList} (quiet : ballotsOf node.self actions = []) :
    node.Abstains (node.becomeFollower node.currentTerm leader now, actions) := by
  have term : (node.becomeFollower node.currentTerm leader now).currentTerm = node.currentTerm :=
    (resetElectionTimer_same _ now).currentTerm
  exact
    { self := (resetElectionTimer_same _ now).self
      later := Nat.le_of_eq term.symm
      vote := fun _ => (resetElectionTimer_same _ now).votedFor
      standing := fun isStanding => absurd (resetElectionTimer_same _ now).role isStanding
      won := fun _ member => absurd (quiet ▸ member) List.not_mem_nil }

theorem hearLeader_abstains (node : Election) (leaderId : NodeId) (now : Millis) :
    node.Abstains (node.hearLeader node.currentTerm leaderId now) := by
  unfold hearLeader
  split_ifs with standing leading
  · exact node.becomeFollower_abstains (some leaderId) now rfl
  · exact node.becomeFollower_abstains (some leaderId) now rfl
  · have same := resetElectionTimer_same { node with leaderId := some leaderId } now
    exact ⟨same.self, Nat.le_of_eq same.currentTerm.symm, fun _ => same.votedFor,
      fun isStanding => absurd (same.role.trans (not_not.mp standing)) isStanding,
      fun _ member => absurd member List.not_mem_nil⟩

/-- What a node that has observed a term abstains from, it abstains from. -/
theorem Abstains.of_observed {node : Election} {term : Nat} {now : Millis}
    {result : Election × ActionList} (news : node.currentTerm < term)
    (abstains : (node.observeTerm term now).1.Abstains result) : node.Abstains result := by
  have self := self_observeTerm node term now
  have later := currentTerm_observeTerm (Nat.le_of_lt news) now
  obtain ⟨follows, _⟩ := observeTerm_news news now
  have higher : node.currentTerm < result.1.currentTerm :=
    Nat.lt_of_lt_of_le news (later ▸ abstains.later)
  exact
    { self := abstains.self.trans self
      later := Nat.le_of_lt higher
      vote := fun unchanged => absurd unchanged (Nat.ne_of_gt higher)
      standing := fun isStanding => absurd follows (abstains.standing isStanding).2
      won := fun ballot member => absurd follows (abstains.won ballot (self ▸ member)).2 }

/-- A vote request is answered without a vote. -/
theorem answerVote_abstains {node : Election} {msg : RequestVote} (refused : ¬ node.grants msg = true)
    (now : Millis) : node.Abstains (node.answerVote msg now) := by
  unfold answerVote
  simp only [if_neg refused]
  exact ⟨rfl, Nat.le_refl _, fun _ => rfl, fun isStanding => ⟨rfl, isStanding⟩,
    fun _ member => absurd member List.not_mem_nil⟩

/-- **A call that casts no vote** makes none known but the one the node has cast for itself. -/
theorem perform_abstains {node : Election} {call : Call} (abstaining : node.casts call = none) :
    node.Abstains (node.perform call) := by
  -- Behind `observeTerm` the node is in the term of the message or a later one.
  have observed : ∀ term now result, (node.observeTerm term now).1.Abstains result →
      node.Abstains result := by
    intro term now result abstains
    rcases Nat.lt_or_ge node.currentTerm term with news | old
    · exact abstains.of_observed news
    · rw [observeTerm_old old] at abstains
      exact abstains
  cases call with
  | tick now =>
    show node.Abstains (node.tick now)
    unfold tick
    split_ifs with leading beat timeout
    · refine ⟨rfl, Nat.le_refl _, fun _ => rfl, fun isStanding => ⟨rfl, isStanding⟩, fun _ member => ?_⟩
      exact absurd (ballotsOf_heartbeats node.self node.peers _ ▸ member) List.not_mem_nil
    · exact .of_same (.refl node) rfl
    · have casting : node.casts (.tick now) = some _ := if_pos ⟨leading, timeout⟩
      rw [casting] at abstaining
      cases abstaining
    · exact .of_same (.refl node) rfl
  | onRequestVote msg now =>
    refine observed msg.term now _ (answerVote_abstains (fun granted => ?_) now)
    have casting : node.casts (.onRequestVote msg now) = some _ := if_pos granted
    rw [casting] at abstaining
    cases abstaining
  | onVoteResponse msg now =>
    show node.Abstains (node.onVoteResponse msg now)
    unfold onVoteResponse
    rcases Nat.lt_or_ge node.currentTerm msg.term with news | old
    · have heard := observed msg.term now
      obtain ⟨_, isNews⟩ := observeTerm_news news now
      generalize node.observeTerm msg.term now = result at heard isNews
      obtain ⟨node', news'⟩ := result
      obtain rfl : news' = true := isNews
      refine heard _ (Abstains.of_same ?_ rfl)
      exact ⟨rfl, rfl, rfl, rfl, rfl, rfl, rfl, rfl⟩
    · rw [observeTerm_old old]
      exact node.countVote_abstains msg now
  | onAppendEntries term leaderId now =>
    show node.Abstains (node.onAppendEntries term leaderId now)
    unfold onAppendEntries
    split_ifs with stale
    · exact .of_same (.refl node) rfl
    · have heard := (node.observeTerm term now).1.hearLeader_abstains leaderId now
      rw [currentTerm_observeTerm (Nat.le_of_not_lt stale)] at heard
      exact observed term now _ heard
  | onAppendResponse term now =>
    show node.Abstains (node.onAppendResponse term now)
    unfold onAppendResponse
    rcases Nat.lt_or_ge node.currentTerm term with news | old
    · have heard := observed term now
      obtain ⟨_, isNews⟩ := observeTerm_news news now
      generalize node.observeTerm term now = result at heard isNews
      obtain ⟨node', news'⟩ := result
      obtain rfl : news' = true := isNews
      exact heard _ (.of_same (.refl node') rfl)
    · rw [observeTerm_old old]
      exact .of_same (.refl node) rfl
  | setLastLogSeq seq =>
    exact ⟨rfl, Nat.le_refl _, fun _ => rfl, fun isStanding => ⟨rfl, isStanding⟩,
      fun _ member => absurd member List.not_mem_nil⟩

/-- A vote request is granted. -/
theorem answerVote_casts {node : Election} {msg : RequestVote} {now : Millis}
    (granted : (node.observeTerm msg.term now).1.grants msg = true) :
    node.Casts ⟨msg.term, msg.candidateId⟩ (node.onRequestVote msg now) := by
  obtain ⟨current, free, _⟩ := of_decide_eq_true granted
  -- A granted request is of the node's term or a later one.
  have reached : node.currentTerm ≤ msg.term ∧ (node.observeTerm msg.term now).1.currentTerm = msg.term := by
    rcases Nat.lt_or_ge node.currentTerm msg.term with news | old
    · exact ⟨Nat.le_of_lt news, currentTerm_observeTerm (Nat.le_of_lt news) now⟩
    · rw [observeTerm_old old] at current ⊢
      exact ⟨current, Nat.le_antisymm current old⟩
  obtain ⟨notBefore, sameTerm⟩ := reached
  have same := resetElectionTimer_same
    { (node.observeTerm msg.term now).1 with votedFor := some msg.candidateId } now
  have answers : ballotsOf node.self (node.onRequestVote msg now).2 =
      [⟨msg.term, msg.candidateId⟩] := by
    unfold onRequestVote answerVote
    simp only [if_pos granted]
    show [(⟨_, msg.candidateId⟩ : Ballot)] = _
    rw [same.currentTerm, sameTerm]
  unfold onRequestVote answerVote at answers ⊢
  simp only [if_pos granted] at answers ⊢
  refine ⟨?_, same.currentTerm.trans sameTerm, same.votedFor, fun equal => ?_, fun isStanding => ?_, ?_, ?_⟩
  · exact same.self.trans (self_observeTerm node msg.term now)
  · rw [observeTerm_old (Nat.le_of_eq equal)] at free
    exact free
  · rcases Nat.lt_or_ge node.currentTerm msg.term with news | old
    · exact absurd (same.role.trans (observeTerm_news news now).1) isStanding
    · have stays := same.role
      rw [observeTerm_old old] at stays isStanding
      exact Or.inr ⟨Nat.le_antisymm old notBefore, stays ▸ isStanding⟩
  · rw [answers]
    exact List.mem_singleton_self _
  · rw [answers]
    exact fun other member => List.mem_singleton.mp member

/-- **A call that casts a vote** makes exactly that vote known, in a term in which the node had voted for
nobody else. -/
theorem perform_casts {node : Election} {call : Call} {ballot : Ballot}
    (casting : node.casts call = some ballot) : node.Casts ballot (node.perform call) := by
  cases call with
  | tick now =>
    obtain ⟨⟨following, timeout⟩, cast⟩ := Option.ite_none_right_eq_some.mp casting
    obtain rfl := Option.some.inj cast
    show node.Casts _ (node.tick now)
    unfold tick
    rw [if_neg following, if_pos timeout]
    exact node.becomeCandidate_casts now
  | onRequestVote msg now =>
    obtain ⟨granted, cast⟩ := Option.ite_none_right_eq_some.mp casting
    obtain rfl := Option.some.inj cast
    exact answerVote_casts granted
  | onVoteResponse msg now => cases casting
  | onAppendEntries term leaderId now => cases casting
  | onAppendResponse term now => cases casting
  | setLastLogSeq seq => cases casting

/-! ### Runs -/

namespace Lifetime

/-- What the election still knows of the votes made known. -/
structure Remembers (life : Lifetime) : Prop where
  recent : ∀ ballot ∈ life.ballots, ballot ∈ life.forgotten ∨
    (ballot.term ≤ life.node.currentTerm ∧
      (ballot.term = life.node.currentTerm → life.node.votedFor = some ballot.candidate))
  standing : life.node.role ≠ .follower →
    life.node.votedFor = some life.node.self ∧ ⟨life.node.currentTerm, life.node.self⟩ ∈ life.ballots
  known : life.forgotten ⊆ life.ballots

namespace Remembers

variable {life : Lifetime}

theorem past_subset (remembers : life.Remembers) (term : Nat) : life.past term ⊆ life.ballots := by
  unfold past
  split_ifs
  · exact List.Subset.refl _
  · exact remembers.known

/-- A vote cast now agrees with the votes of its term that are not forgotten. -/
theorem agrees (remembers : life.Remembers) {ballot old : Ballot} {result : Election × ActionList}
    (casting : life.node.Casts ballot result) (member : old ∈ life.ballots)
    (sameTerm : old.term = ballot.term) :
    old ∈ life.past ballot.term ∨ old.candidate = ballot.candidate := by
  by_cases back : ballot.term < life.node.currentTerm
  · exact Or.inl (by rw [past, if_pos back]; exact member)
  · rcases remembers.recent old member with forgotten | ⟨notLater, vote⟩
    · exact Or.inl (by rw [past, if_neg back]; exact forgotten)
    · have current : old.term = life.node.currentTerm := by omega
      have voted := vote current
      rcases casting.free (sameTerm.symm.trans current) with nobody | same
      · rw [nobody] at voted
        cases voted
      · exact Or.inr (Option.some.inj (voted.symm.trans same))

/-- The votes a call without a vote makes known are known. -/
theorem mem_of_abstains (remembers : life.Remembers) {result : Election × ActionList}
    (abstains : life.node.Abstains result) {ballot : Ballot}
    (member : ballot ∈ life.ballots ++ ballotsOf life.node.self result.2) : ballot ∈ life.ballots := by
  rcases List.mem_append.mp member with old | new
  · exact old
  · obtain ⟨rfl, isStanding⟩ := abstains.won ballot new
    exact (remembers.standing isStanding).2

theorem call_casts (remembers : life.Remembers) {ballot : Ballot} {result : Election × ActionList}
    (casting : life.node.Casts ballot result) :
    Remembers
      { node := result.1
        ballots := life.ballots ++ ballotsOf life.node.self result.2
        forgotten := life.past result.1.currentTerm } := by
  refine ⟨fun other member => ?_, fun isStanding => ?_, ?_⟩
  · rcases List.mem_append.mp member with old | new
    · by_cases sameTerm : other.term = ballot.term
      · rcases remembers.agrees casting old sameTerm with forgotten | same
        · exact Or.inl (by rw [casting.term]; exact forgotten)
        · refine Or.inr ⟨by rw [casting.term, sameTerm], fun _ => ?_⟩
          rw [casting.vote, same]
      · by_cases back : ballot.term < life.node.currentTerm
        · exact Or.inl (by rw [casting.term, past, if_pos back]; exact old)
        · rcases remembers.recent other old with forgotten | ⟨notLater, _⟩
          · exact Or.inl (by rw [casting.term, past, if_neg back]; exact forgotten)
          · refine Or.inr ⟨?_, fun equal => absurd (equal.trans casting.term) sameTerm⟩
            rw [casting.term]
            omega
    · rw [casting.only other new]
      exact Or.inr ⟨Nat.le_of_eq casting.term.symm, fun _ => casting.vote⟩
  · have own : ballot.candidate = life.node.self := by
      rcases casting.standing isStanding with own | ⟨current, before⟩
      · exact own
      · have voted := (remembers.standing before).1
        rcases casting.free current with nobody | same
        · rw [nobody] at voted
          cases voted
        · exact Option.some.inj (same.symm.trans voted)
    have known : ⟨ballot.term, life.node.self⟩ ∈ ballotsOf life.node.self result.2 := by
      have isKnown := casting.known
      obtain ⟨term, candidate⟩ := ballot
      obtain rfl : candidate = life.node.self := own
      exact isKnown
    rw [casting.term, casting.self, casting.vote, own]
    exact ⟨rfl, List.mem_append_right _ known⟩
  · rw [casting.term]
    exact fun old member => List.mem_append_left _ (remembers.past_subset _ member)

theorem call_abstains (remembers : life.Remembers) {result : Election × ActionList}
    (abstains : life.node.Abstains result) :
    Remembers
      { node := result.1
        ballots := life.ballots ++ ballotsOf life.node.self result.2
        forgotten := life.past result.1.currentTerm } := by
  have unforgotten : life.past result.1.currentTerm = life.forgotten :=
    if_neg (Nat.not_lt.mpr abstains.later)
  rw [unforgotten]
  refine ⟨fun ballot member => ?_, fun isStanding => ?_, ?_⟩
  · rcases remembers.recent ballot (remembers.mem_of_abstains abstains member) with
      forgotten | ⟨notLater, vote⟩
    · exact Or.inl forgotten
    · refine Or.inr ⟨notLater.trans abstains.later, fun equal => ?_⟩
      have unchanged : result.1.currentTerm = life.node.currentTerm :=
        Nat.le_antisymm (equal ▸ notLater) abstains.later
      exact (abstains.vote unchanged).trans (vote (equal.trans unchanged))
  · obtain ⟨unchanged, before⟩ := abstains.standing isStanding
    obtain ⟨voted, member⟩ := remembers.standing before
    rw [unchanged, abstains.self, abstains.vote unchanged]
    exact ⟨voted, List.mem_append_left _ member⟩
  · exact fun old member => List.mem_append_left _ (remembers.known member)

/-- Everything is forgotten. -/
theorem restart {node : Election} (follows : node.role = .follower) (ballots : List Ballot) :
    Remembers { node, ballots, forgotten := ballots } :=
  ⟨fun _ => Or.inl, fun isStanding => absurd follows isStanding, List.Subset.refl _⟩

/-- Every step keeps the memory right, whatever is voted. -/
theorem step (remembers : life.Remembers) {label : Label} {next : Lifetime}
    (moved : life.step label = some next) : next.Remembers := by
  cases label with
  | call call =>
    obtain rfl := Option.some.inj moved
    cases casting : life.node.casts call with
    | some ballot => exact remembers.call_casts (perform_casts casting)
    | none => exact remembers.call_abstains (perform_abstains casting)
  | resetVolatileState =>
    obtain rfl := Option.some.inj moved
    exact .restart rfl life.ballots
  | restart peers config =>
    obtain rfl := Option.some.inj moved
    exact .restart (role_create _ peers config) life.ballots

/-- **A step votes once a term exactly if it votes anew.** -/
theorem oneVote_step_iff (remembers : life.Remembers) (once : life.OneVote) (label : Label) :
    life.VotesAnew label ↔ ∀ next, life.step label = some next → next.OneVote := by
  cases label with
  | resetVolatileState =>
    refine iff_of_true trivial fun next moved => ?_
    obtain rfl := Option.some.inj moved
    exact once
  | restart peers config =>
    refine iff_of_true trivial fun next moved => ?_
    obtain rfl := Option.some.inj moved
    exact once
  | call call =>
    cases abstaining : life.node.casts call with
    | none =>
      have abstains := perform_abstains abstaining
      refine iff_of_true (fun ballot casting => ?_) fun next moved => ?_
      · rw [abstaining] at casting
        cases casting
      · obtain rfl := Option.some.inj moved
        exact fun first member second member' => once first (remembers.mem_of_abstains abstains member)
          second (remembers.mem_of_abstains abstains member')
    | some ballot =>
      have casting := perform_casts abstaining
      constructor
      · intro anew next moved
        obtain rfl := Option.some.inj moved
        have agrees : ∀ old ∈ life.ballots, old.term = ballot.term → old.candidate = ballot.candidate := by
          intro old member sameTerm
          rcases remembers.agrees casting member sameTerm with forgotten | same
          · exact anew ballot abstaining old forgotten sameTerm
          · exact same
        intro first member second member' sameTerm
        rcases List.mem_append.mp member with old | new
        · rcases List.mem_append.mp member' with old' | new'
          · exact once first old second old' sameTerm
          · rw [casting.only second new'] at sameTerm ⊢
            exact agrees first old sameTerm
        · rw [casting.only first new] at sameTerm ⊢
          rcases List.mem_append.mp member' with old' | new'
          · exact (agrees second old' sameTerm.symm).symm
          · rw [casting.only second new']
      · intro once' cast isCast old member sameTerm
        obtain rfl : ballot = cast := Option.some.inj (abstaining.symm.trans isCast)
        refine once' _ rfl old (List.mem_append_left _ ?_) ballot
          (List.mem_append_right _ casting.known) sameTerm
        exact remembers.past_subset _ member

end Remembers

/-- **One vote a term over the lifetime of a node**: throughout exactly those runs in which the node,
after a restart, votes in no term in which it had voted for another candidate before. -/
theorem oneVote_iff (self : NodeId) (peers : List NodeId) (config : ElectionConfig)
    (labels : List Label) :
    Always step OneVote { node := Election.create self peers config } labels ↔
      Guarded step VotesAnew { node := Election.create self peers config } labels :=
  always_iff_guarded Remembers labels (fun remembers _ moved => remembers.step moved)
    (fun label remembers once => remembers.oneVote_step_iff once label)
    (.restart (role_create self peers config) []) (fun _ member => absurd member List.not_mem_nil)

/-- Node 1 votes for node 2 in term 1, restarts, and votes for node 3 in term 1. -/
def votesTwice : List Label :=
  [.call (.onRequestVote { term := 1, candidateId := 2, lastLogSeq := 0 } 10), .restart [2, 3] {},
    .call (.onRequestVote { term := 1, candidateId := 3, lastLogSeq := 0 } 20)]

theorem restart_votes_twice :
    (∃ life, run step { node := Election.create 1 [2, 3] {} } votesTwice = some life ∧
      life.ballots = [⟨1, 2⟩, ⟨1, 3⟩]) ∧
      ¬ Always step OneVote { node := Election.create 1 [2, 3] {} } votesTwice := by
  have ran : ∃ life, run step { node := Election.create 1 [2, 3] {} } votesTwice = some life ∧
      life.ballots = [⟨1, 2⟩, ⟨1, 3⟩] :=
    ⟨_, (Option.some_get (by decide +kernel)).symm, by decide +kernel⟩
  refine ⟨ran, fun always => ?_⟩
  obtain ⟨life, reached, ballots⟩ := ran
  have once := always votesTwice life List.prefix_rfl reached
  unfold OneVote at once
  rw [ballots] at once
  exact absurd (once ⟨1, 2⟩ (by simp) ⟨1, 3⟩ (by simp) rfl) (by decide)

end Lifetime

end Election

end Sententia
