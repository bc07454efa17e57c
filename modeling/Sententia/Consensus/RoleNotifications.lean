/-
**What the notifications say about the role.** An election tells its caller that it leads in a
`becameLeader` action, and that it no longer does in a `steppedDown` action. A caller that adds these up
is right exactly as long as no leader is handed a higher term in a vote request, a vote response or an
`AppendEntries` (`tracks_perform_iff`): in these three handlers `observeTerm` takes the role away before
the handler looks at it, and only `onAppendResponse` reports that.
-/

import Sententia.Consensus.ElectionInvariant
import Sententia.Library.Transition

namespace Sententia

open Library

namespace Election

/-- What a caller who thought that the node leads, or that it does not, makes of an action. -/
def notice (leads : Bool) : Action → Bool
  | .becameLeader _ => true
  | .steppedDown _ => false
  | _ => leads

/-- A leader is not handed a term above its own, unless in an `AppendResponse`. -/
def KeepsOffice (node : Election) : Call → Prop
  | .onRequestVote msg _ => node.role = .leader → msg.term ≤ node.currentTerm
  | .onVoteResponse msg _ => node.role = .leader → msg.term ≤ node.currentTerm
  | .onAppendEntries term _ _ => node.role = .leader → term ≤ node.currentTerm
  | _ => True

instance (node : Election) (call : Call) : Decidable (node.KeepsOffice call) := by
  cases call <;> unfold KeepsOffice <;> infer_instance

/-! ### The role after each move -/

theorem observeTerm_old {node : Election} {term : Nat} (old : term ≤ node.currentTerm) (now : Millis) :
    node.observeTerm term now = (node, false) := if_pos old

/-- A higher term makes a follower of every node. -/
theorem observeTerm_news {node : Election} {term : Nat} (news : node.currentTerm < term)
    (now : Millis) :
    (node.observeTerm term now).1.role = .follower ∧ (node.observeTerm term now).2 = true := by
  unfold observeTerm
  rw [if_neg (Nat.not_le.mpr news)]
  exact ⟨(resetElectionTimer_same _ now).role, rfl⟩

theorem role_answerVote (node : Election) (msg : RequestVote) (now : Millis) :
    (node.answerVote msg now).1.role = node.role := by
  unfold answerVote
  split_ifs
  · exact (resetElectionTimer_same _ now).role
  · rfl

/-- Messages are not notifications. -/
theorem foldl_notice_map (leads : Bool) (peers : List NodeId) (send : NodeId → Action)
    (quiet : ∀ peer, notice leads (send peer) = leads) :
    (peers.map send).foldl notice leads = leads := by
  induction peers with
  | nil => rfl
  | cons peer rest ih =>
    rw [List.map_cons, List.foldl_cons, quiet peer]
    exact ih

/-! ### Handlers that always tell -/

/-- The actions of a call, added to what the caller knew, give the role after it. -/
def Tells (node : Election) (result : Election × ActionList) : Prop :=
  result.2.foldl notice node.isLeader = result.1.isLeader

theorem tells_silent {node node' : Election} (same : node'.role = node.role) :
    node.Tells (node', []) := by
  show node.isLeader = node'.isLeader
  unfold isLeader
  rw [same]

theorem becomeLeader_tells (node : Election) (now : Millis) (leads : Bool) :
    (node.becomeLeader now).2.foldl notice leads = true ∧
      (node.becomeLeader now).1.isLeader = true :=
  ⟨foldl_notice_map true node.peers _ fun _ => rfl, rfl⟩

theorem tick_tells (node : Election) (now : Millis) : node.Tells (node.tick now) := by
  unfold tick
  split_ifs with leading
  · exact foldl_notice_map node.isLeader node.peers _ fun _ => rfl
  · exact tells_silent rfl
  · have isCandidate : (node.standing now).role = .candidate := (resetElectionTimer_same _ now).role
    unfold becomeCandidate
    by_cases enough : (node.standing now).votesGranted.length ≥ (node.standing now).majority
    · obtain ⟨told, leads⟩ := (node.standing now).becomeLeader_tells now node.isLeader
      simp only [if_pos enough]
      exact told.trans leads.symm
    · simp only [if_neg enough]
      refine (foldl_notice_map node.isLeader _ _ fun _ => rfl).trans ?_
      simp [isLeader, leading, isCandidate]
  · exact tells_silent rfl

theorem countVote_tells (node : Election) (msg : VoteResponse) (now : Millis) :
    node.Tells (node.countVote msg now) := by
  unfold countVote
  simp only
  split_ifs
  · exact tells_silent rfl
  · exact tells_silent rfl
  · obtain ⟨told, leads⟩ := becomeLeader_tells
      { node with votesGranted := node.votesGranted ++ [msg.voterId] } now node.isLeader
    exact told.trans leads.symm
  · exact tells_silent rfl
  · exact tells_silent rfl

theorem hearLeader_tells (node : Election) (term : Nat) (leaderId : NodeId) (now : Millis) :
    node.Tells (node.hearLeader term leaderId now) := by
  unfold hearLeader
  split_ifs with standing leading
  · have follows : (node.becomeFollower term (some leaderId) now).role = .follower :=
      (resetElectionTimer_same _ now).role
    show false = _
    simp [isLeader, follows]
  · have follows : (node.becomeFollower term (some leaderId) now).role = .follower :=
      (resetElectionTimer_same _ now).role
    show node.isLeader = _
    simp [isLeader, follows, leading]
  · exact tells_silent (resetElectionTimer_same _ now).role

/-! ### When a call tells -/

/-- A handler that tells a node which knows the term tells every node, unless the term is news to a
leader and the handler leaves it a follower without a word. -/
theorem tells_iff {node : Election} {term : Nat} {result : Election × ActionList}
    (known : term ≤ node.currentTerm → node.Tells result)
    (news : node.currentTerm < term → result.1.role = .follower ∧
      ∀ leads, result.2.foldl notice leads = leads) :
    node.Tells result ↔ (node.role = .leader → term ≤ node.currentTerm) := by
  by_cases old : term ≤ node.currentTerm
  · exact iff_of_true (known old) fun _ => old
  · obtain ⟨follows, quiet⟩ := news (Nat.lt_of_not_le old)
    unfold Tells isLeader
    rw [quiet, follows]
    simp [old]

theorem onRequestVote_tells_iff (node : Election) (msg : RequestVote) (now : Millis) :
    node.Tells (node.onRequestVote msg now) ↔
      (node.role = .leader → msg.term ≤ node.currentTerm) := by
  have quiet : ∀ (node : Election) leads,
      (node.answerVote msg now).2.foldl notice leads = leads := by
    intro node leads
    unfold answerVote
    split_ifs <;> rfl
  refine tells_iff (fun old => ?_) fun news => ⟨?_, quiet _⟩
  · unfold onRequestVote Tells isLeader
    rw [quiet, role_answerVote, observeTerm_old old]
  · exact (role_answerVote _ msg now).trans (observeTerm_news news now).1

theorem onVoteResponse_tells_iff (node : Election) (msg : VoteResponse) (now : Millis) :
    node.Tells (node.onVoteResponse msg now) ↔
      (node.role = .leader → msg.term ≤ node.currentTerm) := by
  refine tells_iff (fun old => ?_) fun news => ?_
  · unfold onVoteResponse
    rw [observeTerm_old old]
    exact node.countVote_tells msg now
  · obtain ⟨follows, observed⟩ := observeTerm_news news now
    unfold onVoteResponse
    generalize node.observeTerm msg.term now = result at follows observed
    obtain ⟨node', heard⟩ := result
    obtain rfl : heard = true := observed
    exact ⟨follows, fun _ => rfl⟩

theorem onAppendEntries_tells_iff (node : Election) (term : Nat) (leaderId : NodeId) (now : Millis) :
    node.Tells (node.onAppendEntries term leaderId now) ↔
      (node.role = .leader → term ≤ node.currentTerm) := by
  unfold onAppendEntries
  refine tells_iff (fun old => ?_) fun news => ?_
  · split_ifs
    · exact tells_silent rfl
    · rw [observeTerm_old old]
      exact node.hearLeader_tells term leaderId now
  · obtain ⟨follows, _⟩ := observeTerm_news news now
    rw [if_neg (Nat.not_lt.mpr (Nat.le_of_lt news))]
    unfold hearLeader
    rw [if_neg (not_not.mpr follows)]
    exact ⟨(resetElectionTimer_same _ now).role.trans follows, fun _ => rfl⟩

theorem onAppendResponse_tells (node : Election) (term : Nat) (now : Millis) :
    node.Tells (node.onAppendResponse term now) := by
  unfold onAppendResponse
  by_cases old : term ≤ node.currentTerm
  · rw [observeTerm_old old]
    exact tells_silent rfl
  · obtain ⟨follows, observed⟩ := observeTerm_news (Nat.lt_of_not_le old) now
    generalize node.observeTerm term now = result at follows observed
    obtain ⟨node', heard⟩ := result
    obtain rfl : heard = true := observed
    show false = node'.isLeader
    simp [isLeader, show node'.role = .follower from follows]

/-- **A call tells exactly when the leader keeps its office or is told it has lost it.** -/
theorem perform_tells_iff (node : Election) (call : Call) :
    node.Tells (node.perform call) ↔ node.KeepsOffice call := by
  cases call with
  | tick now => exact iff_of_true (node.tick_tells now) trivial
  | onRequestVote msg now => exact node.onRequestVote_tells_iff msg now
  | onVoteResponse msg now => exact node.onVoteResponse_tells_iff msg now
  | onAppendEntries term leaderId now => exact node.onAppendEntries_tells_iff term leaderId now
  | onAppendResponse term now => exact iff_of_true (node.onAppendResponse_tells term now) trivial
  | setLastLogSeq seq => exact iff_of_true (tells_silent rfl) trivial

/-! ### Runs -/

theorem role_create (self : NodeId) (peers : List NodeId) (config : ElectionConfig) :
    (create self peers config).role = .follower :=
  (resetElectionTimer_same _ 0).role

/-- An election and what its notifications so far add up to. -/
structure Watched where
  node : Election
  leads : Bool := false

namespace Watched

def step (watched : Watched) (call : Call) : Option Watched :=
  let (node, actions) := watched.node.perform call
  some { node, leads := actions.foldl notice watched.leads }

def Tracks (watched : Watched) : Prop := watched.leads = watched.node.isLeader

/-- **Folding the notifications** gives the role throughout a run exactly if every leader in it keeps
its office. -/
theorem always_tracks_iff {start : Watched} (tracks : start.Tracks) (calls : List Call) :
    Always step Tracks start calls ↔
      Guarded step (fun watched call => watched.node.KeepsOffice call) start calls := by
  refine always_iff_guarded (fun _ => True) calls (fun _ _ _ => trivial)
    (fun {watched} call _ tracks => ?_) trivial tracks
  rw [← watched.node.perform_tells_iff call]
  unfold Tells
  rw [← (show watched.leads = watched.node.isLeader from tracks)]
  constructor
  · intro told next moved
    obtain rfl := Option.some.inj moved
    exact told
  · intro kept
    exact kept _ rfl

end Watched

end Election

end Sententia
