/-
**Is the primary the leader?** The node program sets the role of its replicator from the notifications
of its election, and from nothing else (`role_runActions`). So its replicator is a primary exactly while
its election leads, as long as the election's leader keeps its office (`roleTracking_iff`); a leader that
hears of a higher term in a vote request, a vote response or an `AppendEntries` goes on as a primary.
-/

import Sententia.Consensus.RoleNotifications
import Sententia.Node
import Sententia.Replication.FollowerSpec

namespace Sententia

open Library

/-! ### What the replicator does with its role -/

namespace Replicator

theorem role_tick (rep : Replicator) (net : Transport) : (rep.tick net).1.role = rep.role :=
  congrArg (·.role) (rep.tick_sends net).frame

theorem role_onPeerUp (rep : Replicator) (net : Transport) (id : NodeId) :
    (rep.onPeerUp net id).1.role = rep.role := by
  by_cases leading : rep.role = .primary
  · exact congrArg (·.role) (onPeerUp_sends leading net id).frame
  · rw [onPeerUp_idle leading]

theorem role_submit (rep : Replicator) (net : Transport) (cmd : Command) :
    (rep.submit net cmd).1.role = rep.role := by
  rcases rep.submit_cases net cmd with ⟨sends, _⟩ | ⟨_, sends, _⟩
  · exact congrArg (·.role) sends.frame
  · obtain ⟨_, _, _, _, _, accepts⟩ := rep.accept_frame cmd
    rw [accepts] at sends
    exact congrArg (·.role) sends.frame

theorem role_onMessage (rep : Replicator) (net : Transport) (source : NodeId) (msg : Message) :
    (rep.onMessage net source msg).1.role = rep.role := by
  cases msg with
  | appendEntries append =>
    obtain ⟨_, _, _, _, _, _, handled⟩ := rep.handleAppendEntries_touches net source append
    exact congrArg (·.role) handled
  | appendResponse answer =>
    rcases rep.handleAppendResponse_cases net source answer with ⟨_, sends, _⟩ | ⟨_, stats, sends, _⟩
    · exact congrArg (·.role) sends.frame
    · obtain ⟨_, _, _, _, _, _, advanced⟩ := (rep.noted source answer).advanceCommitIndex_frame
      have noted : rep.noteResponse source answer = _ := advanced
      rw [noted] at sends
      exact congrArg (·.role) sends.frame
  | _ => rfl

theorem role_setRole (rep : Replicator) (role : Role) : (rep.setRole role).role = role := by
  obtain ⟨_, _, changed⟩ := rep.setRole_frame role
  rw [changed]

end Replicator

namespace Node

/-- What can happen to a running node. -/
inductive Event
  | message (source : NodeId) (msg : Message) (now : Millis) (link : Link)
  | tick (now : Millis) (link : Link)
  | peerUp (peer : NodeId) (link : Link)
  | peerDown (peer : NodeId)
  | submit (cmd : Command) (link : Link)

def step (node : Node) : Event → Option Node
  | .message source msg now link => some (node.onMessage { link } source msg now).1
  | .tick now link => some (node.tick { link } now).1
  | .peerUp peer link => some (node.onPeerUp { link } peer).1
  | .peerDown peer => some (node.onPeerDown peer)
  | .submit cmd link => some (node.submit { link } cmd).1

/-- The replicator is a primary exactly while the election leads. -/
def Tracks (node : Node) : Prop := node.replicator.role = .primary ↔ node.election.role = .leader

/-- A node whose election leads is not handed a term above its own, unless in an `AppendResponse`. -/
def KeepsOffice (node : Node) : Event → Prop
  | .message _ (.requestVote rv) now _ => node.election.KeepsOffice (.onRequestVote rv now)
  | .message _ (.voteResponse vr) now _ => node.election.KeepsOffice (.onVoteResponse vr now)
  | .message _ (.appendEntries ae) now _ =>
    node.election.KeepsOffice (.onAppendEntries ae.term ae.leaderId now)
  | _ => True

/-! ### Performing the actions -/

theorem election_runActions (actions : ActionList) (node : Node) (net : Transport) :
    (node.runActions net actions).1.election = node.election := by
  induction actions generalizing node net with
  | nil => rfl
  | cons action rest ih =>
    have kept : (node.runAction net action).1.election = node.election := by
      cases action <;> rfl
    exact (ih _ _).trans kept

theorem role_greetReady (peers : List NodeId) (rep : Replicator) (net : Transport) :
    (peers.foldl (fun (rep, net) peer =>
      if net.isReady peer then rep.onPeerUp net peer else (rep, net)) (rep, net)).1.role =
        rep.role := by
  induction peers generalizing rep net with
  | nil => rfl
  | cons peer rest ih =>
    refine (ih _ _).trans ?_
    show (if net.isReady peer then rep.onPeerUp net peer else (rep, net)).1.role = rep.role
    split_ifs
    · exact rep.role_onPeerUp net peer
    · rfl

theorem role_runAction (node : Node) (net : Transport) (action : Action) :
    decide ((node.runAction net action).1.replicator.role = .primary) =
      Election.notice (decide (node.replicator.role = .primary)) action := by
  cases action with
  | becameLeader term =>
    have leads : (node.runAction net (.becameLeader term)).1.replicator.role = .primary :=
      (role_greetReady node.peerIds _ net).trans (Replicator.role_setRole _ _)
    exact decide_eq_true leads
  | steppedDown term =>
    have follows : (node.runAction net (.steppedDown term)).1.replicator.role = .backup :=
      Replicator.role_setRole _ _
    rw [follows]
    rfl
  | _ => rfl

/-- **`runActions`** sets the role as the notifications say, and by nothing else. -/
theorem role_runActions (actions : ActionList) (node : Node) (net : Transport) :
    decide ((node.runActions net actions).1.replicator.role = .primary) =
      actions.foldl Election.notice (decide (node.replicator.role = .primary)) := by
  induction actions generalizing node net with
  | nil => rfl
  | cons action rest ih =>
    rw [List.foldl_cons, ← node.role_runAction net action]
    exact ih _ _

/-- After the election has moved, the node tracks its role exactly if the election told. -/
theorem tracks_elect_iff {node : Node} (tracks : node.Tracks) (net : Transport)
    {result : Election × ActionList} :
    (node.elect net result).1.Tracks ↔ node.election.Tells result := by
  have before : decide (node.replicator.role = .primary) = node.election.isLeader :=
    decide_eq_decide.mpr tracks
  have after : decide ((node.elect net result).1.replicator.role = .primary) =
      result.2.foldl Election.notice node.election.isLeader := by
    rw [← before]
    exact role_runActions result.2 { node with election := result.1 } net
  have elected : (node.elect net result).1.election = result.1 :=
    election_runActions result.2 { node with election := result.1 } net
  unfold Tracks Election.Tells
  rw [← after, elected]
  exact decide_eq_decide.symm

/-! ### Events -/

theorem tracks_replicator (node : Node) {replicator : Replicator}
    (same : replicator.role = node.replicator.role) :
    ({ node with replicator } : Node).Tracks ↔ node.Tracks := by
  unfold Tracks
  rw [same]

/-- **An event keeps the node tracking exactly if its leader keeps its office.** -/
theorem tracks_step_iff {node : Node} (tracks : node.Tracks) (event : Event) :
    node.KeepsOffice event ↔ ∀ next, node.step event = some next → next.Tracks := by
  have settles : ∀ {next : Node}, node.step event = some next → (node.KeepsOffice event ↔ next.Tracks) →
      (node.KeepsOffice event ↔ ∀ next, node.step event = some next → next.Tracks) := by
    intro next moved decides
    rw [moved, decides]
    exact ⟨fun kept other same => Option.some.inj same ▸ kept, fun kept => kept next rfl⟩
  cases event with
  | message source msg now link =>
    refine settles rfl ?_
    cases msg with
    | requestVote rv =>
      have told := (node.election.setLastLogSeq node.replicator.log.lastSeq).onRequestVote_tells_iff
        rv now
      exact told.symm.trans (tracks_elect_iff tracks { link }).symm
    | voteResponse vr =>
      have told := node.election.onVoteResponse_tells_iff vr now
      exact told.symm.trans (tracks_elect_iff tracks { link }).symm
    | appendEntries ae =>
      have told := node.election.onAppendEntries_tells_iff ae.term ae.leaderId now
      refine told.symm.trans ((tracks_elect_iff tracks { link }).symm.trans ?_)
      exact (tracks_replicator (node.elect { link } _).1.syncTerm
        (Replicator.role_onMessage _ _ source (.appendEntries ae))).symm
    | appendResponse ar =>
      have told := node.election.onAppendResponse_tells ar.term now
      refine iff_of_true trivial ?_
      refine (tracks_replicator (node.elect { link } _).1.syncTerm
        (Replicator.role_onMessage _ _ source (.appendResponse ar))).mpr ?_
      exact (tracks_elect_iff tracks { link }).mpr told
    | hello msg => exact iff_of_true trivial tracks
    | heartbeat msg => exact iff_of_true trivial tracks
    | commandForward msg => exact iff_of_true trivial tracks
    | eventAck msg => exact iff_of_true trivial tracks
  | tick now link =>
    refine settles rfl (iff_of_true trivial ?_)
    have told := (node.election.setLastLogSeq node.replicator.log.lastSeq).tick_tells now
    refine (tracks_replicator (node.elect { link } _).1.syncTerm (Replicator.role_tick _ _)).mpr ?_
    exact (tracks_elect_iff tracks { link }).mpr told
  | peerUp peer link =>
    refine settles rfl (iff_of_true trivial ?_)
    exact (tracks_replicator node (node.replicator.role_onPeerUp { link } peer)).mpr tracks
  | peerDown peer => exact settles rfl (iff_of_true trivial tracks)
  | submit cmd link =>
    refine settles rfl (iff_of_true trivial ?_)
    unfold submit
    split_ifs
    · exact (tracks_replicator node (node.replicator.role_submit { link } cmd)).mpr tracks
    · exact tracks

/-! ### Runs -/

/-- **Role notifications.** What an election's notifications add up to is its role after every call, and
the replicator of a node program is a primary exactly while its election leads, in exactly those runs in
which no leader is handed a term above its own in a vote request, a vote response or an
`AppendEntries`. -/
theorem roleTracking_iff (self : NodeId) (peers : List NodeId) (config : ElectionConfig)
    (calls : List Election.Call) (members : List NodeId) (selfId : NodeId) (mode : ReplicationMode)
    (syncWindow : Nat) (events : List Event) :
    (Always Election.Watched.step Election.Watched.Tracks ⟨Election.create self peers config, false⟩
        calls ↔
      Guarded Election.Watched.step (fun watched call => watched.node.KeepsOffice call)
        ⟨Election.create self peers config, false⟩ calls) ∧
      (Always step Tracks (create members selfId mode syncWindow) events ↔
        Guarded step KeepsOffice (create members selfId mode syncWindow) events) := by
  constructor
  · refine Election.Watched.always_tracks_iff ?_ calls
    simp [Election.Watched.Tracks, Election.isLeader, Election.role_create]
  · refine always_iff_guarded (fun _ => True) events (fun _ _ _ => trivial)
      (fun event _ tracks => tracks_step_iff tracks event) trivial ?_
    refine iff_of_false (fun primary => by cases primary) ?_
    show (Election.create _ _ _).role ≠ _
    simp [Election.role_create]

/-- Node 1 stands in term 1, node 2 votes for it, and node 3 asks for its vote in term 2. -/
def outvoted : List Election.Call :=
  [.tick 1000, .onVoteResponse { term := 1, voterId := 2, granted := true } 1001,
    .onRequestVote { term := 2, candidateId := 3, lastLogSeq := 0 } 1002]

/-- The same, seen by the node program. -/
def outvotedNode : List Event :=
  [.tick 1000 {}, .message 2 (.voteResponse { term := 1, voterId := 2, granted := true }) 1001 {},
    .message 3 (.requestVote { term := 2, candidateId := 3, lastLogSeq := 0 }) 1002 {}]

/-- The leader votes for its successor and nobody is told: its replicator stays a primary. -/
theorem primary_after_leader :
    (∃ watched, run Election.Watched.step ⟨Election.create 1 [2, 3] {}, false⟩ outvoted = some watched ∧
      watched.leads = true ∧ watched.node.isLeader = false) ∧
      ∃ node, run step (create [1, 2, 3] 1 .synchronous 8) outvotedNode = some node ∧
        node.replicator.role = .primary ∧ node.election.role = .follower ∧ ¬ node.Tracks := by
  refine ⟨⟨_, (Option.some_get (by decide +kernel)).symm, ?_, ?_⟩,
    ⟨_, (Option.some_get (by decide +kernel)).symm, ?_, ?_, ?_⟩⟩
  · decide +kernel
  · decide +kernel
  · decide +kernel
  · decide +kernel
  · unfold Tracks
    decide +kernel

end Node

end Sententia
