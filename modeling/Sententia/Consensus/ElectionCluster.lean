/-
**Election safety and agreement over every schedule.** A whole cluster of elections on a message bus,
wired as the simulator of `tests/sim.hpp` wires it: actions become messages, a heartbeat is answered
with an `AppendResponse` to the leader it names, and a leadership log records every node seen leading.

The schedule is free: any node ticks at any clock value or is told any log head, any message in flight
is delivered in any order, lost or duplicated. `electionSafety` holds after each of them, for as long
as no term has reached the end of its 64 bits.
-/

import Sententia.Consensus.ElectionInvariant
import Sententia.Library.Transition

namespace Sententia

open Library

structure ElectionCluster where
  members : List NodeId
  nodes : NodeId → Election
  inFlight : List Envelope := []
  /-- Who has been seen leading in which term. -/
  leadership : List (Nat × NodeId) := []

namespace ElectionCluster

inductive Label
  | tick (id : NodeId) (now : Millis)
  | setLastLogSeq (id : NodeId) (seq : Nat)
  | deliver (index : Nat) (now : Millis)
  | duplicate (index : Nat)
  | lose (index : Nat)
deriving Repr, DecidableEq

/-- Every node is an election whose peers are all the others. -/
def create (members : List NodeId) (configs : NodeId → ElectionConfig) : ElectionCluster where
  members := members
  nodes id := Election.create id (members.filter (· != id)) (configs id)

/-- The messages a node's actions become. -/
def dispatch (source : NodeId) (actions : ActionList) : List Envelope :=
  actions.filterMap fun action => match action with
    | .sendRequestVote target term lastLogSeq =>
      some { source, target, message := .requestVote { term, candidateId := source, lastLogSeq } }
    | .sendVoteResponse target term granted =>
      some { source, target, message := .voteResponse { term, voterId := source, granted } }
    | .sendHeartbeat target term =>
      some { source, target, message := .appendEntries { term, leaderId := source } }
    | .becameLeader _ => none
    | .steppedDown _ => none

def recordLeadership (cluster : ElectionCluster) : ElectionCluster :=
  { cluster with
    leadership := cluster.leadership ++
      (cluster.members.filter fun id => (cluster.nodes id).role = .leader).map fun id =>
        ((cluster.nodes id).currentTerm, id) }

/-- A node moves; its actions join the messages in flight, after `replies`. -/
def act (cluster : ElectionCluster) (id : NodeId) (result : Election × ActionList)
    (replies : List Envelope) : ElectionCluster :=
  { cluster with
    nodes := Function.update cluster.nodes id result.1
    inFlight := cluster.inFlight ++ replies ++ dispatch id result.2 }.recordLeadership

/-- The handler of a message, and what the bus sends in reply. -/
def receive (node : Election) (self : NodeId) (msg : Message) (now : Millis) :
    (Election × ActionList) × List Envelope :=
  match msg with
  | .requestVote msg => (node.onRequestVote msg now, [])
  | .voteResponse msg => (node.onVoteResponse msg now, [])
  | .appendEntries msg =>
    let result := node.onAppendEntries msg.term msg.leaderId now
    (result,
      [{ source := self
         target := msg.leaderId
         message := .appendResponse
           { term := result.1.currentTerm, nodeId := self, ok := true } }])
  | .appendResponse msg => (node.onAppendResponse msg.term now, [])
  | _ => ((node, []), [])

def step (cluster : ElectionCluster) : Label → Option ElectionCluster
  | .tick id now =>
    if id ∈ cluster.members then some (cluster.act id ((cluster.nodes id).tick now) []) else none
  | .setLastLogSeq id seq =>
    if id ∈ cluster.members then
      some (cluster.act id ((cluster.nodes id).setLastLogSeq seq, []) [])
    else none
  | .deliver index now => cluster.inFlight[index]?.map fun envelope =>
    let (result, replies) :=
      receive (cluster.nodes envelope.target) envelope.target envelope.message now
    { cluster with inFlight := cluster.inFlight.eraseIdx index }.act envelope.target result replies
  | .duplicate index => cluster.inFlight[index]?.map fun envelope =>
    { cluster with inFlight := cluster.inFlight ++ [envelope] }
  | .lose index =>
    if index < cluster.inFlight.length then
      some { cluster with inFlight := cluster.inFlight.eraseIdx index }
    else none

/-- No term of the cluster is about to overflow. -/
def TermsBounded (cluster : ElectionCluster) (_ : Label) : Prop :=
  ∀ id ∈ cluster.members, (cluster.nodes id).currentTerm < 2 ^ 64 - 1

instance (cluster : ElectionCluster) (label : Label) : Decidable (cluster.TermsBounded label) :=
  List.decidableBAll (fun id => (cluster.nodes id).currentTerm < 2 ^ 64 - 1) cluster.members

/-! ### The invariant -/

/-- The vote history backs a message in flight. -/
def MessageBacked (history : VoteHistory NodeId) (members : List NodeId) (envelope : Envelope) :
    Prop :=
  envelope.target ∈ members ∧
    match envelope.message with
    | .requestVote msg => msg.candidateId ∈ members
    | .voteResponse msg => msg.granted = true → msg.voterId ∈ members ∧
        history.voted msg.voterId msg.term = some envelope.target
    | .appendEntries msg => msg.leaderId ∈ members ∧ history.won msg.term msg.leaderId
    | _ => True

structure Invariant (members : List NodeId) (history : VoteHistory NodeId)
    (cluster : ElectionCluster) : Prop where
  sameMembers : cluster.members = members
  sound : history.Sound members
  self : ∀ id ∈ members, (cluster.nodes id).self = id
  nodes : ∀ id ∈ members, (cluster.nodes id).Recorded history members
  messages : ∀ envelope ∈ cluster.inFlight, MessageBacked history members envelope
  leadership : ∀ term id, (term, id) ∈ cluster.leadership ↔ history.won term id

theorem MessageBacked.mono {history history' : VoteHistory NodeId} {members : List NodeId}
    {envelope : Envelope} {voter : NodeId} (backed : MessageBacked history members envelope)
    (grows : history.Grows voter history') : MessageBacked history' members envelope := by
  obtain ⟨inside, content⟩ := backed
  refine ⟨inside, ?_⟩
  cases message : envelope.message with
  | requestVote msg => rw [message] at content; exact content
  | voteResponse msg =>
    rw [message] at content
    exact fun granted => ⟨(content granted).1, grows.kept (content granted).2⟩
  | appendEntries msg =>
    rw [message] at content
    exact ⟨content.1, grows.won content.2⟩
  | hello msg => trivial
  | heartbeat msg => trivial
  | commandForward msg => trivial
  | eventAck msg => trivial
  | appendResponse msg => trivial

/-- Backed actions become backed messages. -/
theorem dispatch_backed {history : VoteHistory NodeId} {members : List NodeId} {self : NodeId}
    (member : self ∈ members) {actions : ActionList}
    (backed : ∀ action ∈ actions, Election.Backed history members self action) :
    ∀ envelope ∈ dispatch self actions, MessageBacked history members envelope := by
  intro envelope isMessage
  obtain ⟨action, isAction, becomes⟩ := List.mem_filterMap.mp isMessage
  have support := backed action isAction
  cases action with
  | sendRequestVote target term lastLogSeq =>
    cases becomes
    exact ⟨support, member⟩
  | sendVoteResponse target term granted =>
    cases becomes
    exact ⟨support.1, fun isGranted => ⟨member, support.2 isGranted⟩⟩
  | sendHeartbeat target term =>
    cases becomes
    exact ⟨support.1, member, support.2⟩
  | becameLeader term => cases becomes
  | steppedDown term => cases becomes

/-- The record keeper's log after a node's move. -/
theorem mem_leadership_act {cluster : ElectionCluster} {id : NodeId}
    {result : Election × ActionList} {replies : List Envelope} {term : Nat} {leader : NodeId} :
    (term, leader) ∈ (cluster.act id result replies).leadership ↔
      (term, leader) ∈ cluster.leadership ∨
        (leader ∈ cluster.members ∧
          (Function.update cluster.nodes id result.1 leader).role = .leader ∧
            (Function.update cluster.nodes id result.1 leader).currentTerm = term) := by
  unfold act recordLeadership
  simp only [List.mem_append, List.mem_map, List.mem_filter, decide_eq_true_eq, Prod.mk.injEq]
  constructor
  · rintro (old | ⟨node, ⟨member, leading⟩, sameTerm, rfl⟩)
    · exact Or.inl old
    · exact Or.inr ⟨member, leading, sameTerm⟩
  · rintro (old | ⟨member, leading, sameTerm⟩)
    · exact Or.inl old
    · exact Or.inr ⟨leader, ⟨member, leading⟩, sameTerm, rfl⟩

namespace Invariant

variable {members : List NodeId} {history : VoteHistory NodeId} {cluster : ElectionCluster}

/-- **A node's move keeps the invariant** when the history backs it. -/
theorem act (inv : Invariant members history cluster) {id : NodeId} (member : id ∈ members)
    {result : Election × ActionList} {replies : List Envelope}
    (keeps : Election.Keeps history members (cluster.nodes id) result)
    (answers : ∀ history', ∀ envelope ∈ replies, MessageBacked history' members envelope) :
    ∃ history', Invariant members history' (cluster.act id result replies) := by
  obtain ⟨history', grows, sound, recorded, sameSelf, backed, winners⟩ := keeps
  have self := inv.self id member
  rw [self] at grows backed winners sameSelf
  have others : ∀ other ∈ members, other ≠ id →
      (cluster.nodes other).Recorded history' members := fun other isMember different =>
    (inv.nodes other isMember).mono grows (by rw [inv.self other isMember]; exact different)
  have updated : ∀ other ∈ members,
      (Function.update cluster.nodes id result.1 other).Recorded history' members := by
    intro other isMember
    by_cases same : other = id
    · rw [same, Function.update_self]
      exact recorded
    · rw [Function.update_of_ne same]
      exact others other isMember same
  refine ⟨history', inv.sameMembers, sound, ?_, updated, ?_, ?_⟩
  · intro other isMember
    show (Function.update cluster.nodes id result.1 other).self = other
    by_cases same : other = id
    · rw [same, Function.update_self]
      exact sameSelf
    · rw [Function.update_of_ne same]
      exact inv.self other isMember
  · intro envelope isMessage
    rcases List.mem_append.mp isMessage with before | dispatched
    · rcases List.mem_append.mp before with old | reply
      · exact (inv.messages envelope old).mono grows
      · exact answers history' envelope reply
    · exact dispatch_backed member backed envelope dispatched
  · intro term leader
    rw [mem_leadership_act, inv.leadership term leader, inv.sameMembers]
    constructor
    · rintro (old | ⟨isMember, leading, rfl⟩)
      · exact grows.won old
      · have selfName : (Function.update cluster.nodes id result.1 leader).self = leader := by
          by_cases same : leader = id
          · rw [same, Function.update_self]
            exact sameSelf
          · rw [Function.update_of_ne same]
            exact inv.self leader isMember
        have leads := (updated leader isMember).leads leading
        rw [selfName] at leads
        exact leads
    · intro won
      rcases winners term leader won with old | ⟨leading, sameTerm, rfl⟩
      · exact Or.inl old
      · refine Or.inr ⟨member, ?_⟩
        rw [Function.update_self]
        exact ⟨leading, sameTerm.symm⟩

/-- Losing messages, or seeing them twice, keeps the invariant. -/
theorem reshuffle (inv : Invariant members history cluster) {inFlight : List Envelope}
    (known : inFlight ⊆ cluster.inFlight) : Invariant members history { cluster with inFlight } :=
  { inv with messages := fun envelope isMessage => inv.messages envelope (known isMessage) }

/-- A delivered message is handled by a move that the history backs. -/
theorem receive_keeps (inv : Invariant members history cluster) {envelope : Envelope}
    (isMessage : envelope ∈ cluster.inFlight) (now : Millis) :
    Election.Keeps history members (cluster.nodes envelope.target)
        (receive (cluster.nodes envelope.target) envelope.target envelope.message now).1 ∧
      ∀ history', ∀ reply ∈
        (receive (cluster.nodes envelope.target) envelope.target envelope.message now).2,
          MessageBacked history' members reply := by
  obtain ⟨inside, content⟩ := inv.messages envelope isMessage
  have recorded := inv.nodes _ inside
  have self := inv.self _ inside
  have noReply : ∀ history' : VoteHistory NodeId, ∀ reply ∈ ([] : List Envelope),
      MessageBacked history' members reply := fun _ _ member => nomatch member
  cases message : envelope.message with
  | requestVote msg =>
    rw [message] at content
    exact ⟨Election.onRequestVote_keeps inv.sound recorded content now, noReply⟩
  | voteResponse msg =>
    rw [message] at content
    exact ⟨Election.onVoteResponse_keeps inv.sound recorded (by rw [self]; exact content) now,
      noReply⟩
  | appendEntries msg =>
    rw [message] at content
    refine ⟨Election.onAppendEntries_keeps inv.sound recorded content.2 now, ?_⟩
    intro history' reply isReply
    rw [List.mem_singleton.mp isReply]
    exact ⟨content.1, trivial⟩
  | appendResponse msg =>
    exact ⟨Election.onAppendResponse_keeps inv.sound recorded msg.term now, noReply⟩
  | hello msg => exact ⟨Election.keeps_silent inv.sound recorded rfl, noReply⟩
  | heartbeat msg => exact ⟨Election.keeps_silent inv.sound recorded rfl, noReply⟩
  | commandForward msg => exact ⟨Election.keeps_silent inv.sound recorded rfl, noReply⟩
  | eventAck msg => exact ⟨Election.keeps_silent inv.sound recorded rfl, noReply⟩

/-- **Every step keeps the invariant.** -/
theorem step (inv : Invariant members history cluster) {label : Label} {next : ElectionCluster}
    (bounded : cluster.TermsBounded label) (enabled : cluster.step label = some next) :
    ∃ history', Invariant members history' next := by
  have noReply : ∀ history' : VoteHistory NodeId, ∀ reply ∈ ([] : List Envelope),
      MessageBacked history' members reply := fun _ _ member => nomatch member
  cases label with
  | tick id now =>
    obtain ⟨member, moved⟩ := Option.ite_none_right_eq_some.mp enabled
    cases moved
    rw [inv.sameMembers] at member
    have low := bounded id (inv.sameMembers.symm ▸ member)
    exact inv.act member (Election.tick_keeps inv.sound (inv.nodes id member) low now) noReply
  | setLastLogSeq id seq =>
    obtain ⟨member, moved⟩ := Option.ite_none_right_eq_some.mp enabled
    cases moved
    rw [inv.sameMembers] at member
    have told : ((cluster.nodes id).setLastLogSeq seq).Recorded history members :=
      { inv.nodes id member with }
    exact inv.act member (Election.keeps_silent inv.sound told rfl) noReply
  | deliver index now =>
    obtain ⟨envelope, found, rfl⟩ := Option.map_eq_some_iff.mp enabled
    have isMessage := List.mem_of_getElem? found
    obtain ⟨keeps, answers⟩ := inv.receive_keeps isMessage now
    have removed : Invariant members history
        { cluster with inFlight := cluster.inFlight.eraseIdx index } :=
      inv.reshuffle List.eraseIdx_subset
    exact removed.act (inv.messages envelope isMessage).1 keeps answers
  | duplicate index =>
    obtain ⟨envelope, found, rfl⟩ := Option.map_eq_some_iff.mp enabled
    have isMessage := List.mem_of_getElem? found
    refine ⟨history, inv.reshuffle (List.append_subset.mpr ⟨List.Subset.refl _, ?_⟩)⟩
    simpa using isMessage
  | lose index =>
    obtain ⟨_, moved⟩ := Option.ite_none_right_eq_some.mp enabled
    cases moved
    exact ⟨history, inv.reshuffle List.eraseIdx_subset⟩

end Invariant

theorem invariant_create {members : List NodeId} (distinct : members.Nodup)
    (configs : NodeId → ElectionConfig) :
    Invariant members VoteHistory.empty (create members configs) := by
  refine ⟨rfl, VoteHistory.sound_empty members, fun id _ => (Election.resetElectionTimer_same _ 0).self,
    fun id member => Election.recorded_create distinct member (configs id),
    fun envelope isMessage => (List.not_mem_nil isMessage).elim, fun term id => ?_⟩
  exact ⟨fun isRecord => (List.not_mem_nil isRecord).elim, fun won => won.elim⟩

/-- **Election safety and agreement.** After every schedule, a term has at most one leader in the
leadership log, which has every node that leads, and the leader a node names led in its term. -/
theorem electionSafety {members : List NodeId} (distinct : members.Nodup)
    (configs : NodeId → ElectionConfig) (labels : List Label) {cluster : ElectionCluster}
    (bounded : Guarded step TermsBounded (create members configs) labels)
    (ran : run step (create members configs) labels = some cluster) :
    (∀ term first second, (term, first) ∈ cluster.leadership →
        (term, second) ∈ cluster.leadership → first = second) ∧
      (∀ id ∈ members, (cluster.nodes id).role = .leader →
        ((cluster.nodes id).currentTerm, id) ∈ cluster.leadership) ∧
      ∀ id ∈ members, ∀ leader, (cluster.nodes id).leaderId = some leader →
        ((cluster.nodes id).currentTerm, leader) ∈ cluster.leadership := by
  have reached : ∃ history, Invariant members history cluster :=
    run_invariant (fun cluster => ∃ history, Invariant members history cluster)
      (fun {_ _ _} ⟨history, holds⟩ low enabled => holds.step low enabled)
      ⟨_, invariant_create distinct configs⟩ bounded ran
  obtain ⟨history, inv⟩ := reached
  refine ⟨fun term first second isFirst isSecond => ?_, fun id member leading => ?_,
    fun id member leader isLeader => ?_⟩
  · exact inv.sound.winner_unique ((inv.leadership term first).mp isFirst)
      ((inv.leadership term second).mp isSecond)
  · have leads := (inv.nodes id member).leads leading
    rw [inv.self id member] at leads
    exact (inv.leadership _ id).mpr leads
  · exact (inv.leadership _ leader).mpr ((inv.nodes id member).leader leader isLeader)

/-- Node 1 stands, node 2 votes for it, and node 2 hears of its victory. -/
def firstElection : List Label :=
  [.tick 1 1000, .deliver 0 1001, .deliver 1 1002, .deliver 1 1003]

theorem electionSafety_firstElection :
    ∃ cluster, run step (create [1, 2, 3] fun _ => {}) firstElection = some cluster ∧
      (cluster.nodes 2).leaderId = some 1 ∧ cluster.leadership = [(1, 1), (1, 1)] ∧
      (∀ term first second, (term, first) ∈ cluster.leadership →
        (term, second) ∈ cluster.leadership → first = second) ∧
      (∀ id ∈ [1, 2, 3], (cluster.nodes id).role = .leader →
        ((cluster.nodes id).currentTerm, id) ∈ cluster.leadership) ∧
      ∀ id ∈ [1, 2, 3], ∀ leader, (cluster.nodes id).leaderId = some leader →
        ((cluster.nodes id).currentTerm, leader) ∈ cluster.leadership :=
  have ran : run step (create [1, 2, 3] fun _ => {}) firstElection =
      some ((run step (create [1, 2, 3] fun _ => {}) firstElection).get (by decide +kernel)) :=
    (Option.some_get _).symm
  ⟨_, ran, by decide +kernel, by decide +kernel,
    electionSafety (by decide) (fun _ => {}) firstElection (by decide +kernel) ran⟩

end ElectionCluster

end Sententia
