/-
**When the election restriction works.** A voter compares sequence numbers only, so a longer log of an older
term beats a shorter one that holds what is committed: `shorter_log_loses` elects a leader without an entry
that a majority holds. In every run in which no such vote is won, and none of the node program's other slips
is reached (`Careful`), leaders are complete (`leaderCompleteness`).

What the history variables record, the campaign bears out: whoever has stored an entry in its term has
accepted it, and a log that was crowned is what the leader of that term started from.
-/

import Sententia.Node.NodeCampaign
import Sententia.Replication.ReplicatorCluster

namespace Sententia

open Library

namespace NodeCluster

variable {members : List NodeId} {campaign campaign' : Campaign NodeId LogEntry} {id : NodeId} {node : Node}

/-! ### What is recorded -/

/-- The node has accepted the entry in the term of that entry. -/
def Accepted (campaign : Campaign NodeId LogEntry) (id : NodeId) (entry : LogEntry) : Prop :=
  ∃ k, entry.seq = k + 1 ∧ k < campaign.logs.acked id entry.term ∧
    (campaign.logs.lead entry.term)[k]? = some entry

theorem Accepted.mono {entry : LogEntry} (accepted : Accepted campaign id entry)
    (grows : campaign.logs.Grows campaign'.logs) : Accepted campaign' id entry := by
  obtain ⟨k, seq, inside, found⟩ := accepted
  refine ⟨k, seq, inside.trans_le (grows.acked _ _), ?_⟩
  obtain ⟨within, isEntry⟩ := List.getElem?_eq_some_iff.mp found
  rw [getElem_of_front (grows.lead _) within, isEntry]

/-- Entries of its own term a node has accepted. -/
theorem Kept.accepted (kept : Kept members campaign id node) (sound : campaign.logs.Sound LogEntry.term)
    {entry : LogEntry} (own : entry ∈ node.ownEntries) : Accepted campaign id entry := by
  obtain ⟨member, ofTerm⟩ := List.mem_filter.mp own
  have ofTerm' : entry.term = campaign.logs.term id := (of_decide_eq_true ofTerm).trans kept.term.symm
  rw [← kept.log] at member
  obtain ⟨k, inside, rfl⟩ := List.mem_iff_getElem.mp member
  have numbered := kept.whole.retains.numbered
  have follows := sound.follows id k inside
  refine ⟨k, ?_, ?_, ?_⟩
  · simp only [kept.log] at inside ⊢
    exact numbered k inside
  · rw [ofTerm']
    exact sound.own inside ofTerm'
  · have here := congrArg (·[k]?) follows
    simp only [List.getElem?_take, if_pos (Nat.lt_succ_self k)] at here
    rw [← here]
    exact List.getElem?_eq_getElem inside

structure Invariant (members : List NodeId) (campaign : Campaign NodeId LogEntry)
    (cluster : NodeCluster) : Prop where
  sameMembers : cluster.members = members
  inv : Inv members campaign cluster.nodes cluster.inFlight
  crowned : ∀ crowning ∈ cluster.crowned, crowning.log.Whole ∧ campaign.logs.led crowning.term ∧
    campaign.logs.base crowning.term = crowning.log.entries
  stored : ∀ {id entry}, (id, entry) ∈ cluster.stored → Accepted campaign id entry
  secured : ∀ entry ∈ cluster.secured, ∃ holders, Majority members holders ∧
    ∀ holder ∈ holders, Accepted campaign holder entry

namespace Invariant

variable {cluster : NodeCluster}

/-- **A node's move keeps the invariant**, if it leads to a state that is attested. -/
theorem act (inv : Invariant members campaign cluster) (distinct : members.Nodup)
    (member : id ∈ members) {result : Node × Transport}
    (moved : Moved members campaign cluster.nodes cluster.inFlight id result)
    (attested : (cluster.act id result).Attested) :
    ∃ campaign', Invariant members campaign' (cluster.act id result) := by
  obtain ⟨campaign', grows, next, crowned⟩ := moved
  have kept := next.kept id member
  rw [Function.update_self] at kept
  have stored : ∀ {other entry}, (other, entry) ∈ (cluster.act id result).stored →
      Accepted campaign' other entry := by
    intro other entry isStored
    rcases List.mem_append.mp isStored with old | new
    · exact (inv.stored old).mono grows.logs
    · obtain ⟨own, isOwn, same⟩ := List.mem_map.mp new
      cases same
      exact kept.accepted next.sound.logs isOwn
  refine ⟨campaign', inv.sameMembers, next, fun crowning isCrowned => ?_, stored, fun entry isSecured => ?_⟩
  · have known : crowning ∈ cluster.crowned ∨ (result.1.election.role = .leader ∧
        (cluster.nodes id).election.role ≠ .leader ∧ crowning =
          { term := result.1.election.currentTerm, id, log := result.1.replicator.log }) := by
      have isCrowned' : crowning ∈ if _ then _ else _ := isCrowned
      split_ifs at isCrowned' with rises
      · exact (List.mem_append.mp isCrowned').imp_right fun new =>
          ⟨rises.1, rises.2, List.mem_singleton.mp new⟩
      · exact Or.inl isCrowned'
    rcases known with old | ⟨leading, before, rfl⟩
    · obtain ⟨whole, led, started⟩ := inv.crowned crowning old
      exact ⟨whole, grows.logs.led led, (grows.logs.base led).trans started⟩
    · exact ⟨kept.whole, crowned leading before⟩
  · rcases List.mem_append.mp isSecured with old | new
    · obtain ⟨holders, majority, accepted⟩ := inv.secured entry old
      exact ⟨holders, majority, fun holder isHolder => (accepted holder isHolder).mono grows.logs⟩
    · have most := attested entry new
      refine ⟨(cluster.act id result).keepers entry, ⟨?_, ?_, ?_⟩, fun holder isHolder => ?_⟩
      · exact (inv.sameMembers ▸ distinct).filter _
      · rw [← inv.sameMembers]
        exact List.filter_subset_self _
      · rw [← inv.sameMembers]
        exact most
      · exact stored (of_decide_eq_true (List.mem_filter.mp isHolder).2)

/-- Losing messages, or seeing them twice. -/
theorem reshuffle (inv : Invariant members campaign cluster) {inFlight : List Envelope}
    (known : inFlight ⊆ cluster.inFlight) : Invariant members campaign { cluster with inFlight } :=
  { inv with inv := inv.inv.reshuffle known }

/-- **Every careful step keeps the invariant.** -/
theorem step (inv : Invariant members campaign cluster) (distinct : members.Nodup) {label : Label}
    {next : NodeCluster} (careful : cluster.Careful label) (attested : next.Attested)
    (enabled : cluster.step label = some next) : ∃ campaign', Invariant members campaign' next := by
  cases label with
  | tick id now link =>
    obtain ⟨member, moved⟩ := Option.ite_none_right_eq_some.mp enabled
    obtain rfl := Option.some.inj moved
    rw [inv.sameMembers] at member
    exact inv.act distinct member (inv.inv.tick member careful now link) attested
  | submit id cmd link =>
    obtain ⟨member, moved⟩ := Option.ite_none_right_eq_some.mp enabled
    obtain rfl := Option.some.inj moved
    rw [inv.sameMembers] at member
    exact inv.act distinct member (inv.inv.submit member cmd link) attested
  | peerUp id peer link =>
    obtain ⟨⟨member, _⟩, moved⟩ := Option.ite_none_right_eq_some.mp enabled
    obtain rfl := Option.some.inj moved
    rw [inv.sameMembers] at member
    exact inv.act distinct member (inv.inv.peerUp member peer link) attested
  | peerDown id peer =>
    obtain ⟨member, moved⟩ := Option.ite_none_right_eq_some.mp enabled
    obtain rfl := Option.some.inj moved
    rw [inv.sameMembers] at member
    exact inv.act distinct member (inv.inv.peerDown member peer) attested
  | deliver index now link =>
    obtain ⟨envelope, found, enabled'⟩ := Option.bind_eq_some_iff.mp enabled
    obtain ⟨member, moved⟩ := Option.ite_none_right_eq_some.mp enabled'
    obtain rfl := Option.some.inj moved
    rw [inv.sameMembers] at member
    have isMessage := List.mem_of_getElem? found
    obtain ⟨keepsOffice, asked⟩ := careful envelope found
    have truthful := inv.inv.messages envelope isMessage
    have removed : Invariant members campaign
        { cluster with inFlight := cluster.inFlight.eraseIdx index } :=
      inv.reshuffle List.eraseIdx_subset
    have kept := inv.inv.kept _ member
    refine removed.act distinct member (removed.inv.message member truthful keepsOffice
      (fun rv content granted standing inTerm => ?_) fun ar content => ?_) attested
    · rw [content] at asked
      have candidate := inv.inv.kept _ standing.1
      rw [kept.log, candidate.log]
      exact asked granted (inv.sameMembers.symm ▸ standing.1) standing.2 (candidate.term.symm.trans inTerm)
    · rw [content] at asked
      exact asked
  | duplicate index =>
    obtain ⟨envelope, found, rfl⟩ := Option.map_eq_some_iff.mp enabled
    have isMessage := List.mem_of_getElem? found
    refine ⟨campaign, inv.reshuffle (List.append_subset.mpr ⟨List.Subset.refl _, ?_⟩)⟩
    simpa using isMessage
  | lose index =>
    obtain ⟨_, moved⟩ := Option.ite_none_right_eq_some.mp enabled
    obtain rfl := Option.some.inj moved
    exact ⟨campaign, inv.reshuffle List.eraseIdx_subset⟩

/-- The invariant is what makes leaders complete. -/
theorem leaderComplete (inv : Invariant members campaign cluster) : cluster.LeaderComplete := by
  intro entry isSecured crowning isCrowned earlier
  obtain ⟨holders, majority, accepted⟩ := inv.secured entry isSecured
  obtain ⟨whole, led, started⟩ := inv.crowned crowning isCrowned
  obtain ⟨holder, isHolder, _⟩ := majority.meets majority
  obtain ⟨k, seq, _, found⟩ := accepted holder isHolder
  obtain ⟨inside, isEntry⟩ := List.getElem?_eq_some_iff.mp found
  have acks : ∀ holder ∈ holders, k < campaign.logs.acked holder entry.term := by
    intro other isOther
    obtain ⟨k', seq', acked, _⟩ := accepted other isOther
    rw [seq, Nat.succ_inj] at seq'
    rw [seq']
    exact acked
  have front := inv.inv.sound.completeness majority inside (congrArg LogEntry.term isEntry) acks led earlier
  have short : k < ((campaign.logs.lead entry.term).take (k + 1)).length := by
    rw [List.length_take]
    omega
  rw [seq, whole.at?_succ, ← started, getElem_of_front front short, List.getElem_take, isEntry]

end Invariant

/-! ### Whole runs -/

theorem invariant_create {members : List NodeId} (distinct : members.Nodup)
    (modes : NodeId → ReplicationMode) (windows : NodeId → Nat) :
    Invariant members .fresh (create members modes windows) := by
  have timer : ∀ id, Election.SameBallot _ ((create members modes windows).nodes id).election := fun id =>
    Election.resetElectionTimer_same _ 0
  have follows : ∀ id, ((create members modes windows).nodes id).election.role = .follower := fun id =>
    (timer id).role
  have nobody : ∀ role, role ≠ .follower →
      InRole members (create members modes windows).nodes role = fun _ => False := by
    intro role different
    funext id
    refine eq_false fun inRole => different ?_
    rw [← inRole.2]
    exact follows id
  have kept : ∀ id ∈ members, Kept members .fresh id ((create members modes windows).nodes id) := by
    intro id member
    have recorded : ((create members modes windows).nodes id).election.Recorded VoteHistory.empty members :=
      Election.recorded_create distinct member _
    exact
      { self := (timer id).self
        name := rfl
        recorded := recorded
        term := (timer id).currentTerm.symm
        whole := CommandLog.whole_empty
        log := rfl
        tracks := by
          refine iff_of_false (fun leading => by cases leading) ?_
          rw [follows id]
          exact nofun
        inTerm := fun leading => by
          rw [follows id] at leading
          cases leading }
  refine ⟨rfl, ⟨?_, kept, fun _ isMessage => (nomatch isMessage)⟩, fun _ isCrowned => (nomatch isCrowned),
    fun isStored => (nomatch isStored), fun _ isSecured => (nomatch isSecured)⟩
  rw [nobody .candidate (by decide), nobody .leader (by decide)]
  exact Campaign.sound_fresh LogEntry.term members

/-- **Leader completeness**, in every run whose steps are careful and whose states are attested. -/
theorem leaderCompleteness {members : List NodeId} (distinct : members.Nodup)
    (modes : NodeId → ReplicationMode) (windows : NodeId → Nat) (labels : List Label)
    {cluster : NodeCluster} (careful : Guarded step Careful (create members modes windows) labels)
    (attested : Always step Attested (create members modes windows) labels)
    (ran : run step (create members modes windows) labels = some cluster) : cluster.LeaderComplete := by
  have reached : ∃ campaign, Invariant members campaign cluster :=
    run_invariant (fun cluster => ∃ campaign, Invariant members campaign cluster)
      (fun {_ _ next} ⟨_, holds⟩ guarded enabled =>
        holds.step distinct guarded.1 (guarded.2 next enabled) enabled)
      ⟨_, invariant_create distinct modes windows⟩
      (guarded_and careful (always_iff.mp attested).2) ran
  obtain ⟨_, inv⟩ := reached
  exact inv.leaderComplete

/-- Three nodes. -/
def threeNodes : NodeCluster := create [1, 2, 3] (fun _ => .asynchronous) fun _ => 8

/-- A link that takes nothing. -/
def cutOff : Link := { sendResult := fun _ => .notConnected, ready := fun _ _ => false }

/-- Node 1 leads term 1 and replicates a command to node 2, which then leads term 2 with the vote of
node 3. -/
def succession : List Label :=
  [.tick 1 1000 {}, .deliver 0 1001 {}, .deliver 1 1002 cutOff, .lose 0, .peerUp 1 2 {},
    .deliver 0 1003 {}, .deliver 0 1004 {}, .submit 1 (ReplicatorCluster.restingSell 1) {},
    .deliver 0 1005 {}, .lose 0, .tick 2 2000 {}, .deliver 1 2001 {}, .deliver 1 2002 cutOff]

theorem leaderCompleteness_succession :
    ∃ cluster, run step threeNodes succession = some cluster ∧ cluster.LeaderComplete ∧
      (1, 1) ∈ cluster.secured.map (fun entry => (entry.seq, entry.term)) ∧
      cluster.crowned.map (fun crowning => (crowning.term, crowning.id)) = [(1, 1), (2, 2)] :=
  have ran : run step threeNodes succession =
      some ((run step threeNodes succession).get (by decide +kernel)) := (Option.some_get _).symm
  ⟨_, ran, leaderCompleteness (by decide) (fun _ => .asynchronous) (fun _ => 8) succession
    (by decide +kernel) (by decide +kernel) ran, by decide +kernel, by decide +kernel⟩

/-- Node 1 leads term 1 and accepts two commands that it cannot replicate. Node 2 leads term 2 and commits a
command with node 3. Node 1 hears of term 2 and stands again: its log is the longer one, so node 3 votes for
it. -/
def longerLog : List Label :=
  [.tick 1 1000 {}, .deliver 0 1001 {}, .deliver 1 1002 cutOff, .lose 0,
    .submit 1 (ReplicatorCluster.restingSell 1) cutOff, .submit 1 (ReplicatorCluster.restingSell 2) cutOff,
    .tick 2 2000 {}, .deliver 1 2001 {}, .deliver 1 2002 cutOff, .lose 0, .peerUp 2 3 {},
    .deliver 0 2003 {}, .deliver 0 2004 {}, .submit 2 (ReplicatorCluster.restingSell 3) {},
    .deliver 0 2005 {}, .deliver 0 2006 cutOff, .tick 1 2007 {}, .deliver 1 2008 {}, .lose 0,
    .deliver 0 2009 cutOff, .tick 1 3000 {}, .deliver 1 3001 {}, .deliver 1 3002 cutOff]

/-- **A shorter log loses.** Every step but the last vote is careful, and node 1 leads term 3 without the
entry that node 2 has committed. -/
theorem shorter_log_loses :
    ∃ cluster, run step threeNodes longerLog = some cluster ∧ ¬ cluster.LeaderComplete ∧
      (cluster.nodes 2).replicator.commitIndex = 1 ∧
      (cluster.nodes 2).replicator.log.at? 1 =
        some { seq := 1, term := 2, command := ReplicatorCluster.restingSell 3 } ∧
      cluster.crowned.map (fun crowning => (crowning.term, crowning.id)) = [(1, 1), (2, 2), (3, 1)] ∧
      (cluster.nodes 1).replicator.log.at? 1 =
        some { seq := 1, term := 1, command := ReplicatorCluster.restingSell 1 } ∧
      Always step Attested threeNodes longerLog ∧
      Guarded step Careful threeNodes (longerLog.take 21) := by
  refine ⟨_, (Option.some_get (by decide +kernel)).symm, ?_⟩
  decide +kernel

end NodeCluster

end Sententia
