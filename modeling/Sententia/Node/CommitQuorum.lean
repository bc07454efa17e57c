/-
**How many nodes commit an entry.** The election of a node counts the peers it was configured with. The
replicator counts against `clusterSize`, which the node program never sets: two. So two nodes commit,
whatever the configuration, and that is the majority the election asks for in clusters of two and three
only (`quorumAgrees_iff`).
-/

import Mathlib.Order.Bounds.Defs
import Sententia.Consensus.ElectionInvariant
import Sententia.Library.Transition
import Sententia.Node
import Sententia.Replication.FollowerSpec

namespace Sententia

open Library

namespace Node

/-! ### The replicator of a node -/

/-- What the node program does with its replicator. -/
inductive Call
  | setTerm (term : Nat)
  | setRole (role : Role)
  | peerUp (peer : NodeId) (link : Link)
  | peerDown (peer : NodeId)
  | tick (link : Link)
  | submit (cmd : Command) (link : Link)
  | message (source : NodeId) (msg : Message) (link : Link)

/-- Peers are the other nodes of the configuration. -/
def call (members : List NodeId) (selfId : NodeId) (rep : Replicator) : Call → Option Replicator
  | .setTerm term => some (rep.setTerm term)
  | .setRole role => some (rep.setRole role)
  | .peerUp peer link =>
    if peer ∈ members ∧ peer ≠ selfId then some (rep.onPeerUp { link } peer).1 else none
  | .peerDown peer => some (rep.onPeerDown peer)
  | .tick link => some (rep.tick { link }).1
  | .submit cmd link => some (rep.submit { link } cmd).1
  | .message source msg link =>
    if source ∈ members ∧ source ≠ selfId then some (rep.onMessage { link } source msg).1 else none

/-- A state in which the replicator of a node may be asked for its commit point. -/
def Consulted (members : List NodeId) (selfId : NodeId) (mode : ReplicationMode) (syncWindow : Nat)
    (rep : Replicator) : Prop :=
  ∃ calls before,
    run (call members selfId) (create members selfId mode syncWindow).replicator calls = some before ∧
      (rep = before ∨ ∃ source msg, source ∈ members ∧ source ≠ selfId ∧ msg.term ≤ before.term ∧
        rep = before.noted source msg)

/-- `advanceCommitIndex` moves the commit point to `seq`. -/
def Advances (rep : Replicator) (seq : Nat) : Prop :=
  rep.commitIndex < seq ∧ rep.advanceCommitIndex.commitIndex = seq

/-- The commit point moves to exactly the highest entry of the own term that the nodes reach which the
election would call a majority, and those nodes meet every majority that elects a leader. -/
def QuorumAgrees (members : List NodeId) : Prop :=
  ∀ selfId ∈ members, ∀ mode syncWindow rep, Consulted members selfId mode syncWindow rep → ∀ seq,
    (Advances rep seq ↔
      rep.role = .primary ∧ rep.commitIndex < seq ∧ rep.log.termAt seq = some rep.term ∧
        IsGreatest { any | (create members selfId mode syncWindow).election.majority ≤
          (rep.holders any).length } seq) ∧
    (Advances rep seq → ∀ voters, Majority members voters → ∃ voter ∈ voters, voter ∈ rep.holders seq)

/-! ### What the calls leave alone -/

/-- The cluster size is the default and only the other nodes are filed. -/
structure Built (members : List NodeId) (selfId : NodeId) (rep : Replicator) : Prop where
  self : rep.self = selfId
  size : rep.clusterSize = 2
  peers : rep.Files fun id _ => id ∈ members ∧ id ≠ selfId

namespace Built

variable {members : List NodeId} {selfId : NodeId} {rep rep' : Replicator}

theorem of_core (built : Built members selfId rep) {middle : Replicator}
    (self : middle.self = rep.self) (size : middle.clusterSize = rep.clusterSize)
    (same : rep'.core = middle.core) (peers : rep'.Files fun id _ => id ∈ members ∧ id ≠ selfId) :
    Built members selfId rep' where
  self := (congrArg (·.self) same).trans (self.trans built.self)
  size := (congrArg (·.clusterSize) same).trans (size.trans built.size)
  peers := peers

theorem of_sends (built : Built members selfId rep) {net net' : Transport}
    (sends : rep.Sends net rep' net') : Built members selfId rep' :=
  built.of_core rfl rfl sends.frame (built.peers.of_sends sends)

/-- Every call keeps the size. -/
theorem call (built : Built members selfId rep) {request : Call}
    (enabled : Node.call members selfId rep request = some rep') : Built members selfId rep' := by
  cases request with
  | setTerm term =>
    obtain rfl := Option.some.inj enabled
    exact { built with }
  | setRole role =>
    obtain rfl := Option.some.inj enabled
    have peers := built.peers.setRole (fun known => known) role
    obtain ⟨backups, stats, changed⟩ := rep.setRole_frame role
    rw [changed] at peers ⊢
    exact ⟨built.self, built.size, peers⟩
  | peerUp peer link =>
    obtain ⟨known, moved⟩ := Option.ite_none_right_eq_some.mp enabled
    obtain rfl := Option.some.inj moved
    have peers := built.peers.onPeerUp { link } known
    by_cases leading : rep.role = .primary
    · exact built.of_core rfl rfl (Replicator.onPeerUp_sends leading { link } peer).frame peers
    · rw [Replicator.onPeerUp_idle leading]
      exact built
  | peerDown peer =>
    obtain rfl := Option.some.inj enabled
    exact ⟨built.self, built.size, built.peers.onPeerDown peer⟩
  | tick link =>
    obtain rfl := Option.some.inj enabled
    exact built.of_sends (rep.tick_sends { link })
  | submit cmd link =>
    obtain rfl := Option.some.inj enabled
    rcases rep.submit_cases { link } cmd with ⟨sends, _⟩ | ⟨_, sends, _⟩
    · exact built.of_sends sends
    · obtain ⟨_, _, _, _, _, accepts⟩ := rep.accept_frame cmd
      have accepted : Built members selfId (rep.accept cmd) := by
        rw [accepts]
        exact ⟨built.self, built.size, built.peers⟩
      exact accepted.of_sends sends
  | message source msg link =>
    obtain ⟨known, moved⟩ := Option.ite_none_right_eq_some.mp enabled
    obtain rfl := Option.some.inj moved
    cases msg with
    | appendEntries append =>
      obtain ⟨_, _, _, _, _, _, handled⟩ := rep.handleAppendEntries_touches { link } source append
      show Built members selfId (rep.handleAppendEntries { link } source append).1
      rw [handled]
      exact ⟨built.self, built.size, built.peers⟩
    | appendResponse answer =>
      have peers : (rep.handleAppendResponse { link } source answer).1.Files _ :=
        built.peers.handleAppendResponse { link } known fun _ _ => known
      rcases rep.handleAppendResponse_cases { link } source answer with
        ⟨_, sends, _⟩ | ⟨_, stats, sends, _⟩
      · exact built.of_sends sends
      · obtain ⟨_, _, _, _, _, _, advanced⟩ := (rep.noted source answer).advanceCommitIndex_frame
        have noted : rep.noteResponse source answer = _ := advanced
        rw [noted] at sends
        refine built.of_core ?_ ?_ sends.frame peers
        · rfl
        · rfl
    | _ => exact built

/-- The nodes behind a commit point are distinct nodes of the configuration. -/
theorem holders (built : Built members selfId rep) (member : selfId ∈ members) (seq : Nat) :
    (rep.holders seq).Nodup ∧ rep.holders seq ⊆ members := by
  have others : ∀ id ∈ rep.supporters seq, id ∈ members ∧ id ≠ selfId := by
    intro id supports
    obtain ⟨backup, found, _⟩ := Replicator.mem_supporters.mp supports
    exact built.peers id backup found
  unfold Replicator.holders
  rw [built.self]
  split_ifs
  · refine ⟨List.nodup_cons.mpr ⟨fun itself => ?_, rep.supporters_nodup seq⟩, ?_⟩
    · exact (others selfId itself).2 rfl
    · exact List.cons_subset.mpr ⟨member, fun id supports => (others id supports).1⟩
  · exact ⟨rep.supporters_nodup seq, fun id supports => (others id supports).1⟩

/-- Two nodes are enough, and needed. -/
theorem le_commitCandidate_iff (built : Built members selfId rep) {seq : Nat} (positive : 0 < seq) :
    seq ≤ rep.commitCandidate ↔ 2 ≤ (rep.holders seq).length := by
  have configured : 0 < rep.clusterSize := by
    rw [built.size]
    decide
  have two : rep.majority = 2 := by
    unfold Replicator.majority
    rw [built.size]
  rw [rep.le_commitCandidate_iff_holders configured positive, two]

/-- **The commit rule of a node.** -/
theorem advances_iff (built : Built members selfId rep) (seq : Nat) :
    Advances rep seq ↔
      rep.role = .primary ∧ rep.commitIndex < seq ∧ rep.log.termAt seq = some rep.term ∧
        IsGreatest { any | 2 ≤ (rep.holders any).length } seq := by
  unfold Advances
  rw [rep.commitIndex_advanceCommitIndex]
  constructor
  · rintro ⟨more, moved⟩
    split_ifs at moved with advances
    · obtain ⟨leading, _, ownTerm⟩ := advances
      rw [moved] at ownTerm
      refine ⟨leading, more, ownTerm, ?_, fun any reached => ?_⟩
      · exact (built.le_commitCandidate_iff (by omega)).mp (Nat.le_of_eq moved.symm)
      · rcases Nat.eq_zero_or_pos any with rfl | positive
        · exact Nat.zero_le _
        · exact moved ▸ (built.le_commitCandidate_iff positive).mpr reached
    · omega
  · rintro ⟨leading, more, ownTerm, reached, highest⟩
    have candidate : rep.commitCandidate = seq := by
      have atLeast := (built.le_commitCandidate_iff (by omega)).mpr reached
      refine Nat.le_antisymm (highest ?_) atLeast
      exact (built.le_commitCandidate_iff (by omega)).mp (Nat.le_refl _)
    rw [candidate, if_pos ⟨leading, more, ownTerm⟩]
    exact ⟨more, rfl⟩

/-- Two nodes meet every majority of four nodes or fewer. -/
theorem meets (built : Built members selfId rep) (member : selfId ∈ members)
    (few : members.length ≤ 4) {seq : Nat} (enough : 2 ≤ (rep.holders seq).length)
    {voters : List NodeId} (majority : Majority members voters) :
    ∃ voter ∈ voters, voter ∈ rep.holders seq := by
  obtain ⟨distinct, inside⟩ := built.holders member seq
  have large := majority.large
  exact exists_common majority.nodup distinct majority.subset inside (by omega)

end Built

theorem built_create (members : List NodeId) (selfId : NodeId) (mode : ReplicationMode)
    (syncWindow : Nat) : Built members selfId (create members selfId mode syncWindow).replicator :=
  ⟨rfl, rfl, fun _ _ found => nomatch found⟩

theorem Consulted.built {members : List NodeId} {selfId : NodeId} {mode : ReplicationMode}
    {syncWindow : Nat} {rep : Replicator} (consulted : Consulted members selfId mode syncWindow rep) :
    Built members selfId rep := by
  obtain ⟨calls, before, ran, state⟩ := consulted
  have reached : Built members selfId before :=
    run_invariant (fun rep => Built members selfId rep)
      (fun {_ _ _} built _ enabled => built.call enabled)
      (built_create members selfId mode syncWindow) (guarded_true _ _) ran
  rcases state with rfl | ⟨source, msg, member, other, _, rfl⟩
  · exact reached
  · exact ⟨reached.self, reached.size, reached.peers.insert ⟨member, other⟩⟩

/-! ### Which configurations agree -/

theorem majority_create {members : List NodeId} (distinct : members.Nodup) {selfId : NodeId}
    (member : selfId ∈ members) (mode : ReplicationMode) (syncWindow : Nat) :
    (create members selfId mode syncWindow).election.majority = members.length / 2 + 1 := by
  have peers : (create members selfId mode syncWindow).election.peers = members.filter (· != selfId) :=
    (Election.resetElectionTimer_same _ 0).peers
  have size : (members.filter (· != selfId)).length + 1 = members.length := by
    rw [← distinct.erase_eq_filter selfId]
    exact List.length_erase_add_one member
  unfold Election.majority Election.clusterSize
  rw [peers, size]

/-- A node that is made primary and accepts a command while nobody is connected. -/
theorem lonely_primary (members : List NodeId) (selfId : NodeId) (syncWindow : Nat) (cmd : Command) :
    ∃ calls rep, run (call members selfId) (create members selfId .asynchronous syncWindow).replicator
        calls = some rep ∧ rep.role = .primary ∧ rep.commitIndex = 0 ∧ rep.term = 1 ∧
          rep.log.lastSeq = 1 ∧ rep.log.termAt 1 = some 1 ∧ rep.backups = .empty :=
  ⟨[.setTerm 1, .setRole .primary, .submit cmd {}], _, rfl, rfl, rfl, rfl, rfl, rfl, rfl⟩

/-- In a cluster of one, the node alone is a majority but commits nothing. -/
theorem not_quorumAgrees_single (selfId : NodeId) : ¬ QuorumAgrees [selfId] := by
  intro agrees
  obtain ⟨calls, rep, ran, leading, uncommitted, term, head, ownTerm, alone⟩ :=
    lonely_primary [selfId] selfId 1 (.cancelOrder { id := 1 })
  have consulted : Consulted [selfId] selfId .asynchronous 1 rep := ⟨calls, rep, ran, Or.inl rfl⟩
  have unsupported : ∀ seq, rep.supporters seq = [] := by
    intro seq
    unfold Replicator.supporters
    rw [alone]
    rfl
  have holdersOf : ∀ seq, (rep.holders seq).length = if seq ≤ 1 then 1 else 0 := by
    intro seq
    unfold Replicator.holders
    rw [head, unsupported]
    split_ifs <;> rfl
  have advances : Advances rep 1 := by
    refine (agrees selfId (List.mem_singleton_self _) _ _ rep consulted 1).1.mpr
      ⟨leading, by omega, by rw [ownTerm, term], ?_, fun seq reached => ?_⟩
    · show _ ≤ (rep.holders 1).length
      rw [majority_create (List.nodup_singleton _) (List.mem_singleton_self _), holdersOf,
        if_pos (Nat.le_refl 1), List.length_singleton]
    · have reached' : _ ≤ (rep.holders seq).length := reached
      rw [majority_create (List.nodup_singleton _) (List.mem_singleton_self _), holdersOf] at reached'
      by_contra above
      rw [if_neg above] at reached'
      exact Nat.not_succ_le_zero _ reached'
  obtain ⟨_, _, _, enough, _⟩ := (consulted.built.advances_iff 1).mp advances
  have two : 2 ≤ (rep.holders 1).length := enough
  rw [holdersOf] at two
  exact absurd two (by decide)

/-- In a cluster of four or more, the primary commits what one other node holds. -/
theorem not_quorumAgrees_large {members : List NodeId} (distinct : members.Nodup)
    (many : 4 ≤ members.length) : ¬ QuorumAgrees members := by
  intro agrees
  obtain ⟨selfId, peer, rest, rfl⟩ : ∃ selfId peer rest, members = selfId :: peer :: rest := by
    match members, many with
    | selfId :: peer :: rest, _ => exact ⟨selfId, peer, rest, rfl⟩
  have other : peer ≠ selfId := by
    rintro rfl
    exact (List.nodup_cons.mp distinct).1 (List.mem_cons_self)
  obtain ⟨calls, before, ran, leading, uncommitted, term, head, ownTerm, alone⟩ :=
    lonely_primary (selfId :: peer :: rest) selfId 1 (.cancelOrder { id := 1 })
  generalize acknowledges : ({ term := 1, nodeId := peer, lastLogSeq := 1, ok := true } :
    AppendResponse) = msg
  have consulted : Consulted (selfId :: peer :: rest) selfId .asynchronous 1 (before.noted peer msg) :=
    ⟨calls, before, ran, Or.inr ⟨peer, msg, by simp, other, by rw [← acknowledges, term], rfl⟩⟩
  have supporters : ∀ seq, ((before.noted peer msg).supporters seq).length = if seq ≤ 1 then 1 else 0 := by
    intro seq
    rw [← acknowledges]
    unfold Replicator.noted Replicator.supporters Replicator.respondent
    rw [alone]
    show ((List.filter _ [(peer, _)]).map Prod.fst).length = _
    rw [List.filter_singleton]
    by_cases reached : seq ≤ 1
    · simp [BackupState.respond, reached]
    · simp [BackupState.respond, reached]
  have holdersOf : ∀ seq, ((before.noted peer msg).holders seq).length = if seq ≤ 1 then 2 else 0 := by
    intro seq
    unfold Replicator.holders
    have sameHead : (before.noted peer msg).log.lastSeq = 1 := head
    rw [sameHead]
    split_ifs with reached
    · rw [List.length_cons, supporters, if_pos reached]
    · rw [supporters, if_neg reached]
  have advances : Advances (before.noted peer msg) 1 := by
    refine (consulted.built.advances_iff 1).mpr ⟨leading, ?_, ?_, ?_, fun seq reached => ?_⟩
    · show before.commitIndex < 1
      omega
    · show before.log.termAt 1 = some before.term
      rw [ownTerm, term]
    · show 2 ≤ ((before.noted peer msg).holders 1).length
      rw [holdersOf]
      exact Nat.le_refl _
    · have reached' : 2 ≤ ((before.noted peer msg).holders seq).length := reached
      rw [holdersOf] at reached'
      by_contra above
      rw [if_neg above] at reached'
      exact Nat.not_succ_le_zero _ reached'
  obtain ⟨_, _, _, enough, _⟩ :=
    (agrees selfId List.mem_cons_self _ _ _ consulted 1).1.mp advances
  have needed : _ ≤ ((before.noted peer msg).holders 1).length := enough
  rw [majority_create distinct List.mem_cons_self, holdersOf, if_pos (Nat.le_refl 1)] at needed
  simp only [List.length_cons] at many needed
  omega

/-- **The quorums agree in clusters of two and three, and in no other.** -/
theorem quorumAgrees_iff {members : List NodeId} (distinct : members.Nodup) (nonempty : members ≠ []) :
    QuorumAgrees members ↔ members.length = 2 ∨ members.length = 3 := by
  constructor
  · intro agrees
    have positive := List.length_pos_iff.mpr nonempty
    by_contra other
    by_cases single : members.length = 1
    · obtain ⟨selfId, rfl⟩ := List.length_eq_one_iff.mp single
      exact not_quorumAgrees_single selfId agrees
    · exact not_quorumAgrees_large distinct (by omega) agrees
  · intro few selfId member mode syncWindow rep consulted seq
    have built := consulted.built
    have majority := majority_create distinct member mode syncWindow
    have two : members.length / 2 + 1 = 2 := by omega
    rw [majority, two]
    refine ⟨built.advances_iff seq, fun advances voters isMajority => ?_⟩
    obtain ⟨_, _, _, enough, _⟩ := (built.advances_iff seq).mp advances
    exact built.meets member (by omega) enough isMajority

theorem quorumAgrees_iff_three : QuorumAgrees [1, 2, 3] :=
  (quorumAgrees_iff (by decide) (by decide)).mpr (by decide)

/-- Five nodes: node 1 is made primary, node 2 connects and holds the command node 1 accepts, and that
commits it. -/
theorem two_of_five_commit :
    ¬ QuorumAgrees [1, 2, 3, 4, 5] ∧
      ∃ rep, run (call [1, 2, 3, 4, 5] 1) (create [1, 2, 3, 4, 5] 1 .synchronous 8).replicator
          [.setTerm 1, .setRole .primary, .peerUp 2 {}, .message 2 (.appendResponse
            { term := 1, nodeId := 2, ok := true }) {}, .submit (.cancelOrder { id := 1 }) {},
            .message 2 (.appendResponse { term := 1, nodeId := 2, lastLogSeq := 1, ok := true }) {}] =
          some rep ∧
        rep.commitIndex = 1 ∧ rep.holders 1 = [1, 2] ∧
        (create [1, 2, 3, 4, 5] 1 .synchronous 8).election.majority = 3 := by
  refine ⟨not_quorumAgrees_large (by decide) (by decide), _, rfl, ?_⟩
  decide +kernel

end Node

end Sententia
