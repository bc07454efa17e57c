/-
**How far a replicator applies.** `applyCommitted` stops at the commit point, on a leader and on a
follower. `rebuildFromLog` does not: after a conflict it replays everything that is left of the log,
committed or not. So a node has applied an uncommitted entry after a conflict above the entry that follows
its commit point, unless the leader's commit point comes to cover what was replayed
(`applied_le_committed`); a log that has dropped its front cannot be replayed at all.
-/

import Sententia.Replication.OnlyPrimary
import Sententia.Replication.Replica

namespace Sententia

open Library Relation

namespace Replica

/-! ### The small steps -/

theorem Works.in_order {replica replica' : Replica} (works : Works replica replica')
    (inOrder : replica.applied ≤ replica.committed) : replica'.applied ≤ replica'.committed := by
  cases works with
  | grow entry => exact inOrder
  | commit seq forward inside => exact inOrder.trans forward
  | apply entry behind kept next => exact behind

theorem in_order_works {replica replica' : Replica} (path : ReflTransGen Works replica replica')
    (inOrder : replica.applied ≤ replica.committed) : replica'.applied ≤ replica'.committed := by
  induction path with
  | refl => exact inOrder
  | tail _ works ih => exact works.in_order ih

/-- The entry loop has applied at most up to `bound`, or to the commit point. -/
structure Within (commit bound : Nat) (replica : Replica) : Prop where
  whole : replica.dropped = 0 → replica.committed = commit ∧ replica.applied ≤ max commit bound ∧
    replica.applied ≤ replica.history.length
  dropped : replica.dropped ≠ 0 → replica.applied ≤ replica.committed

/-- Cuts at most one past the bound keep the replay within it. -/
theorem Edits.within {cuts : Nat → Prop} {commit bound : Nat} {replica replica' : Replica}
    (edits : Edits cuts replica replica') (within : replica.Within commit bound)
    (near : ∀ seq, cuts seq → replica.dropped = 0 → seq ≤ max commit bound + 1) :
    replica'.Within commit bound ∧ replica'.dropped = replica.dropped := by
  cases edits with
  | grow entry =>
    refine ⟨⟨fun whole => ?_, within.dropped⟩, rfl⟩
    obtain ⟨same, bounded, inside⟩ := within.whole whole
    refine ⟨same, bounded, ?_⟩
    show replica.applied ≤ (replica.history ++ _).length
    rw [List.length_append]
    exact Nat.le_add_right_of_le inside
  | cut seq allowed uncommitted kept inside =>
    unfold cutAt
    simp only
    by_cases whole : replica.dropped = 0
    · have bounded := near seq allowed whole
      obtain ⟨same, _, _⟩ := within.whole whole
      rw [if_pos whole]
      refine ⟨⟨fun _ => ⟨same, ?_, ?_⟩, fun trimmed => absurd whole trimmed⟩, rfl⟩
      · show seq - 1 ≤ max commit bound
        omega
      · show seq - 1 ≤ (replica.history.take (seq - 1)).length
        rw [List.length_take]
        omega
    · rw [if_neg whole]
      exact ⟨⟨fun untrimmed => absurd untrimmed whole, fun _ => Nat.le_refl 0⟩, rfl⟩

theorem within_edits {cuts : Nat → Prop} {commit bound : Nat} {replica replica' : Replica}
    (path : ReflTransGen (Edits cuts) replica replica') (within : replica.Within commit bound)
    (near : ∀ seq, cuts seq → replica.dropped = 0 → seq ≤ max commit bound + 1) :
    replica'.Within commit bound := by
  have kept : replica'.Within commit bound ∧ replica'.dropped = replica.dropped := by
    induction path with
    | refl => exact ⟨within, rfl⟩
    | tail _ edits ih =>
      obtain ⟨within', same⟩ := ih
      obtain ⟨within'', same'⟩ := edits.within within' fun seq allowed whole =>
        near seq allowed (same.symm.trans whole)
      exact ⟨within'', same'.trans same⟩
  exact kept.1

/-- What the leader's commit point covers is committed in the end. -/
theorem Within.adopt {replica : Replica} {commit commitSeq : Nat}
    (within : replica.Within commit commitSeq) :
    replica.applied ≤ max replica.committed (min commitSeq replica.history.length) := by
  by_cases whole : replica.dropped = 0
  · obtain ⟨same, bounded, inside⟩ := within.whole whole
    omega
  · exact le_max_of_le_left (within.dropped whole)

end Replica

namespace Replicator

open Replica

/-- `lastApplied ≤ commitIndex ≤ log.lastSeq`. -/
def InOrder (rep : Replicator) : Prop :=
  rep.lastApplied ≤ rep.commitIndex ∧ rep.commitIndex ≤ rep.log.lastSeq

/-- If the message passes the checks of its term and predecessor, then the log has dropped a front, or
the message cuts it at most one past the commit point it has or adopts. For records that do not ascend
this is asked of the commit point it has, and of everything that could be cut. -/
def CutsNear (rep : Replicator) (msg : AppendEntries) : Prop :=
  rep.term ≤ msg.term → rep.log.termAt msg.prevSeq = some msg.prevTerm →
    0 < rep.log.truncatedThrough ∨
      (Ascending msg.entries ∧ ∀ record ∈ firstNew rep.log.termAt msg.entries,
        rep.log.termAt record.seq ≠ none → record.seq ≤ max rep.commitIndex msg.commitSeq + 1) ∨
      Agrees (· ≤ rep.commitIndex + 1) rep.log.termAt msg.entries

instance (rep : Replicator) (msg : AppendEntries) : Decidable (rep.CutsNear msg) :=
  inferInstanceAs (Decidable (_ → _ → _))

def CutsNearCommit (rep : Replicator) : Call → Prop
  | .onMessage _ (.appendEntries msg) _ => rep.CutsNear msg
  | _ => True

instance (rep : Replicator) (call : Call) : Decidable (rep.CutsNearCommit call) := by
  unfold CutsNearCommit
  split <;> infer_instance

/-- **An `AppendEntries` that cuts near the commit point** leaves nothing uncommitted applied. -/
theorem handleAppendEntries_in_order {replica : Replica} {rep : Replicator} (stands : replica.Stands rep)
    (inOrder : replica.applied ≤ replica.committed) (net : Transport) (source : NodeId)
    {msg : AppendEntries} (near : rep.CutsNear msg) :
    ∃ replica' : Replica, replica'.Stands (rep.handleAppendEntries net source msg).1 ∧
      replica'.applied ≤ replica'.committed := by
  have known : rep.log.termAt = replica.termAt := by
    funext seq
    exact stands.termAt_eq seq
  have within : ∀ bound, replica.Within replica.committed bound := fun bound =>
    ⟨fun _ => ⟨rfl, le_max_of_le_left inOrder, inOrder.trans stands.inside⟩, fun _ => inOrder⟩
  rcases rep.handleAppendEntries_cases net source msg with
    ⟨stats, rejected⟩ | ⟨current, follows, absorbed, outcome⟩
  · rw [rejected]
    exact ⟨replica, stands.reframe, inOrder⟩
  · -- Absorbed within the commit point that is then adopted.
    have settles : ∀ {replica' : Replica}, replica'.Stands absorbed →
        replica'.Within replica.committed msg.commitSeq → ∃ replica'' : Replica,
          replica''.Stands (absorbed.adoptCommit msg.commitSeq).applyCommitted ∧
            replica''.applied ≤ replica''.committed := by
      intro replica' stands' within'
      obtain ⟨replica'', path, stands''⟩ := stands'.settle msg.commitSeq
      exact ⟨replica'', stands'', in_order_works path within'.adopt⟩
    -- Absorbed within the commit point that the node has, whatever comes of it.
    have plain : (∃ cuts : Nat → Prop, Agrees cuts replica.termAt msg.entries ∧
        ∀ seq, cuts seq → replica.dropped = 0 → seq ≤ replica.committed + 1) →
          ∃ replica' : Replica, replica'.Stands (rep.handleAppendEntries net source msg).1 ∧
            replica'.applied ≤ replica'.committed := by
      rintro ⟨cuts, agrees, close⟩
      obtain ⟨replica', path, stands'⟩ := stands.appendRecords_edits msg.entries agrees
      have within' : replica'.Within replica.committed 0 :=
        within_edits path (within 0) fun seq allowed whole => by
          have bounded := close seq allowed whole
          omega
      rcases outcome with ⟨refused, result⟩ | ⟨accepted, result⟩
      · rw [refused] at stands'
        rw [result]
        refine ⟨replica', stands', ?_⟩
        by_cases whole : replica'.dropped = 0
        · obtain ⟨same, bounded, _⟩ := within'.whole whole
          omega
        · exact within'.dropped whole
      · rw [accepted] at stands'
        rw [result]
        refine settles stands' ⟨fun whole => ?_, within'.dropped⟩
        obtain ⟨same, bounded, inside⟩ := within'.whole whole
        exact ⟨same, by omega, inside⟩
    rcases near current follows with trimmed | ⟨ascending, first⟩ | agrees
    · refine plain ⟨fun _ => True, ⟨fun _ _ _ _ _ => trivial, ?_⟩, fun seq _ whole => ?_⟩
      · exact List.pairwise_of_forall fun _ _ _ _ => trivial
      · rw [stands.dropped, whole] at trimmed
        exact absurd trimmed (Nat.lt_irrefl 0)
    · rw [known, stands.committed] at first
      rcases stands.appendRecords_ascending (· ≤ max replica.committed msg.commitSeq + 1) msg.entries
          ascending first with
        refused | ⟨rep', replica', accepted, path, stands'⟩
      · rcases outcome with ⟨refused', result⟩ | ⟨accepted', _⟩
        · obtain rfl : rep = absorbed := (Prod.mk.inj (refused.symm.trans refused')).1
          rw [result]
          exact ⟨replica, stands, inOrder⟩
        · cases (Prod.mk.inj (refused.symm.trans accepted')).2
      · rcases outcome with ⟨refused', _⟩ | ⟨accepted', result⟩
        · cases (Prod.mk.inj (accepted.symm.trans refused')).2
        · obtain rfl : rep' = absorbed := (Prod.mk.inj (accepted.symm.trans accepted')).1
          rw [result]
          exact settles stands' (within_edits path (within _) fun seq bounded _ => bounded)
    · rw [known, stands.committed] at agrees
      exact plain ⟨_, agrees, fun seq bounded _ => bounded⟩

/-- The node stands for a replica that has applied nothing uncommitted. -/
def Orderly (rep : Replicator) : Prop :=
  ∃ replica : Replica, replica.Stands rep ∧ replica.applied ≤ replica.committed

theorem Orderly.step {rep next : Replicator} {call : Call} (orderly : rep.Orderly)
    (near : rep.CutsNearCommit call) (moved : rep.step call = some next) : next.Orderly := by
  obtain ⟨replica, stands, inOrder⟩ := orderly
  obtain rfl := Option.some.inj moved
  by_cases append : ∃ source msg link, call = .onMessage source (.appendEntries msg) link
  · obtain ⟨source, msg, link, rfl⟩ := append
    exact handleAppendEntries_in_order stands inOrder { link } source near
  · by_cases compacts : call = .compactLog
    · subst compacts
      obtain ⟨dropped, _, _, stands'⟩ := stands.compactLog
      exact ⟨_, stands', inOrder⟩
    · obtain ⟨replica', path, stands'⟩ := stands.perform compacts fun source msg link equal =>
        append ⟨source, msg, link, equal⟩
      exact ⟨replica', stands', in_order_works path inOrder⟩

/-- **Nothing uncommitted is applied**, in every run in which every conflict is near the commit point. -/
theorem applied_le_committed (self : NodeId) (role : Role) (mode : ReplicationMode)
    (engine : MatchingEngine) (clusterSize syncWindow : Nat) (calls : List Call)
    (near : Guarded step CutsNearCommit { self, role, mode, engine, clusterSize, syncWindow } calls) :
    Always step InOrder { self, role, mode, engine, clusterSize, syncWindow } calls := by
  refine always_of_guarded Orderly (fun orderly near moved => orderly.step near moved) ?_ ?_ near
  · rintro rep ⟨replica, stands, inOrder⟩
    refine ⟨?_, ?_⟩
    · rw [stands.applied, stands.committed]
      exact inOrder
    · rw [stands.committed, stands.log.lastSeq]
      exact stands.inside
  · refine ⟨{ history := [], dropped := 0, applied := 0, committed := 0, engine }, ?_, Nat.le_refl 0⟩
    exact ⟨CommandLog.retains_empty, rfl, rfl, rfl, rfl, rfl, Nat.le_refl 0⟩

/-- A follower is sent two entries of term 1, of which nothing is committed. Then the leader of term 2,
which has another entry 1 and has committed it, sends it that one. -/
def earlyConflict : List Call :=
  [.setTerm 1,
    .onMessage 1 (.appendEntries
      { term := 1
        leaderId := 1
        entries := [⟨1, 1, .cancelOrder { id := 1 }⟩, ⟨2, 1, .cancelOrder { id := 2 }⟩] }) {},
    .setTerm 2,
    .onMessage 2 (.appendEntries
      { term := 2, leaderId := 2, commitSeq := 1, entries := [⟨1, 2, .cancelOrder { id := 3 }⟩] }) {}]

/-- A follower of three nodes. -/
def follower : Replicator :=
  { self := 3
    role := .backup
    mode := .asynchronous
    engine := { instrument := 1 }
    clusterSize := 3
    syncWindow := 1 }

theorem applied_le_committed_earlyConflict :
    Guarded step CutsNearCommit follower earlyConflict ∧ Always step InOrder follower earlyConflict :=
  have near : Guarded step CutsNearCommit follower earlyConflict := by decide +kernel
  ⟨near, applied_le_committed 3 .backup .asynchronous { instrument := 1 } 3 1 earlyConflict near⟩

/-- The same follower; the leader of term 2 has the first entry and another second one, and nothing is
committed. -/
def lateConflict : List Call :=
  [.setTerm 1,
    .onMessage 1 (.appendEntries
      { term := 1
        leaderId := 1
        entries := [⟨1, 1, .cancelOrder { id := 1 }⟩, ⟨2, 1, .cancelOrder { id := 2 }⟩] }) {},
    .setTerm 2,
    .onMessage 2 (.appendEntries
      { term := 2
        leaderId := 2
        prevSeq := 1
        prevTerm := 1
        entries := [⟨2, 2, .cancelOrder { id := 3 }⟩] }) {}]

/-- The rebuild applies entry 1, which nobody has committed. -/
theorem uncommitted_applied :
    ∃ rep, run step follower lateConflict = some rep ∧ rep.commitIndex = 0 ∧ rep.lastApplied = 1 ∧
      ¬ rep.InOrder := by
  have reached : ∃ rep, run step follower lateConflict = some rep ∧ rep.commitIndex = 0 ∧
      rep.lastApplied = 1 :=
    ⟨_, (Option.some_get (by decide +kernel)).symm, by decide +kernel, by decide +kernel⟩
  obtain ⟨rep, ran, committed, applied⟩ := reached
  refine ⟨rep, ran, committed, applied, fun inOrder => ?_⟩
  have behind := inOrder.1
  omega

end Replicator

end Sententia
