/-
**Heartbeats and log matching.** `runActions` builds its own empty `AppendEntries` for a heartbeat. It puts
the log head into `prevSeq`, like the probe and the commit notice of `sendAppend`, and leaves `prevTerm` at
zero, which they do not.

* `heartbeat` — the message, and `runAction_sendHeartbeat` that it is what is sent.
* `heartbeat_accepted_iff` — a follower with the same log takes it only if the term at the log head is zero;
  it takes the message of `sendAppend` whatever that term is.
-/

import Sententia.Node
import Sententia.Replication.SharedCommit

namespace Sententia

namespace Node

/-- The heartbeat of a node. -/
def heartbeat (node : Node) (term : Nat) : AppendEntries where
  term := term
  leaderId := node.election.self
  prevSeq := node.replicator.log.lastSeq
  commitSeq := node.replicator.commitSeq

theorem runAction_sendHeartbeat (node : Node) (net : Transport) (target : NodeId) (term : Nat) :
    node.runAction net (.sendHeartbeat target term) =
      (node, (net.send target (.appendEntries (node.heartbeat term))).1) := rfl

/-- An empty message passes the checks on its term and its predecessor, or is refused. -/
theorem accepts_empty_iff {follower : Replicator} {source : NodeId} {msg : AppendEntries}
    (empty : msg.entries = []) :
    follower.Accepts source msg ↔
      follower.term ≤ msg.term ∧ follower.log.termAt msg.prevSeq = some msg.prevTerm := by
  rw [Replicator.accepts_iff, empty]
  exact and_congr_right fun _ => and_iff_left rfl

/-- **A heartbeat passes log matching** exactly if the log head carries term zero; the empty message of
`sendAppend` passes if the log knows the term of its head at all. -/
theorem heartbeat_accepted_iff (leader : Node) (follower : Replicator) (target : NodeId)
    (sameLog : follower.log = leader.replicator.log)
    (sameTerm : follower.term = leader.replicator.term) :
    ((∀ msg, (target, .appendEntries msg) ∈ (leader.runAction { link := {} }
          (.sendHeartbeat target leader.replicator.term)).2.sent →
        follower.Accepts leader.election.self msg) ↔
      leader.replicator.log.termAt leader.replicator.log.lastSeq = some 0) ∧
      (follower.Accepts leader.replicator.self leader.replicator.headAppend ↔
        (leader.replicator.log.termAt leader.replicator.log.lastSeq).isSome) := by
  constructor
  · have accepted : follower.Accepts leader.election.self (leader.heartbeat leader.replicator.term) ↔ _ :=
      accepts_empty_iff rfl
    rw [sameLog, sameTerm] at accepted
    rw [runAction_sendHeartbeat]
    constructor
    · intro all
      exact (accepted.mp (all _ (List.mem_singleton.mpr rfl))).2
    · intro zero msg isSent
      cases List.mem_singleton.mp isSent
      exact accepted.mpr ⟨Nat.le_refl _, zero⟩
  · rw [accepts_empty_iff rfl, sameLog, sameTerm, Option.isSome_iff_exists]
    show _ ∧ leader.replicator.log.termAt leader.replicator.log.lastSeq =
      some ((leader.replicator.log.termAt leader.replicator.log.lastSeq).getD 0) ↔ _
    constructor
    · rintro ⟨_, known⟩
      exact ⟨_, known⟩
    · rintro ⟨term, known⟩
      rw [known]
      exact ⟨Nat.le_refl _, rfl⟩

/-- A log of one entry. -/
def oneEntry (term : Nat) : CommandLog := (({} : CommandLog).append (.cancelOrder { id := 1 }) term).1

/-- The leader of term 1, with one entry of that term. -/
def leaderOne : Node :=
  { create [1, 2] 1 .asynchronous 8 with
    replicator :=
      { self := 1
        role := .primary
        mode := .asynchronous
        engine := { instrument := kInstrument }
        term := 1
        log := oneEntry 1 } }

/-- A follower in term 1 with the same log. -/
def followerOne : Replicator where
  self := 2
  role := .backup
  mode := .asynchronous
  engine := { instrument := kInstrument }
  term := 1
  log := oneEntry 1

theorem heartbeat_accepted_iff_one :
    ((∀ msg, (2, .appendEntries msg) ∈ (leaderOne.runAction { link := {} }
          (.sendHeartbeat 2 leaderOne.replicator.term)).2.sent →
        followerOne.Accepts leaderOne.election.self msg) ↔
      leaderOne.replicator.log.termAt leaderOne.replicator.log.lastSeq = some 0) ∧
      (followerOne.Accepts leaderOne.replicator.self leaderOne.replicator.headAppend ↔
        (leaderOne.replicator.log.termAt leaderOne.replicator.log.lastSeq).isSome) :=
  heartbeat_accepted_iff leaderOne followerOne 2 rfl rfl

/-- The follower refuses the heartbeat and takes the commit notice for the same log. -/
theorem heartbeat_refused :
    followerOne.log = leaderOne.replicator.log ∧ followerOne.term = leaderOne.replicator.term ∧
      (2, .appendEntries (leaderOne.heartbeat 1)) ∈ (leaderOne.runAction { link := {} }
        (.sendHeartbeat 2 leaderOne.replicator.term)).2.sent ∧
      ¬ followerOne.Accepts leaderOne.election.self (leaderOne.heartbeat 1) ∧
      followerOne.Accepts leaderOne.replicator.self leaderOne.replicator.headAppend := by
  refine ⟨rfl, rfl, List.mem_singleton.mpr rfl, fun accepted => ?_, ?_⟩
  · have matching := ((accepts_empty_iff rfl).mp accepted).2
    revert matching
    decide
  · exact (accepts_empty_iff rfl).mpr ⟨Nat.le_refl _, rfl⟩

end Node

end Sententia
