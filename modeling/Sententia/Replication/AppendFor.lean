/-
**What `sendAppend` sends**, and what it writes down once the transport has taken it.

* `appendFor` — the message for a backup, if there is one.
* `BackupState.told` — the backup after a message that was taken.
* `sendAppend_eq` — `sendAppend` is one send of that message.
-/

import Sententia.Replication.Replicator

namespace Sententia

open Library

theorem BackupState.nextSeq_of_ne {backup : BackupState}
    (below : max backup.matchSeq backup.lastSent ≠ 2 ^ 64 - 1) :
    backup.nextSeq = max backup.matchSeq backup.lastSent + 1 :=
  if_neg below

/-- Unless the sum wraps around, what is sent next lies behind what was sent. -/
theorem BackupState.lt_nextSeq {backup : BackupState} (positive : 0 < backup.nextSeq) :
    max backup.matchSeq backup.lastSent < backup.nextSeq := by
  have below : max backup.matchSeq backup.lastSent ≠ 2 ^ 64 - 1 := fun wraps =>
    absurd (if_pos wraps) (Nat.ne_of_gt positive)
  rw [nextSeq_of_ne below]
  exact Nat.lt_succ_self _

/-- A message was sent to the backup. -/
def BackupState.told (backup : BackupState) (msg : AppendEntries) : BackupState :=
  { backup with
    lastSent := (msg.entries.getLast?.map (·.seq)).getD backup.lastSent
    lastCommitSent := msg.commitSeq }

namespace Replicator

/-- The message that `sendAppend` builds for a backup: a bare commit point for one that has been sent
everything, else the entries that follow, if the log still has them. -/
def appendFor (rep : Replicator) (backup : BackupState) : Option AppendEntries :=
  if backup.nextSeq > rep.log.lastSeq then
    if rep.commitIndex > backup.lastCommitSent then some rep.headAppend else none
  else if rep.log.canServeFrom backup.nextSeq = true ∧
      (rep.batchAppend backup.nextSeq).entries ≠ [] then
    some (rep.batchAppend backup.nextSeq)
  else none

/-- **`sendAppend`** sends its message and takes note of it if the transport accepts. -/
theorem sendAppend_eq (rep : Replicator) (net : Transport) (backup : BackupState) :
    (rep.appendFor backup = none ∧ rep.sendAppend net backup = (rep, net, backup)) ∨
      ∃ msg stats, stats.checksumMismatches = rep.stats.checksumMismatches ∧
        rep.appendFor backup = some msg ∧ rep.sendAppend net backup = ({ rep with stats },
          (net.send backup.id (.appendEntries msg)).1,
          if (net.send backup.id (.appendEntries msg)).2 = .ok then backup.told msg else backup) := by
  unfold sendAppend appendFor
  dsimp only
  by_cases all : backup.nextSeq > rep.log.lastSeq
  · rw [if_pos all, if_pos all]
    by_cases news : rep.commitIndex > backup.lastCommitSent
    · rw [if_pos news, if_pos news]
      exact Or.inr ⟨rep.headAppend, rep.stats, rfl, rfl, rfl⟩
    · rw [if_neg news, if_neg news]
      exact Or.inl ⟨rfl, rfl⟩
  · rw [if_neg all, if_neg all]
    by_cases served : rep.log.canServeFrom backup.nextSeq = true
    · rw [if_neg (not_not.mpr served)]
      by_cases empty : (rep.batchAppend backup.nextSeq).entries = []
      · rw [if_pos (List.isEmpty_iff.mpr empty), if_neg fun has => has.2 empty]
        exact Or.inl ⟨rfl, rfl⟩
      · have notEmpty : ¬ (rep.batchAppend backup.nextSeq).entries.isEmpty = true := fun isEmpty =>
          empty (List.isEmpty_iff.mp isEmpty)
        have isLast := List.getLast?_eq_some_getLast empty
        rw [if_neg notEmpty, if_pos ⟨served, empty⟩]
        refine Or.inr ⟨rep.batchAppend backup.nextSeq, ?_⟩
        unfold BackupState.told
        rw [isLast]
        by_cases taken : (net.send backup.id
            (.appendEntries (rep.batchAppend backup.nextSeq))).2 = .ok
        · rw [if_neg (not_not.mpr taken), if_pos taken]
          split_ifs <;> exact ⟨_, by rfl, rfl, rfl⟩
        · rw [if_pos taken, if_neg taken]
          split_ifs <;> exact ⟨_, by rfl, rfl, rfl⟩
    · rw [if_pos served, if_neg fun has => served has.1]
      exact Or.inl ⟨rfl, rfl⟩

/-- What a first send of `sendAppend` puts on the wire is the message for the backup. -/
theorem mem_sent_sendAppend {rep : Replicator} {link : Link} {backup : BackupState}
    {msg : AppendEntries}
    (isSent : (backup.id, .appendEntries msg) ∈ (rep.sendAppend { link } backup).2.1.sent) :
    rep.appendFor backup = some msg := by
  rcases rep.sendAppend_eq { link } backup with ⟨_, same⟩ | ⟨built, _, _, isFor, sends⟩
  · rw [same] at isSent
    cases isSent
  · rw [sends] at isSent
    rcases Transport.sent_send { link } backup.id (.appendEntries built) with ⟨_, grown⟩ | ⟨_, same⟩
    · replace isSent := grown ▸ isSent
      cases List.mem_singleton.mp isSent
      exact isFor
    · replace isSent := same ▸ isSent
      cases isSent

/-- The message for a backup carries the log from the entry before its next one on. -/
theorem appendFor_prev {rep : Replicator} {backup : BackupState} {msg : AppendEntries}
    (isFor : rep.appendFor backup = some msg) (positive : 0 < backup.nextSeq)
    (inside : backup.nextSeq ≤ rep.log.lastSeq + 1) :
    msg.prevSeq + 1 = backup.nextSeq ∧ msg.prevTerm = (rep.log.termAt msg.prevSeq).getD 0 ∧
      msg.term = rep.term ∧ msg.commitSeq = rep.commitIndex := by
  unfold appendFor at isFor
  split_ifs at isFor with all news served
  · obtain rfl := Option.some.inj isFor
    refine ⟨?_, rfl, rfl, rfl⟩
    show rep.log.lastSeq + 1 = _
    omega
  · obtain rfl := Option.some.inj isFor
    exact ⟨Nat.sub_add_cancel positive, rfl, rfl, rfl⟩

end Replicator

end Sententia
