/-
**The committed front of a replicator.** `Commits decided rep`: what is below the commit point is decided, and
so is whatever has been handed to the engine. Each method keeps this if the front that it newly commits is
decided; nothing is asked of methods that leave the commit point alone.

* `Commits.advanceCommitIndex` — the candidate's front is decided.
* `Commits.handleAppendEntries` — an accepted message's commit point falls in a decided front of the log that
  the follower ends up with.
-/

import Sententia.Replication.QuorumPoint
import Sententia.Replication.ReplicaHistory

namespace Sententia

open Library

/-- A log that was never compacted continues its own entries. -/
theorem CommandLog.Whole.continues {log : CommandLog} (whole : log.Whole) :
    log.Continues log.entries := by
  have retains := whole.retains
  have fresh : { log with snapshotSeq := 0 } = log := by
    have none := retains.noSnapshot
    cases log
    cases none
    rfl
  exact ⟨fresh.symm ▸ retains, (Nat.le_of_eq retains.noSnapshot).trans (Nat.zero_le _)⟩

namespace Replicator

/-- The front below the commit point is decided, and every entry that the engine has been handed is at its
place in some decided front. -/
structure Commits (decided : List LogEntry → Prop) (rep : Replicator) : Prop where
  inside : rep.commitIndex ≤ rep.log.entries.length
  committed : decided (rep.log.entries.take rep.commitIndex)
  applied : ∀ entry ∈ rep.applied, ∃ front, decided front ∧ 0 < entry.seq ∧
    front[entry.seq - 1]? = some entry

namespace Commits

variable {decided decided' : List LogEntry → Prop} {rep rep' : Replicator}

theorem mono (commits : rep.Commits decided) (more : ∀ {front}, decided front → decided' front) :
    rep.Commits decided' where
  inside := commits.inside
  committed := more commits.committed
  applied entry member := (commits.applied entry member).imp fun _ held => ⟨more held.1, held.2⟩

/-- The log may change behind the commit point. -/
theorem of_same (commits : rep.Commits decided) (committed : rep'.commitIndex = rep.commitIndex)
    (applied : rep'.applied = rep.applied) (inside : rep.commitIndex ≤ rep'.log.entries.length)
    (front : rep'.log.entries.take rep.commitIndex = rep.log.entries.take rep.commitIndex) :
    rep'.Commits decided where
  inside := committed ▸ inside
  committed := by
    rw [committed, front]
    exact commits.committed
  applied := applied ▸ commits.applied

/-- **Applying** feeds the engine from the committed front. -/
theorem applyCommitted (commits : rep.Commits decided) (whole : rep.log.Whole) :
    rep.applyCommitted.Commits decided := by
  obtain ⟨fed, feeds⟩ := applyCommitted_feeds whole.continues commits.inside
  obtain ⟨_, _, _, _, _, frame⟩ := applyLoop_frame (rep.commitIndex - rep.lastApplied) rep
  have log : rep.applyCommitted.log = rep.log := congrArg (·.log) frame
  have point : rep.applyCommitted.commitIndex = rep.commitIndex := congrArg (·.commitIndex) frame
  refine ⟨?_, ?_, fun entry member => ?_⟩
  · rw [log, point]
    exact commits.inside
  · rw [log, point]
    exact commits.committed
  · rw [feeds.applied] at member
    rcases List.mem_append.mp member with before | new
    · exact commits.applied entry before
    · obtain ⟨k, inside, rfl⟩ := List.mem_iff_getElem.mp new
      have found := feeds.entries k inside
      have seq := feeds.numbered k _ (List.getElem?_eq_getElem inside)
      have bound := feeds.inside (List.ne_nil_of_mem new)
      rw [point] at bound
      rw [whole.at?_eq (by omega), List.getElem?_eq_getElem inside, ← seq] at found
      refine ⟨_, commits.committed, by omega, ?_⟩
      rw [List.getElem?_take_of_lt (by omega)]
      exact found

/-- A new commit point, and what is then applied. -/
theorem commit (commits : rep.Commits decided) (whole : rep.log.Whole) {seq : Nat}
    (inside : seq ≤ rep.log.entries.length) (committed : decided (rep.log.entries.take seq)) :
    (rep.commit seq).applyCommitted.Commits decided := by
  have moved : (rep.commit seq).Commits decided := ⟨inside, committed, commits.applied⟩
  exact moved.applyCommitted whole

/-- **`advanceCommitIndex`**, if the front of the candidate is decided. -/
theorem advanceCommitIndex (commits : rep.Commits decided) (whole : rep.log.Whole)
    (enough : rep.role = .primary → rep.commitIndex < rep.commitCandidate →
      rep.log.termAt rep.commitCandidate = some rep.term →
        decided (rep.log.entries.take rep.commitCandidate)) :
    rep.advanceCommitIndex.Commits decided := by
  rcases rep.advanceCommitIndex_cases with same | ⟨leading, more, ownTerm, advances⟩
  · rw [same]
    exact commits
  · rw [advances]
    exact commits.commit whole (whole.retains.le_of_termAt ownTerm) (enough leading more ownTerm)

/-- A command joins the log of a node whose cluster is not of one. -/
theorem accept (commits : rep.Commits decided) (whole : rep.log.Whole) (notAlone : rep.clusterSize ≠ 1)
    (cmd : Command) : (rep.accept cmd).Commits decided := by
  have joins : rep.accept cmd = rep.join cmd := if_neg notAlone
  have entries : (rep.join cmd).log.entries = rep.log.entries ++ _ := whole.entries_append cmd rep.term
  rw [joins]
  refine commits.of_same rfl rfl ?_ ?_
  · rw [entries, List.length_append]
    exact Nat.le_add_right_of_le commits.inside
  · rw [entries, List.take_append_of_le_length commits.inside]

/-- **The entry loop** leaves what is committed alone. -/
theorem absorbs (commits : rep.Commits decided) {leader : List LogEntry} {absorbed : Replicator}
    (absorbs : rep.Absorbs leader absorbed) : absorbed.Commits decided := by
  cases absorbs with
  | kept held => exact commits
  | extended short whole all same =>
    rw [← all] at short
    exact commits.of_same rfl rfl (commits.inside.trans short.length_le)
      (take_eq_of_front short commits.inside)
  | replaced inside agree differ above held whole all same =>
    rw [← all] at inside agree
    refine commits.of_same rfl rfl (above.trans (Nat.le_of_lt inside)) ?_
    have agree' := congrArg (List.take rep.commitIndex) agree
    rw [List.take_take, List.take_take, Nat.min_eq_left above] at agree'
    exact agree'.symm

/-- **A follower adopts a commit point** and applies, if the front that this commits is decided. -/
theorem settle (commits : rep.Commits decided) (whole : rep.log.Whole) {commitSeq : Nat}
    (adopted : decided (rep.log.entries.take commitSeq)) :
    (rep.adoptCommit commitSeq).applyCommitted.Commits decided := by
  unfold adoptCommit
  split_ifs
  · refine commits.commit whole (whole.lastSeq ▸ Nat.min_le_right _ _) ?_
    rw [whole.lastSeq, ← List.take_take, List.take_length]
    exact adopted
  · exact commits.applyCommitted whole

/-- **A follower's answer**, whatever it is, if an accepted message's commit point is in a decided front. -/
theorem answers (commits : rep.Commits decided) (whole : rep.log.Whole) {leader : List LogEntry}
    {msg : AppendEntries} {answer : AppendResponse} (answers : rep.Answers leader msg rep' answer)
    (adopted : answer.ok = true → decided (rep'.log.entries.take msg.commitSeq)) : rep'.Commits decided := by
  cases answers with
  | rejected same => exact { commits with }
  | refused committed differ => exact commits
  | @accepted absorbed current known appended absorbs =>
    have whole' : absorbed.log.Whole := by
      rcases absorbs.log_cases with ⟨rfl, _⟩ | ⟨whole', _⟩
      · exact whole
      · exact whole'
    refine (commits.absorbs absorbs).settle whole' ?_
    have log : (absorbed.adoptCommit msg.commitSeq).applyCommitted.log = absorbed.log := by
      obtain ⟨_, _, _, _, _, settled⟩ := absorbed.settle_frame msg.commitSeq
      rw [settled]
    rw [← log]
    exact adopted rfl

end Commits

end Replicator

namespace Replicator

/-- A message whose predecessor the log does not have is rejected. -/
theorem handleAppendEntries_unknown {rep : Replicator} {msg : AppendEntries}
    (unknown : rep.log.termAt msg.prevSeq ≠ some msg.prevTerm) (net : Transport) (source : NodeId)
    (leader : List LogEntry) :
    rep.Answers leader msg (rep.handleAppendEntries net source msg).1 (rep.response false) ∧
      (rep.handleAppendEntries net source msg).1.log = rep.log ∧
      (rep.handleAppendEntries net source msg).2 =
        (net.send source (.appendResponse (rep.response false))).1 := by
  unfold handleAppendEntries
  split_ifs with stale
  · exact ⟨.rejected rfl, rfl, rfl⟩
  · cases known : rep.log.termAt msg.prevSeq with
    | none => exact ⟨.rejected rfl, rfl, rfl⟩
    | some prevTerm =>
      have mismatch : prevTerm ≠ msg.prevTerm := fun same => unknown (known.trans (congrArg some same))
      simp only [if_pos mismatch]
      exact ⟨.rejected rfl, trivial, trivial⟩

end Replicator

/-! ### What a message warrants -/

/-- The entries have been written in terms after the first, which has no leader. -/
def Signed (log : List LogEntry) : Prop := ∀ entry ∈ log, 0 < entry.term

/-- A slice of what the leader of its term has written, or a bare heartbeat; and the commit point is that of a
decided front. -/
structure AppendEntries.Warranted (history : LogHistory NodeId LogEntry) (quorum : List NodeId → Prop)
    (msg : AppendEntries) : Prop where
  led : history.led msg.term
  slice : msg.Backed history ∨ (msg.entries = [] ∧ msg.prevTerm = 0)
  signed : ∀ record ∈ msg.entries, 0 < record.term
  within : msg.commitSeq ≤ (history.lead msg.term).length
  decided : LogHistory.Decided LogEntry.term quorum history msg.term
    ((history.lead msg.term).take msg.commitSeq)

/-- The sender has accepted all entries of the term among those it claims. -/
def AppendResponse.Warranted (history : LogHistory NodeId LogEntry) (source : NodeId)
    (msg : AppendResponse) : Prop :=
  msg.ok = true → LogHistory.Covers LogEntry.term history msg.term source msg.lastLogSeq

theorem AppendResponse.Warranted.mono {history history' : LogHistory NodeId LogEntry} {source : NodeId}
    {msg : AppendResponse} (warranted : msg.Warranted history source) (grows : history.Grows history') :
    msg.Warranted history' source :=
  fun ok => (warranted ok).mono grows

namespace AppendEntries.Warranted

variable {history history' : LogHistory NodeId LogEntry} {quorum : List NodeId → Prop}
  {msg : AppendEntries}

theorem mono (warranted : msg.Warranted history quorum) (grows : history.Grows history') :
    msg.Warranted history' quorum where
  led := grows.led warranted.led
  slice := warranted.slice.imp_left fun backed => backed.mono grows
  signed := warranted.signed
  within := warranted.within.trans (grows.lead _).length_le
  decided := by
    rw [take_eq_of_front (grows.lead msg.term) warranted.within]
    exact warranted.decided.mono grows (Nat.le_refl _)

/-- A heartbeat that passes the test of the predecessor carries nothing from the start on. -/
theorem backed_of_known (warranted : msg.Warranted history quorum) {log : CommandLog} (whole : log.Whole)
    (signed : Signed log.entries) (known : log.termAt msg.prevSeq = some msg.prevTerm) :
    msg.Backed history := by
  rcases warranted.slice with backed | ⟨empty, bare⟩
  · exact backed
  have start : msg.prevSeq = 0 := by
    by_contra later
    obtain ⟨i, isSucc⟩ := Nat.exists_eq_succ_of_ne_zero later
    have inside := whole.retains.le_of_termAt known
    rw [isSucc] at known inside
    rw [whole.termAt_eq inside, bare, Option.some_inj] at known
    exact Nat.lt_irrefl 0 (known ▸ signed _ (List.getElem_mem inside))
  refine ⟨warranted.led, [], fun _ inside => absurd inside (Nat.not_lt_zero _), List.nil_prefix,
    ⟨Nat.le_of_eq start, ?_⟩, ?_⟩
  · rw [List.drop_nil]
    exact empty
  · rw [List.take_nil]
    exact bare

/-- What a follower of the message's term makes of it, if its log has no tail: an acceptance leaves it with a
front of the leader's log. -/
theorem answers (warranted : msg.Warranted history quorum) (sound : history.Sound LogEntry.term)
    {rep : Replicator} (whole : rep.log.Whole) (signed : Signed rep.log.entries)
    (follows : Follows LogEntry.term history.lead rep.log.entries) (noTail : rep.NoTail msg)
    (net : Transport) (source : NodeId) :
    ∃ leader answer, rep.Answers leader msg (rep.handleAppendEntries net source msg).1 answer ∧
      (rep.handleAppendEntries net source msg).2 = (net.send source (.appendResponse answer)).1 ∧
      Signed (rep.handleAppendEntries net source msg).1.log.entries ∧
      (answer.ok = true → answer.term = rep.term ∧ rep.term ≤ msg.term ∧
        answer.lastLogSeq = (rep.handleAppendEntries net source msg).1.log.entries.length ∧
          (rep.handleAppendEntries net source msg).1.log.entries <+: history.lead msg.term) := by
  by_cases known : rep.log.termAt msg.prevSeq = some msg.prevTerm
  · obtain ⟨_, leader, numbered, front, carries, prevTerm⟩ := warranted.backed_of_known whole signed known
    have leaderFollows := (sound.leadFollows msg.term).of_front front
    obtain ⟨answer, answers, sends⟩ := Replicator.answers_of_follows numbered leaderFollows whole follows
      carries prevTerm net source
    refine ⟨leader, answer, answers, sends, ?_⟩
    generalize (rep.handleAppendEntries net source msg).1 = rep' at answers
    cases answers with
    | rejected same => exact ⟨signed, nofun⟩
    | refused committed differ => exact ⟨signed, nofun⟩
    | @accepted absorbed current _ appended absorbs =>
      obtain ⟨sameTerm, sameLog⟩ : (absorbed.adoptCommit msg.commitSeq).applyCommitted.term = rep.term ∧
          (absorbed.adoptCommit msg.commitSeq).applyCommitted.log = absorbed.log := by
        obtain ⟨_, _, _, _, _, settle⟩ := absorbed.settle_frame msg.commitSeq
        rw [settle]
        exact ⟨by cases absorbs <;> rfl, rfl⟩
      show Signed (absorbed.adoptCommit msg.commitSeq).applyCommitted.log.entries ∧
        (_ → (absorbed.adoptCommit msg.commitSeq).applyCommitted.term = _ ∧ _ ∧
          (absorbed.adoptCommit msg.commitSeq).applyCommitted.log.lastSeq = _ ∧ _)
      rw [sameTerm, sameLog]
      rcases absorbs.log_cases with ⟨rfl, held⟩ | ⟨whole', all, _⟩
      · exact ⟨signed, fun _ => ⟨rfl, current, whole.lastSeq,
          noTail.front whole follows current known carries front held⟩⟩
      · refine ⟨fun entry member => ?_, fun _ => ⟨rfl, current, whole'.lastSeq, all ▸ front⟩⟩
        rw [all, ← List.take_append_drop msg.prevSeq leader] at member
        rcases List.mem_append.mp member with before | carried
        · have held := whole.retains.le_of_termAt known
          rw [whole.termAt_eq_lastTerm held, Option.some_inj] at known
          rw [← follows.take_eq leaderFollows held carries.inside (known.trans prevTerm)] at before
          exact signed entry (List.mem_of_mem_take before)
        · refine warranted.signed entry.record ?_
          rw [carries.entries]
          exact List.mem_map_of_mem carried
  · obtain ⟨answers, log, sends⟩ := Replicator.handleAppendEntries_unknown known net source []
    exact ⟨[], _, answers, sends, log ▸ signed, nofun⟩

/-- **A leader's messages are warranted** by its log and its commit point. -/
theorem of_speaker {rep : Replicator} (whole : rep.log.Whole) (signed : Signed rep.log.entries)
    (led : history.led msg.term) (written : rep.log.entries = history.lead msg.term)
    (commits : rep.Commits (LogHistory.Decided LogEntry.term quorum history msg.term))
    (commitSeq : msg.commitSeq = rep.commitIndex)
    (built : (msg.entries = [] ∧ msg.prevTerm = 0) ∨
      ∃ speaker : Replicator, speaker.log = rep.log ∧ speaker.term = msg.term ∧ speaker.AppendOf msg) :
    msg.Warranted history quorum where
  led := led
  slice := built.symm.imp_left fun ⟨speaker, log, term, built⟩ =>
    .of_appendOf built (log ▸ whole) (term ▸ led) (by rw [log, term]; exact written)
  signed record member := by
    rcases built with ⟨empty, _⟩ | ⟨speaker, log, _, built⟩
    · rw [empty] at member
      cases member
    · obtain ⟨leader, front, carries⟩ := built.carries (show speaker.log.Retains rep.log.entries by rw [log]; exact whole.retains)
      rw [carries.entries] at member
      obtain ⟨entry, carried, rfl⟩ := List.mem_map.mp member
      exact signed entry (front.subset (List.mem_of_mem_drop carried))
  within := by
    rw [commitSeq, ← written]
    exact commits.inside
  decided := by
    rw [commitSeq, ← written]
    exact commits.committed

end AppendEntries.Warranted

end Sententia
