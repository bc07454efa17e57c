/-
**Replicators and the history of the leaders' logs.** The bridge between a replicator's messages and
`LogHistory`: an `AppendEntries` is backed by the history when it is a slice of what the leader of its term
has written; a leader's messages are; and a follower that is handed one answers as `Answers` says and
moves the history as `Receives` says.
-/

import Sententia.Library.LeaderCompleteness
import Sententia.Replication.FollowerSpec

namespace Sententia

open Library

/-- The message carries a front of what the leader of its term has written. -/
def AppendEntries.Backed (history : LogHistory NodeId LogEntry) (msg : AppendEntries) : Prop :=
  history.led msg.term ∧ ∃ leader, Numbered leader ∧ leader <+: history.lead msg.term ∧
    msg.Carries leader ∧ msg.prevTerm = lastTerm LogEntry.term (leader.take msg.prevSeq)

namespace AppendEntries.Backed

variable {history history' : LogHistory NodeId LogEntry} {msg : AppendEntries}

theorem mono (backed : msg.Backed history) (grows : history.Grows history') : msg.Backed history' := by
  obtain ⟨led, leader, numbered, front, carries, prevTerm⟩ := backed
  exact ⟨grows.led led, leader, numbered, front.trans (grows.lead _), carries, prevTerm⟩

/-- A leader's messages are backed by what it has written. -/
theorem of_appendOf {rep : Replicator} (built : rep.AppendOf msg) (whole : rep.log.Whole)
    (led : history.led rep.term) (leading : rep.log.entries = history.lead rep.term) :
    msg.Backed history := by
  obtain ⟨leader, front, carries⟩ := built.carries whole.retains
  refine ⟨?_, leader, ?_, ?_, carries, ?_⟩
  · rw [built.term]
    exact led
  · rw [List.prefix_iff_eq_take.mp front]
    exact whole.retains.numbered.take _
  · rw [built.term, ← leading]
    exact front
  · rw [built.prevTerm whole, take_eq_of_front front carries.inside]

/-- **How a follower answers a backed message.** -/
theorem answers (backed : msg.Backed history) (sound : history.Sound LogEntry.term)
    {rep : Replicator} (whole : rep.log.Whole)
    (follows : Follows LogEntry.term history.lead rep.log.entries) (net : Transport)
    (source : NodeId) :
    ∃ leader answer, leader <+: history.lead msg.term ∧ msg.Carries leader ∧
      rep.Answers leader msg (rep.handleAppendEntries net source msg).1 answer ∧
      (rep.handleAppendEntries net source msg).2 =
        (net.send source (.appendResponse answer)).1 := by
  obtain ⟨_, leader, numbered, front, carries, prevTerm⟩ := backed
  obtain ⟨answer, answers, sends⟩ := Replicator.answers_of_follows numbered
    ((sound.leadFollows _).of_front front) whole follows carries prevTerm net source
  exact ⟨leader, answer, front, carries, answers, sends⟩

end AppendEntries.Backed

/-! ### A follower's step -/

/-- What handling a message makes of the history of a follower's log. -/
structure Receives (history : LogHistory NodeId LogEntry) (id : NodeId) (rep : Replicator)
    (msg : AppendEntries) (rep' : Replicator) (answer : AppendResponse)
    (history' : LogHistory NodeId LogEntry) : Prop where
  sound : history'.Sound LogEntry.term
  grown : history' = history ∨ ∃ log count, history' = history.receive id log count
  whole : rep'.log.Whole
  log : history'.log id = rep'.log.entries
  /-- An acknowledgement is true if the log has no tail. -/
  acks : rep.NoTail msg → answer.ok = true → answer.lastLogSeq ≤ history'.acked id answer.term
  took : ∀ {any term}, history'.took any term → history.took any term ∨
    (any = id ∧ term = msg.term ∧ msg.entries ≠ [] ∧ rep.term ≤ msg.term ∧
      rep.log.termAt msg.prevSeq = some msg.prevTerm ∧ (rep.appendRecords msg.entries).2 = true)

namespace Receives

variable {history history' : LogHistory NodeId LogEntry} {id : NodeId} {rep rep' : Replicator}
  {msg : AppendEntries} {answer : AppendResponse}

theorem grows (receives : Receives history id rep msg rep' answer history') :
    history.Grows history' := by
  rcases receives.grown with rfl | ⟨log, count, rfl⟩
  · exact .refl _
  · exact .receive history id log count

/-- Only the follower's log, its acknowledgements and what it took over change. -/
theorem frame (receives : Receives history id rep msg rep' answer history') :
    ∃ log acked took, history' = { history with log, acked, took } ∧
      ∀ other, other ≠ id → log other = history.log other := by
  rcases receives.grown with rfl | ⟨log, count, rfl⟩
  · exact ⟨_, _, _, rfl, fun _ _ => rfl⟩
  · exact ⟨_, _, _, history.receive_frame id log count,
      fun other different => Function.update_of_ne different _ _⟩

theorem elected (receives : Receives history id rep msg rep' answer history')
    (sound : history.Sound LogEntry.term) {quorum : List NodeId → Prop}
    (elected : history.Elected LogEntry.term quorum) : history'.Elected LogEntry.term quorum := by
  rcases receives.grown with rfl | ⟨log, count, rfl⟩
  · exact elected
  · exact elected.receive sound log count

/-- A follower that keeps its log and accepts nothing. -/
theorem idle (sound : history.Sound LogEntry.term) (whole : rep'.log.Whole)
    (log : history.log id = rep'.log.entries) (rejected : answer.ok = false) :
    Receives history id rep msg rep' answer history where
  sound := sound
  grown := Or.inl rfl
  whole := whole
  log := log
  acks _ ok := by
    rw [rejected] at ok
    cases ok
  took took := Or.inl took

/-- A follower that ends up with a log of which `count` entries are the leader's. -/
theorem accepted (sound : history.Sound LogEntry.term) (led : history.led (history.term id))
    {count : Nat} (inside : count ≤ (history.lead (history.term id)).length)
    (kept : rep'.log.entries = history.log id →
      (history.lead (history.term id)).take count <+: history.log id)
    (taken : rep'.log.entries ≠ history.log id →
      rep'.log.entries <+: history.lead (history.term id) ∧
        LogHistory.Yields (history.log id) rep'.log.entries)
    (whole : rep'.log.Whole) (answerTerm : answer.term = history.term id)
    (head : answer.lastLogSeq = rep'.log.entries.length)
    (covers : rep.NoTail msg → count = rep'.log.entries.length)
    (took : rep'.log.entries ≠ history.log id →
      history.term id = msg.term ∧ msg.entries ≠ [] ∧ rep.term ≤ msg.term ∧
        rep.log.termAt msg.prevSeq = some msg.prevTerm ∧ (rep.appendRecords msg.entries).2 = true) :
    Receives history id rep msg rep' answer (history.receive id rep'.log.entries count) where
  sound := sound.receive led inside kept taken
  grown := Or.inr ⟨_, _, rfl⟩
  whole := whole
  log := by
    rw [LogHistory.receive_frame]
    exact Function.update_self _ _ _
  acks noTail _ := by
    rw [head, answerTerm, covers noTail]
    exact LogHistory.le_acked_receive (Nat.le_refl _)
  took {any term} tookIt := by
    rcases LogHistory.took_receive tookIt with old | ⟨isNode, ofTerm, changed⟩
    · exact Or.inl old
    · obtain ⟨sameTerm, rest⟩ := took changed
      exact Or.inr ⟨isNode, ofTerm.trans sameTerm, rest⟩

end Receives

/-- **A follower in the term of a backed message** moves the history with it. -/
theorem AppendEntries.Backed.receives {history : LogHistory NodeId LogEntry} {msg : AppendEntries}
    (backed : msg.Backed history) (sound : history.Sound LogEntry.term) {id : NodeId}
    {rep : Replicator} (whole : rep.log.Whole) (log : history.log id = rep.log.entries)
    (term : history.term id = rep.term) (settled : msg.term ≤ rep.term) (net : Transport)
    (source : NodeId) :
    ∃ leader answer history', leader <+: history.lead msg.term ∧ msg.Carries leader ∧
      rep.Answers leader msg (rep.handleAppendEntries net source msg).1 answer ∧
      (rep.handleAppendEntries net source msg).2 = (net.send source (.appendResponse answer)).1 ∧
      Receives history id rep msg (rep.handleAppendEntries net source msg).1 answer history' := by
  have follows : Follows LogEntry.term history.lead rep.log.entries := log ▸ sound.follows id
  obtain ⟨leader, answer, front, carries, answers, sends⟩ :=
    backed.answers sound whole follows net source
  rw [sends]
  generalize (rep.handleAppendEntries net source msg).1 = rep' at answers
  suffices receives : ∃ history', Receives history id rep msg rep' answer history' by
    obtain ⟨history', receives⟩ := receives
    exact ⟨leader, answer, history', front, carries, answers, rfl, receives⟩
  cases answers with
  | rejected same => exact ⟨history, .idle sound whole log rfl⟩
  | refused committed differ => exact ⟨history, .idle sound whole log rfl⟩
  | @accepted absorbed current known appended absorbs =>
    have sameTerm : history.term id = msg.term := by omega
    have led : history.led (history.term id) := sameTerm ▸ backed.1
    rw [← sameTerm] at front
    have whole' : absorbed.log.Whole := by
      rcases absorbs.log_cases with ⟨rfl, _⟩ | ⟨whole', _⟩
      · exact whole
      · exact whole'
    have took : absorbed.log.entries ≠ history.log id →
        history.term id = msg.term ∧ msg.entries ≠ [] ∧ rep.term ≤ msg.term ∧
          rep.log.termAt msg.prevSeq = some msg.prevTerm ∧
            (rep.appendRecords msg.entries).2 = true := by
      intro changed
      refine ⟨sameTerm, fun empty => changed ?_, current, known, by rw [appended]⟩
      rw [empty] at appended
      rw [log, ← (Prod.mk.inj appended).1]
    have counted : ∃ count ≤ (history.lead (history.term id)).length,
        (absorbed.log.entries = history.log id →
          (history.lead (history.term id)).take count <+: history.log id) ∧
        (absorbed.log.entries ≠ history.log id →
          absorbed.log.entries <+: history.lead (history.term id) ∧
            LogHistory.Yields (history.log id) absorbed.log.entries) ∧
        (rep.NoTail msg → count = absorbed.log.entries.length) := by
      rcases absorbs.log_cases with ⟨rfl, held⟩ | ⟨_, all, yields⟩
      · -- The log stays; what it shares with the leader's is accepted, all of it if it has no tail.
        by_cases noTail : absorbed.NoTail msg
        · have shared := noTail.front whole follows current known carries (sameTerm ▸ front) held
          rw [← sameTerm] at shared
          refine ⟨_, shared.length_le, fun _ => ?_, fun changed => absurd log.symm changed, fun _ => rfl⟩
          rw [← List.prefix_iff_eq_take.mp shared, log]
        · refine ⟨_, front.length_le, fun _ => ?_, fun changed => absurd log.symm changed,
            fun without => absurd without noTail⟩
          rw [← List.prefix_iff_eq_take.mp front, log]
          exact held
      · rw [all, log]
        refine ⟨_, front.length_le, fun same => ?_, fun _ => ⟨front, yields⟩, fun _ => rfl⟩
        rw [← List.prefix_iff_eq_take.mp front, same]
    obtain ⟨count, inside, kept, taken, covers⟩ := counted
    obtain ⟨sameTerm', sameLog⟩ : (absorbed.adoptCommit msg.commitSeq).applyCommitted.term = rep.term ∧
        (absorbed.adoptCommit msg.commitSeq).applyCommitted.log = absorbed.log := by
      obtain ⟨_, _, _, _, _, settle⟩ := absorbed.settle_frame msg.commitSeq
      rw [settle]
      exact ⟨by cases absorbs <;> rfl, rfl⟩
    generalize (absorbed.adoptCommit msg.commitSeq).applyCommitted = rep' at sameTerm' sameLog
    rw [← sameLog] at whole' took kept taken covers
    exact ⟨_, .accepted sound led inside kept taken whole' (sameTerm'.trans term.symm) whole'.lastSeq
      covers took⟩

end Sententia
