/-
**What a replicator stands for.** Behind its log, its bookkeeping and its counters a replicator is a
`Replica`: the numbered history of what was appended and not cut off, how much of its front has been
dropped, how far it has been applied and committed, and the engine. Every call moves a replica in small
steps, whatever the caller does and whatever the messages say:

* `Works` — an entry joins, the commit point rises, a committed entry is applied;
* `Edits` — the entry loop of `handleAppendEntries`: an entry joins, or a conflict cuts the history and
  the engine is rebuilt from what the log still has.

Only `compactLog` drops a front. An invariant of a replicator is then a fact about these few steps.
-/

import Mathlib.Logic.Relation
import Sententia.Replication.FollowerSpec

namespace Sententia

open Library Relation

namespace Replicator

/-- **`handleAppendEntries`** rejects the message for its term or its predecessor, or the entry loop
refuses it, or its entries are absorbed and its commit point adopted. -/
theorem handleAppendEntries_cases (rep : Replicator) (net : Transport) (source : NodeId)
    (msg : AppendEntries) :
    (∃ stats, (rep.handleAppendEntries net source msg).1 = { rep with stats }) ∨
      (rep.term ≤ msg.term ∧ rep.log.termAt msg.prevSeq = some msg.prevTerm ∧ ∃ absorbed,
        (rep.appendRecords msg.entries = (absorbed, false) ∧
            (rep.handleAppendEntries net source msg).1 = absorbed) ∨
          (rep.appendRecords msg.entries = (absorbed, true) ∧
            (rep.handleAppendEntries net source msg).1 =
              (absorbed.adoptCommit msg.commitSeq).applyCommitted)) := by
  unfold handleAppendEntries
  by_cases stale : msg.term < rep.term
  · rw [if_pos stale]
    exact Or.inl ⟨_, rfl⟩
  · rw [if_neg stale]
    cases known : rep.log.termAt msg.prevSeq with
    | none => exact Or.inl ⟨_, rfl⟩
    | some prevTerm =>
      by_cases mismatch : prevTerm ≠ msg.prevTerm
      · simp only [if_pos mismatch]
        exact Or.inl ⟨_, rfl⟩
      · simp only [if_neg mismatch]
        rw [not_not] at mismatch
        refine Or.inr ⟨Nat.le_of_not_lt stale, by rw [mismatch], ?_⟩
        generalize rep.appendRecords msg.entries = result
        obtain ⟨absorbed, accepted⟩ := result
        cases accepted with
        | false => exact ⟨absorbed, Or.inl ⟨rfl, rfl⟩⟩
        | true => exact ⟨absorbed, Or.inr ⟨rfl, rfl⟩⟩

end Replicator

structure Replica where
  history : List LogEntry
  /-- The log has dropped this many entries from the front. -/
  dropped : Nat
  applied : Nat
  committed : Nat
  engine : MatchingEngine

namespace Replica

/-- The history is cut before `seq` and the engine is rebuilt. From a log that has dropped its front
nothing can be replayed, and the commit point falls back to the start with the engine. -/
def cutAt (replica : Replica) (seq : Nat) : Replica :=
  let history := replica.history.take (seq - 1)
  if replica.dropped = 0 then
    { replica with
      history
      applied := seq - 1
      engine := MatchingEngine.replay replica.engine.instrument (history.map (·.command)) }
  else
    { replica with
      history
      applied := 0
      committed := 0
      engine := { instrument := replica.engine.instrument } }

inductive Works : Replica → Replica → Prop
  | grow {replica : Replica} (entry : LogEntry) :
      Works replica { replica with history := replica.history ++ [entry] }
  | commit {replica : Replica} (seq : Nat) (forward : replica.committed ≤ seq)
      (inside : seq ≤ replica.history.length) : Works replica { replica with committed := seq }
  | apply {replica : Replica} (entry : LogEntry) (behind : replica.applied < replica.committed)
      (kept : replica.dropped ≤ replica.applied)
      (next : replica.history[replica.applied]? = some entry) :
      Works replica
        { replica with
          applied := replica.applied + 1
          engine := (replica.engine.apply entry.command).1 }

/-- The entry loop cuts only at sequence numbers that `cuts` allows. -/
inductive Edits (cuts : Nat → Prop) : Replica → Replica → Prop
  | grow {replica : Replica} (entry : LogEntry) :
      Edits cuts replica { replica with history := replica.history ++ [entry] }
  | cut {replica : Replica} (seq : Nat) (allowed : cuts seq) (uncommitted : replica.committed < seq)
      (kept : replica.dropped < seq) (inside : seq ≤ replica.history.length) :
      Edits cuts replica (replica.cutAt seq)

/-- The term of the entry at `seq`, if the log still has it. -/
def termAt (replica : Replica) (seq : Nat) : Option Nat :=
  if seq = 0 then some 0
  else if replica.dropped < seq then (replica.history[seq - 1]?).map (·.term)
  else none

/-- Where a record differs from the term known at its sequence, or from the term of an earlier record of
the same sequence, that sequence is one of `cuts`. -/
def Agrees (cuts : Nat → Prop) (known : Nat → Option Nat) (records : List LogRecord) : Prop :=
  (∀ record ∈ records, ∀ term ∈ known record.seq, term ≠ record.term → cuts record.seq) ∧
    records.Pairwise fun first second => first.seq = second.seq → first.term ≠ second.term →
      cuts second.seq

instance (cuts : Nat → Prop) [DecidablePred cuts] (known : Nat → Option Nat)
    (records : List LogRecord) : Decidable (Agrees cuts known records) :=
  inferInstanceAs (Decidable (_ ∧ _))

namespace Agrees

variable {cuts : Nat → Prop} {replica : Replica} {record : LogRecord} {rest : List LogRecord}

theorem tail {known : Nat → Option Nat} (agrees : Agrees cuts known (record :: rest)) :
    Agrees cuts known rest :=
  ⟨fun other member => agrees.1 other (List.mem_cons_of_mem _ member),
    (List.pairwise_cons.mp agrees.2).2⟩

/-- The record is stored as the next entry. -/
theorem grow (agrees : Agrees cuts replica.termAt (record :: rest))
    (next : record.seq = replica.history.length + 1) :
    Agrees cuts
      ({ replica with
        history := replica.history ++
          [{ seq := record.seq, term := record.term, command := record.command }] } : Replica).termAt
      rest := by
  refine ⟨fun other member term known differ => ?_, agrees.tail.2⟩
  rw [Option.mem_def] at known
  by_cases same : record.seq = other.seq
  · have last : term = record.term := by
      unfold termAt at known
      simp only at known
      rw [if_neg (by omega), ← same, next, Nat.add_sub_cancel, List.getElem?_concat_length] at known
      split_ifs at known
      exact (Option.some.inj known).symm
    exact (List.pairwise_cons.mp agrees.2).1 other member same (last ▸ differ)
  · refine agrees.tail.1 other member term ?_ differ
    rw [Option.mem_def, ← known]
    unfold termAt
    simp only
    by_cases zero : other.seq = 0
    · rw [if_pos zero, if_pos zero]
    · rw [if_neg zero, if_neg zero]
      by_cases before : other.seq - 1 < replica.history.length
      · rw [List.getElem?_append_left before]
      · rw [List.getElem?_eq_none (Nat.le_of_not_lt before), List.getElem?_eq_none]
        rw [List.length_append, List.length_singleton]
        omega

/-- A cut leaves fewer entries to differ from. -/
theorem cutAt {records : List LogRecord} (agrees : Agrees cuts replica.termAt records) (seq : Nat) :
    Agrees cuts (replica.cutAt seq).termAt records := by
  refine ⟨fun other member term known differ => agrees.1 other member term ?_ differ, agrees.2⟩
  rw [Option.mem_def] at known ⊢
  have history : (replica.cutAt seq).history = replica.history.take (seq - 1) := by
    unfold Replica.cutAt
    simp only
    split_ifs <;> rfl
  have dropped : (replica.cutAt seq).dropped = replica.dropped := by
    unfold Replica.cutAt
    simp only
    split_ifs <;> rfl
  unfold termAt at known ⊢
  rw [history, dropped, List.getElem?_take] at known
  split_ifs at known ⊢ with zero kept before
  · exact known
  · exact known
  · cases known

end Agrees

/-- The records ascend, as they do in every message that `sendAppend` builds. -/
def Ascending (records : List LogRecord) : Prop :=
  records.Pairwise fun first second => first.seq < second.seq

instance (records : List LogRecord) : Decidable (Ascending records) :=
  inferInstanceAs (Decidable (records.Pairwise _))

/-- The first record of which the term is not the one known at its sequence. -/
def firstNew (known : Nat → Option Nat) (records : List LogRecord) : Option LogRecord :=
  records.find? fun record => known record.seq ≠ some record.term

/-- The replicator `rep` is in the state that the replica describes. -/
structure Stands (replica : Replica) (rep : Replicator) : Prop where
  log : rep.log.Retains replica.history
  dropped : rep.log.truncatedThrough = replica.dropped
  applied : rep.lastApplied = replica.applied
  committed : rep.commitIndex = replica.committed
  engine : rep.engine = replica.engine
  base : rep.snapshotBase = none
  inside : replica.committed ≤ replica.history.length

namespace Stands

variable {replica : Replica} {rep rep' : Replicator}

theorem of_core (stands : replica.Stands rep) (same : rep'.core = rep.core) : replica.Stands rep' where
  log := (congrArg (·.log) same : rep'.log = rep.log) ▸ stands.log
  dropped := (congrArg (·.log.truncatedThrough) same).trans stands.dropped
  applied := (congrArg (·.lastApplied) same).trans stands.applied
  committed := (congrArg (·.commitIndex) same).trans stands.committed
  engine := (congrArg (·.engine) same).trans stands.engine
  base := (congrArg (·.snapshotBase) same).trans stands.base
  inside := stands.inside

/-- Roles, terms, backups and counters do not matter. -/
theorem reframe (stands : replica.Stands rep) {role : Role} {term : Nat}
    {backups : OrderedMap NodeId BackupState (· < ·)} {stats : ReplicationStats} :
    replica.Stands { rep with role, term, backups, stats } :=
  { stands with }

/-! ### Working -/

/-- The loop of `applyCommitted` applies committed entries one by one. -/
theorem applyLoop (stands : replica.Stands rep) (fuel : Nat) :
    ∃ replica', ReflTransGen Works replica replica' ∧ replica'.Stands (Replicator.applyLoop fuel rep) := by
  induction fuel generalizing replica rep with
  | zero => exact ⟨replica, .refl, stands⟩
  | succ fuel ih =>
    unfold Replicator.applyLoop
    by_cases behind : rep.lastApplied < rep.commitIndex
    · rw [if_pos behind]
      have found := stands.log.at?_eq (rep.lastApplied + 1)
      rw [stands.dropped, Nat.add_sub_cancel, stands.applied] at found
      by_cases kept : replica.dropped < replica.applied + 1
      · rw [if_pos kept] at found
        cases next : replica.history[replica.applied]? with
        | none =>
          rw [stands.applied, found, next]
          exact ⟨replica, .refl, stands⟩
        | some entry =>
          have works : Works replica _ := .apply entry (stands.applied ▸ stands.committed ▸ behind)
            (Nat.le_of_lt_succ kept) next
          have seq : entry.seq = replica.applied + 1 := stands.log.numbered.seq_of_getElem? next
          have stands' : Stands
              { replica with
                applied := replica.applied + 1
                engine := (replica.engine.apply entry.command).1 } (rep.applyNext entry) :=
            { log := stands.log
              dropped := stands.dropped
              applied := seq
              committed := stands.committed
              engine := congrArg (fun engine => (MatchingEngine.apply engine entry.command).1) stands.engine
              base := stands.base
              inside := stands.inside }
          obtain ⟨replica', path, stands''⟩ := ih stands'
          rw [stands.applied, found, next]
          exact ⟨replica', .head works path, stands''⟩
      · rw [if_neg kept] at found
        rw [stands.applied, found]
        exact ⟨replica, .refl, stands⟩
    · rw [if_neg behind]
      exact ⟨replica, .refl, stands⟩

theorem applyCommitted (stands : replica.Stands rep) :
    ∃ replica', ReflTransGen Works replica replica' ∧ replica'.Stands rep.applyCommitted :=
  stands.applyLoop _

/-- The commit point moves to a position of the history. -/
theorem commit (stands : replica.Stands rep) {seq : Nat} {stats : ReplicationStats}
    (inside : seq ≤ replica.history.length) :
    ({ replica with committed := seq } : Replica).Stands { rep with commitIndex := seq, stats } :=
  { stands with
    committed := rfl
    inside := inside }

theorem advanceCommitIndex (stands : replica.Stands rep) :
    ∃ replica', ReflTransGen Works replica replica' ∧ replica'.Stands rep.advanceCommitIndex := by
  rcases rep.advanceCommitIndex_cases with same | ⟨_, more, ownTerm, commits⟩
  · rw [same]
    exact ⟨replica, .refl, stands⟩
  · have inside := stands.log.le_of_termAt ownTerm
    have forward : replica.committed ≤ rep.commitCandidate := stands.committed ▸ Nat.le_of_lt more
    obtain ⟨replica', path, stands'⟩ := (stands.commit inside).applyCommitted
    rw [commits]
    exact ⟨replica', .head (.commit _ forward inside) path, stands'⟩

theorem accept (stands : replica.Stands rep) (cmd : Command) :
    ∃ replica', ReflTransGen Works replica replica' ∧ replica'.Stands (rep.accept cmd) := by
  have joined : Stands
      { replica with
        history := replica.history ++
          [{ seq := replica.history.length + 1, term := rep.term, command := cmd }] }
      (rep.join cmd) :=
    { stands with
      log := stands.log.append cmd rep.term
      inside := by
        show replica.committed ≤ (replica.history ++ _).length
        rw [List.length_append]
        exact Nat.le_add_right_of_le stands.inside }
  rcases rep.accept_cases cmd with plain | alone
  · rw [plain]
    exact ⟨_, .single (.grow _), joined⟩
  · obtain ⟨replica', path, stands'⟩ := joined.advanceCommitIndex
    rw [alone]
    exact ⟨replica', .head (.grow _) path, stands'⟩

/-- **`compactLog`** drops at most what is committed and applied. -/
theorem compactLog (stands : replica.Stands rep) :
    ∃ dropped, replica.dropped ≤ dropped ∧
      dropped ≤ max replica.dropped (min replica.committed replica.applied) ∧
        ({ replica with dropped } : Replica).Stands rep.compactLog := by
  have same : ({ replica with dropped := replica.dropped } : Replica).Stands rep := stands
  have unchanged : ∃ dropped, replica.dropped ≤ dropped ∧
      dropped ≤ max replica.dropped (min replica.committed replica.applied) ∧
        ({ replica with dropped } : Replica).Stands rep :=
    ⟨replica.dropped, Nat.le_refl _, Nat.le_max_left _ _, same⟩
  unfold Replicator.compactLog
  split_ifs
  · exact unchanged
  · simp only
    split_ifs
    · exact unchanged
    all_goals
      obtain ⟨retains, dropped⟩ := stands.log.truncateThrough (min rep.commitSeq rep.lastApplied)
      have committed : rep.commitSeq = replica.committed := stands.committed
      rw [stands.dropped] at dropped
      refine ⟨max replica.dropped (min (min rep.commitSeq rep.lastApplied) replica.history.length), ?_,
        ?_, { stands with log := retains, dropped := dropped }⟩
      · exact Nat.le_max_left _ _
      · rw [committed, stands.applied]
        exact max_le_max (Nat.le_refl _) (Nat.min_le_left _ _)

theorem handleAppendResponse (stands : replica.Stands rep) (net : Transport) (source : NodeId)
    (msg : AppendResponse) :
    ∃ replica', ReflTransGen Works replica replica' ∧
      replica'.Stands (rep.handleAppendResponse net source msg).1 := by
  rcases rep.handleAppendResponse_cases net source msg with ⟨_, sends, _⟩ | ⟨_, stats, sends, _⟩
  · exact ⟨replica, .refl, stands.of_core sends.frame⟩
  · have noted : replica.Stands (rep.noted source msg) := stands.reframe
    obtain ⟨replica', path, stands'⟩ := noted.advanceCommitIndex
    exact ⟨replica', path, (stands'.reframe).of_core sends.frame⟩

/-- **Every call but `compactLog` and the delivery of an `AppendEntries`** is work. -/
theorem perform (stands : replica.Stands rep) {call : Replicator.Call} (keeps : call ≠ .compactLog)
    (other : ∀ source msg link, call ≠ .onMessage source (.appendEntries msg) link) :
    ∃ replica', ReflTransGen Works replica replica' ∧ replica'.Stands (rep.perform call).1 := by
  cases call with
  | submit cmd link =>
    rcases rep.submit_cases { link } cmd with ⟨sends, _⟩ | ⟨_, sends, _⟩
    · exact ⟨replica, .refl, stands.of_core sends.frame⟩
    · obtain ⟨replica', path, stands'⟩ := stands.accept cmd
      exact ⟨replica', path, stands'.of_core sends.frame⟩
  | tick link => exact ⟨replica, .refl, stands.of_core (rep.tick_sends { link }).frame⟩
  | compactLog => exact absurd rfl keeps
  | onPeerUp id link =>
    by_cases leading : rep.role = .primary
    · have greeted : replica.Stands (rep.greet id) := stands.reframe
      exact ⟨replica, .refl, greeted.of_core (Replicator.onPeerUp_sends leading { link } id).frame⟩
    · show ∃ _, _ ∧ Stands _ (rep.onPeerUp { link } id).1
      rw [Replicator.onPeerUp_idle leading]
      exact ⟨replica, .refl, stands⟩
  | onPeerDown id => exact ⟨replica, .refl, stands.reframe⟩
  | setRole role =>
    obtain ⟨backups, stats, changed⟩ := rep.setRole_frame role
    show ∃ _, _ ∧ Stands _ (rep.setRole role)
    rw [changed]
    exact ⟨replica, .refl, stands.reframe⟩
  | setTerm term => exact ⟨replica, .refl, stands.reframe⟩
  | onMessage source msg link =>
    cases msg with
    | appendEntries append => exact absurd rfl (other source append link)
    | appendResponse answer => exact stands.handleAppendResponse { link } source answer
    | hello msg => exact ⟨replica, .refl, stands⟩
    | heartbeat msg => exact ⟨replica, .refl, stands⟩
    | commandForward msg => exact ⟨replica, .refl, stands⟩
    | eventAck msg => exact ⟨replica, .refl, stands⟩
    | requestVote msg => exact ⟨replica, .refl, stands⟩
    | voteResponse msg => exact ⟨replica, .refl, stands⟩

/-! ### Editing -/

/-- A record that is the next entry joins. -/
theorem grow (stands : replica.Stands rep) {entry : LogEntry} {log : CommandLog}
    {stats : ReplicationStats} (retains : log.Retains (replica.history ++ [entry]))
    (same : log.truncatedThrough = rep.log.truncatedThrough) :
    ({ replica with history := replica.history ++ [entry] } : Replica).Stands { rep with log, stats } :=
  { stands with
    log := retains
    dropped := same.trans stands.dropped
    inside := by
      show replica.committed ≤ (replica.history ++ _).length
      rw [List.length_append]
      exact Nat.le_add_right_of_le stands.inside }

/-- Nothing can be replayed from a log that has dropped its front. -/
theorem rebuildFromLog_dropped (stands : replica.Stands rep) (trimmed : replica.dropped ≠ 0) :
    rep.rebuildFromLog =
      { rep with
        engine := { instrument := rep.engine.instrument }
        lastApplied := 0
        commitIndex := 0 } := by
  have base : rep.rebuildBase = { instrument := rep.engine.instrument } := by
    unfold Replicator.rebuildBase
    rw [stands.base]
  have missing : rep.log.at? (0 + 1) = none := by
    rw [stands.log.at?_eq, stands.dropped, if_neg (by omega)]
  have stuck : ∀ fuel, Replicator.rebuildLoop fuel
      { rep with engine := rep.rebuildBase, lastApplied := 0 } (0 + 1) =
        { rep with engine := rep.rebuildBase, lastApplied := 0 } := by
    intro fuel
    cases fuel with
    | zero => rfl
    | succ fuel =>
      unfold Replicator.rebuildLoop
      simp only [missing]
      split_ifs <;> rfl
  unfold Replicator.rebuildFromLog
  rw [stands.log.noSnapshot, stuck, base]
  simp only
  split_ifs with above
  · rfl
  · have zero : rep.commitIndex = 0 := Nat.eq_zero_of_not_pos above
    rw [← zero]

/-- **A conflict** cuts the history and rebuilds the engine. -/
theorem cut (stands : replica.Stands rep) {seq : Nat} (uncommitted : replica.committed < seq)
    (kept : replica.dropped < seq) (inside : seq ≤ replica.history.length) (stats : ReplicationStats) :
    (replica.cutAt seq).Stands
      ({ rep with log := rep.log.truncateFrom seq, stats } : Replicator).rebuildFromLog := by
  have retains := stands.log.truncateFrom (stands.dropped.symm ▸ kept)
  have length : (replica.history.take (seq - 1)).length = seq - 1 := by
    rw [List.length_take]
    omega
  have committed := stands.committed
  by_cases all : replica.dropped = 0
  · obtain ⟨whole, entries⟩ := CommandLog.Whole.of_retains retains
      (show (rep.log.truncateFrom seq).truncatedThrough = 0 from stands.dropped.trans all)
    have rebuilt := Replicator.rebuildFromLog_eq
      (show ({ rep with log := rep.log.truncateFrom seq, stats } : Replicator).log.Whole from whole)
    rw [rebuilt]
    unfold cutAt
    simp only [if_pos all]
    have base : ({ rep with log := rep.log.truncateFrom seq, stats } : Replicator).rebuildBase =
        { instrument := replica.engine.instrument } := by
      unfold Replicator.rebuildBase
      simp only [stands.base, stands.engine]
    have lastSeq : (rep.log.truncateFrom seq).lastSeq = seq - 1 := retains.lastSeq.trans length
    exact
      { log := retains
        dropped := stands.dropped
        applied := lastSeq
        committed := by
          show min rep.commitIndex (rep.log.truncateFrom seq).lastSeq = replica.committed
          omega
        engine := by
          show (MatchingEngine.applyAll _ _).1 = _
          rw [base, entries]
          rfl
        base := stands.base
        inside := by
          show replica.committed ≤ (replica.history.take (seq - 1)).length
          omega }
  · have truncated : Stands
        { replica with history := replica.history.take (seq - 1) }
        { rep with log := rep.log.truncateFrom seq, stats } :=
      { stands with
        log := retains
        inside := by
          show replica.committed ≤ (replica.history.take (seq - 1)).length
          omega }
    rw [truncated.rebuildFromLog_dropped all]
    unfold cutAt
    simp only [if_neg all]
    exact
      { log := retains
        dropped := stands.dropped
        applied := rfl
        committed := rfl
        engine := by rw [stands.engine]
        base := stands.base
        inside := Nat.zero_le _ }

/-! ### The entry loop -/

/-- The log knows the terms of the part of the history that it has. -/
theorem termAt_eq (stands : replica.Stands rep) (seq : Nat) :
    rep.log.termAt seq = replica.termAt seq := by
  rw [stands.log.termAt_eq, stands.log.at?_eq, stands.dropped]
  unfold Replica.termAt
  split_ifs <;> rfl

theorem le_of_termAt (stands : replica.Stands rep) {seq term : Nat}
    (known : replica.termAt seq = some term) : seq ≤ replica.history.length := by
  rw [← stands.termAt_eq] at known
  exact stands.log.le_of_termAt known

/-- A record is stored: it is the next entry, or there is a gap and the loop ends. -/
theorem storeFrom_cases (stands : replica.Stands rep) (record : LogRecord) (rest : List LogRecord) :
    (record.seq ≠ replica.history.length + 1 ∧
        ∃ rep', rep.storeFrom record rest = (rep', true) ∧ replica.Stands rep') ∨
      (record.seq = replica.history.length + 1 ∧
        ∃ rep', rep.storeFrom record rest = rep'.appendRecords rest ∧
          Stands
            { replica with
              history := replica.history ++
                [{ seq := record.seq, term := record.term, command := record.command }] } rep') := by
  unfold Replicator.storeFrom
  rcases stands.log.appendAt record.seq record.term record.command with
    ⟨next, log, appended, retains, same⟩ | ⟨gap, refused⟩
  · rw [appended]
    exact Or.inr ⟨next, _, rfl, stands.grow retains same⟩
  · rw [refused]
    exact Or.inl ⟨gap, _, rfl, stands.reframe⟩

/-- What the loop does with a record. -/
theorem appendRecords_cases (stands : replica.Stands rep) (record : LogRecord)
    (rest : List LogRecord) :
    (replica.termAt record.seq = some record.term ∧
        rep.appendRecords (record :: rest) = rep.appendRecords rest) ∨
      (replica.termAt record.seq = none ∧
        rep.appendRecords (record :: rest) = rep.storeFrom record rest) ∨
      ((∃ term, replica.termAt record.seq = some term ∧ term ≠ record.term) ∧
        ((record.seq ≤ replica.committed ∧ rep.appendRecords (record :: rest) = (rep, false)) ∨
          (replica.committed < record.seq ∧ replica.dropped < record.seq ∧
            record.seq ≤ replica.history.length ∧
              ∃ rep', rep.appendRecords (record :: rest) = rep'.storeFrom record rest ∧
                (replica.cutAt record.seq).Stands rep'))) := by
  cases known : replica.termAt record.seq with
  | none =>
    refine Or.inr (Or.inl ⟨rfl, ?_⟩)
    exact Replicator.appendRecords_unknown ((stands.termAt_eq _).trans known)
  | some term =>
    have inside := stands.le_of_termAt known
    have below : record.seq ≤ rep.log.lastSeq := stands.log.lastSeq ▸ inside
    rw [Replicator.appendRecords]
    simp only [stands.termAt_eq, known, if_pos below]
    by_cases same : term = record.term
    · exact Or.inl ⟨by rw [same], if_pos same⟩
    · refine Or.inr (Or.inr ⟨⟨term, rfl, same⟩, ?_⟩)
      rw [if_neg same]
      by_cases committed : record.seq ≤ rep.commitIndex
      · rw [if_pos committed]
        exact Or.inl ⟨stands.committed ▸ committed, rfl⟩
      · rw [if_neg committed]
        have uncommitted : replica.committed < record.seq := by
          rw [← stands.committed]
          exact Nat.lt_of_not_le committed
        have kept : replica.dropped < record.seq := by
          by_contra dropped
          unfold Replica.termAt at known
          rw [if_neg (by omega), if_neg dropped] at known
          cases known
        exact Or.inr ⟨uncommitted, kept, inside, _, rfl, stands.cut uncommitted kept inside _⟩

/-- **The entry loop** over any records edits the replica, and cuts it only where a record differs from
the history or from an earlier record. -/
theorem appendRecords_edits {cuts : Nat → Prop} (records : List LogRecord)
    (stands : replica.Stands rep) (agrees : Agrees cuts replica.termAt records) :
    ∃ replica', ReflTransGen (Edits cuts) replica replica' ∧
      replica'.Stands (rep.appendRecords records).1 := by
  induction records generalizing replica rep with
  | nil => exact ⟨replica, .refl, stands⟩
  | cons record rest ih =>
    have stores : ∀ {replica : Replica} {rep : Replicator}, replica.Stands rep →
        Agrees cuts replica.termAt (record :: rest) → ∃ replica', ReflTransGen (Edits cuts) replica replica' ∧
          replica'.Stands (rep.storeFrom record rest).1 := by
      intro replica rep stands agrees
      rcases stands.storeFrom_cases record rest with
        ⟨_, rep', stored, stands'⟩ | ⟨next, rep', stored, grown⟩
      · rw [stored]
        exact ⟨replica, .refl, stands'⟩
      · obtain ⟨replica', path, stands'⟩ := ih grown (agrees.grow next)
        rw [stored]
        exact ⟨replica', .head (.grow _) path, stands'⟩
    rcases stands.appendRecords_cases record rest with
      ⟨_, goes⟩ | ⟨_, goes⟩ | ⟨⟨term, known, differ⟩, ⟨_, goes⟩ | ⟨uncommitted, kept, inside, rep', goes, cut⟩⟩
    · rw [goes]
      exact ih stands agrees.tail
    · rw [goes]
      exact stores stands agrees
    · rw [goes]
      exact ⟨replica, .refl, stands⟩
    · rw [goes]
      have allowed : cuts record.seq := agrees.1 record List.mem_cons_self term known differ
      obtain ⟨replica', path, stands'⟩ := stores cut (agrees.cutAt record.seq)
      exact ⟨replica', .head (.cut _ allowed uncommitted kept inside) path, stands'⟩

/-- Records beyond the history are stored one by one, up to the first gap. -/
theorem storeFrom_beyond (cuts : Nat → Prop) (rest : List LogRecord) (record : LogRecord)
    (stands : replica.Stands rep) (ascending : Ascending (record :: rest)) :
    ∃ rep' replica', rep.storeFrom record rest = (rep', true) ∧
      ReflTransGen (Edits cuts) replica replica' ∧ replica'.Stands rep' := by
  induction rest generalizing record replica rep with
  | nil =>
    rcases stands.storeFrom_cases record [] with ⟨_, rep', stored, stands'⟩ | ⟨_, rep', stored, grown⟩
    · exact ⟨rep', replica, stored, .refl, stands'⟩
    · exact ⟨rep', _, stored, .single (.grow _), grown⟩
  | cons second rest ih =>
    obtain ⟨later, ascending'⟩ := List.pairwise_cons.mp ascending
    rcases stands.storeFrom_cases record (second :: rest) with
      ⟨_, rep', stored, stands'⟩ | ⟨next, rep', stored, grown⟩
    · exact ⟨rep', replica, stored, .refl, stands'⟩
    · have beyond : rep'.log.termAt second.seq = none := by
        cases known : rep'.log.termAt second.seq with
        | none => rfl
        | some term =>
          have inside := grown.log.le_of_termAt known
          have above := later second List.mem_cons_self
          rw [List.length_append, List.length_singleton] at inside
          omega
      obtain ⟨rep'', replica', stored', path, stands'⟩ := ih second grown ascending'
      refine ⟨rep'', replica', ?_, .head (.grow _) path, stands'⟩
      rw [stored, Replicator.appendRecords_unknown beyond, stored']

/-- **The entry loop over ascending records** changes nothing when it refuses, and cuts at most once: at
the first record the history does not have. -/
theorem appendRecords_ascending (cuts : Nat → Prop) (records : List LogRecord)
    (stands : replica.Stands rep) (ascending : Ascending records)
    (first : ∀ record ∈ firstNew replica.termAt records, replica.termAt record.seq ≠ none →
      cuts record.seq) :
    rep.appendRecords records = (rep, false) ∨
      ∃ rep' replica', rep.appendRecords records = (rep', true) ∧
        ReflTransGen (Edits cuts) replica replica' ∧ replica'.Stands rep' := by
  induction records with
  | nil => exact Or.inr ⟨rep, replica, rfl, .refl, stands⟩
  | cons record rest ih =>
    rcases stands.appendRecords_cases record rest with
      ⟨same, goes⟩ | ⟨_, goes⟩ | ⟨⟨term, known, differ⟩, ⟨_, goes⟩ | ⟨uncommitted, kept, inside, rep', goes, cut⟩⟩
    · have skips : firstNew replica.termAt (record :: rest) = firstNew replica.termAt rest := by
        simp [firstNew, same]
      rw [skips] at first
      rw [goes]
      exact ih (List.pairwise_cons.mp ascending).2 first
    · obtain ⟨rep', replica', stored, path, stands'⟩ :=
        stands.storeFrom_beyond cuts rest record ascending
      exact Or.inr ⟨rep', replica', goes.trans stored, path, stands'⟩
    · exact Or.inl goes
    · have allowed : cuts record.seq := by
        refine first record ?_ (by rw [known]; exact Option.some_ne_none term)
        simp [firstNew, known, differ]
      obtain ⟨rep'', replica', stored, path, stands'⟩ :=
        cut.storeFrom_beyond cuts rest record ascending
      exact Or.inr ⟨rep'', replica', goes.trans stored,
        .head (.cut _ allowed uncommitted kept inside) path, stands'⟩

/-! ### The handler -/

/-- The commit point a follower adopts, and the entries it then applies. -/
theorem settle (stands : replica.Stands rep) (commitSeq : Nat) :
    ∃ replica', ReflTransGen Works
        { replica with
          committed := max replica.committed (min commitSeq replica.history.length) } replica' ∧
      replica'.Stands (rep.adoptCommit commitSeq).applyCommitted := by
  have inside := stands.inside
  have committed := stands.committed
  have adopted : Stands
      { replica with
        committed := max replica.committed (min commitSeq replica.history.length) }
      (rep.adoptCommit commitSeq) := by
    unfold Replicator.adoptCommit
    rw [stands.log.lastSeq]
    split_ifs with more
    · have raised : max replica.committed (min commitSeq replica.history.length) =
          min commitSeq replica.history.length := by omega
      rw [raised]
      exact stands.commit (Nat.min_le_right _ _)
    · have same : max replica.committed (min commitSeq replica.history.length) =
          replica.committed := by omega
      rw [same]
      exact stands
  exact adopted.applyCommitted

end Stands

end Replica

end Sententia
