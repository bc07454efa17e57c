/-
**What `advanceCommitIndex` computes.** The point is the highest sequence number that a majority of the
configured nodes has reached; it is committed if the entry there is of the present term, and then the engine
is fed the entries that follow what it has seen (`advanceCommitIndex_exact`).

* `Continues` — a log that stands for a numbered history, perhaps behind a snapshot.
* `Feeds` — what the loop of `applyCommitted` feeds the engine, and where it stops.
* `Ready` — between two calls there is nothing to feed: everything committed has been applied, or the next
  entry has been dropped from the log. Every call keeps this (`Reached.ready`).
-/

import Mathlib.Order.Bounds.Defs
import Sententia.Replication.Replica

namespace Sententia

open Library

namespace CommandLog

/-- The log stands for `history`; a snapshot it continues from covers nothing that it still has. -/
structure Continues (log : CommandLog) (history : List LogEntry) : Prop where
  retains : Retains { log with snapshotSeq := 0 } history
  behind : log.snapshotSeq ≤ log.truncatedThrough

namespace Continues

variable {log : CommandLog} {history : List LogEntry}

theorem at?_eq (continues : log.Continues history) (seq : Nat) :
    log.at? seq = if log.truncatedThrough < seq then history[seq - 1]? else none :=
  continues.retains.at?_eq seq

theorem seq_of_at? (continues : log.Continues history) {seq : Nat} {entry : LogEntry}
    (found : log.at? seq = some entry) : entry.seq = seq ∧ log.truncatedThrough < seq := by
  rw [continues.at?_eq] at found
  obtain ⟨kept, found⟩ := Option.ite_none_right_eq_some.mp found
  have numbered := continues.retains.numbered.seq_of_getElem? found
  exact ⟨by omega, kept⟩

/-- What is missing below the head has been dropped. -/
theorem dropped_of_at? (continues : log.Continues history) {seq : Nat} (positive : 0 < seq)
    (inside : seq ≤ history.length) (missing : log.at? seq = none) : seq ≤ log.truncatedThrough := by
  rw [continues.at?_eq] at missing
  by_contra kept
  rw [if_pos (Nat.lt_of_not_le kept), List.getElem?_eq_none_iff] at missing
  omega

theorem le_of_termAt (continues : log.Continues history) {seq term : Nat}
    (known : log.termAt seq = some term) : seq ≤ history.length := by
  have behind := continues.behind.trans continues.retains.compacted
  unfold termAt at known
  split_ifs at known with zero boundary
  · omega
  · omega
  · obtain ⟨entry, found, _⟩ := Option.map_eq_some_iff.mp known
    rw [continues.at?_eq] at found
    obtain ⟨_, found⟩ := Option.ite_none_right_eq_some.mp found
    have inside := (List.getElem?_eq_some_iff.mp found).1
    omega

theorem append (continues : log.Continues history) (cmd : Command) (term : Nat) :
    (log.append cmd term).1.Continues
      (history ++ [{ seq := history.length + 1, term, command := cmd }]) :=
  ⟨continues.retains.append cmd term, continues.behind⟩

theorem appendAt (continues : log.Continues history) {seq term : Nat} {cmd : Command} {log' : CommandLog}
    (appended : log.appendAt seq term cmd = some log') :
    log'.Continues (history ++ [{ seq, term, command := cmd }]) ∧
      log'.truncatedThrough = log.truncatedThrough := by
  unfold CommandLog.appendAt at appended
  split_ifs at appended with gap
  obtain rfl := Option.some.inj appended
  have next : seq = history.length + 1 := (not_not.mp gap).trans (by rw [← continues.retains.lastSeq])
  have grown := continues.append cmd term
  rw [← next] at grown
  refine ⟨?_, rfl⟩
  have lastSeq : log.lastSeq + 1 = seq := (not_not.mp gap).symm
  unfold CommandLog.append at grown
  rw [lastSeq] at grown
  exact grown

/-- **`truncateFrom`** cuts the history; from the dropped front on, everything that is left goes. -/
theorem truncateFrom (continues : log.Continues history) (seq : Nat) :
    (log.truncateFrom seq).Continues (history.take (max (seq - 1) log.truncatedThrough)) := by
  have compacted : log.truncatedThrough ≤ history.length := continues.retains.compacted
  -- Popping from anywhere in the dropped front is popping from its end.
  have popped : popBackFrom seq log.entries = popBackFrom (max seq (log.truncatedThrough + 1)) log.entries := by
    by_cases kept : log.truncatedThrough < seq
    · rw [max_eq_left kept]
    · have above : ∀ entry ∈ log.entries, log.truncatedThrough + 1 ≤ entry.seq := by
        intro entry member
        have entries : log.entries = history.drop log.truncatedThrough := continues.retains.entries
        rw [entries] at member
        obtain ⟨i, found⟩ := List.mem_iff_getElem?.mp member
        rw [List.getElem?_drop] at found
        rw [continues.retains.numbered.seq_of_getElem? found]
        omega
      have all : ∀ fromSeq ≤ log.truncatedThrough + 1, popBackFrom fromSeq ([] ++ log.entries) = [] :=
        fun fromSeq low => Retains.popBackFrom_append (fun _ member => absurd member List.not_mem_nil)
          fun entry member => low.trans (above entry member)
      exact (all seq (by omega)).trans (all _ (by omega)).symm
  have same : log.truncateFrom seq = log.truncateFrom (max seq (log.truncatedThrough + 1)) := by
    unfold CommandLog.truncateFrom
    rw [popped]
  have cut := continues.retains.truncateFrom
    (show log.truncatedThrough < max seq (log.truncatedThrough + 1) by omega)
  have bound : max seq (log.truncatedThrough + 1) - 1 = max (seq - 1) log.truncatedThrough := by omega
  rw [bound] at cut
  have behind := continues.behind
  rw [same]
  refine ⟨?_, behind⟩
  -- The snapshot is not above the dropped front, so forgetting it does not move the head.
  have head : ({ log with snapshotSeq := 0 } : CommandLog).truncateFrom (max seq (log.truncatedThrough + 1)) =
      { log.truncateFrom (max seq (log.truncatedThrough + 1)) with snapshotSeq := 0 } := by
    unfold CommandLog.truncateFrom
    simp only
    rw [if_neg (Nat.not_lt.mpr behind), if_neg (Nat.not_lt_zero _)]
  exact head ▸ cut

theorem truncateThrough (continues : log.Continues history) (seq : Nat) :
    (log.truncateThrough seq).Continues history ∧
      log.truncatedThrough ≤ (log.truncateThrough seq).truncatedThrough := by
  obtain ⟨retains, truncated⟩ := continues.retains.truncateThrough seq
  have more : (log.truncateThrough seq).truncatedThrough = max log.truncatedThrough (min seq history.length) :=
    truncated
  have behind := continues.behind
  refine ⟨⟨retains, ?_⟩, by omega⟩
  rw [more]
  exact le_max_of_le_left behind

end Continues

end CommandLog

namespace Replicator

/-! ### Feeding the engine -/

/-- From `rep` to `rep'` the engine is fed `fed`: the entries after `lastApplied` in order, up to the commit
point that `rep'` has, or to the first of them that the log has dropped. -/
structure Feeds (rep rep' : Replicator) (fed : List LogEntry) : Prop where
  applied : rep'.applied = rep.applied ++ fed
  engine : rep'.engine = (rep.engine.applyAll (fed.map (·.command))).1
  lastApplied : rep'.lastApplied = rep.lastApplied + fed.length
  entries : ∀ k < fed.length, rep.log.at? (rep.lastApplied + 1 + k) = fed[k]?
  numbered : ∀ k entry, fed[k]? = some entry → entry.seq = rep.lastApplied + 1 + k
  inside : fed ≠ [] → rep.lastApplied + fed.length ≤ rep'.commitIndex
  stops : rep.lastApplied + fed.length < rep'.commitIndex →
    rep.lastApplied + fed.length + 1 ≤ rep.log.truncatedThrough

variable {rep : Replicator} {history : List LogEntry}

/-- There is nothing to feed. -/
theorem Feeds.nothing (done : rep.commitIndex ≤ rep.lastApplied ∨ rep.lastApplied < rep.log.truncatedThrough) :
    Feeds rep rep [] where
  applied := (List.append_nil _).symm
  engine := rfl
  lastApplied := rfl
  entries k inside := absurd inside (Nat.not_lt_zero k)
  numbered k entry found := nomatch found
  inside notEmpty := absurd rfl notEmpty
  stops behind := by
    rw [List.length_nil] at behind ⊢
    omega

/-- One entry and then the others. -/
theorem Feeds.cons {rep' : Replicator} {entry : LogEntry} {fed : List LogEntry}
    (found : rep.log.at? (rep.lastApplied + 1) = some entry) (seq : entry.seq = rep.lastApplied + 1)
    (behind : rep.lastApplied < rep'.commitIndex) (feeds : Feeds (rep.applyNext entry) rep' fed) :
    Feeds rep rep' (entry :: fed) where
  applied := by
    rw [feeds.applied]
    exact List.append_assoc _ [entry] fed
  engine := feeds.engine
  lastApplied := by
    have applied : (rep.applyNext entry).lastApplied = rep.lastApplied + 1 := seq
    rw [feeds.lastApplied, applied, List.length_cons]
    omega
  entries k inside := by
    cases k with
    | zero => exact found
    | succ k =>
      have later := feeds.entries k (Nat.lt_of_succ_lt_succ inside)
      have applied : (rep.applyNext entry).lastApplied = rep.lastApplied + 1 := seq
      rw [applied] at later
      rw [List.getElem?_cons_succ, ← later, Nat.add_assoc (rep.lastApplied + 1), Nat.add_comm 1 k]
      rfl
  numbered k other at' := by
    cases k with
    | zero =>
      obtain rfl := Option.some.inj at'
      exact seq
    | succ k =>
      have later := feeds.numbered k other at'
      have applied : (rep.applyNext entry).lastApplied = rep.lastApplied + 1 := seq
      omega
  inside _ := by
    have applied : (rep.applyNext entry).lastApplied = rep.lastApplied + 1 := seq
    rw [List.length_cons]
    cases fed with
    | nil => exact behind
    | cons second rest =>
      have bound := feeds.inside (List.cons_ne_nil _ _)
      omega
  stops short := by
    have applied : (rep.applyNext entry).lastApplied = rep.lastApplied + 1 := seq
    rw [List.length_cons] at short ⊢
    have dropped := feeds.stops (by omega)
    have log : (rep.applyNext entry).log = rep.log := rfl
    rw [log] at dropped
    omega

/-- **The loop of `applyCommitted`.** -/
theorem applyLoop_feeds (continues : rep.log.Continues history) (inside : rep.commitIndex ≤ history.length)
    (fuel : Nat) (enough : rep.commitIndex - rep.lastApplied ≤ fuel) :
    ∃ fed, Feeds rep (applyLoop fuel rep) fed := by
  induction fuel generalizing rep with
  | zero => exact ⟨[], Feeds.nothing (Or.inl (by omega))⟩
  | succ fuel ih =>
    unfold applyLoop
    by_cases behind : rep.lastApplied < rep.commitIndex
    · rw [if_pos behind]
      cases found : rep.log.at? (rep.lastApplied + 1) with
      | none =>
        have dropped := continues.dropped_of_at? (Nat.succ_pos _) (by omega) found
        exact ⟨[], Feeds.nothing (Or.inr dropped)⟩
      | some entry =>
        have seq := (continues.seq_of_at? found).1
        have fewer : (rep.applyNext entry).commitIndex - (rep.applyNext entry).lastApplied ≤ fuel := by
          show rep.commitIndex - entry.seq ≤ fuel
          omega
        obtain ⟨fed, feeds⟩ := @ih (rep.applyNext entry) continues inside fewer
        obtain ⟨_, _, _, _, _, frame⟩ := applyLoop_frame fuel (rep.applyNext entry)
        refine ⟨entry :: fed, Feeds.cons found seq ?_ feeds⟩
        show rep.lastApplied < (applyLoop fuel (rep.applyNext entry)).commitIndex
        rw [frame]
        exact behind
    · rw [if_neg behind]
      exact ⟨[], Feeds.nothing (Or.inl (Nat.le_of_not_lt behind))⟩

theorem applyCommitted_feeds (continues : rep.log.Continues history)
    (inside : rep.commitIndex ≤ history.length) : ∃ fed, Feeds rep rep.applyCommitted fed :=
  applyLoop_feeds continues inside _ (Nat.le_refl _)

/-! ### Between calls -/

/-- The log continues a history that covers the commit point, and there is nothing to feed. -/
structure Ready (rep : Replicator) (history : List LogEntry) : Prop where
  log : rep.log.Continues history
  inside : rep.commitIndex ≤ history.length
  fed : rep.commitIndex ≤ rep.lastApplied ∨ rep.lastApplied < rep.log.truncatedThrough

namespace Ready

/-- Only the log and the two points matter. -/
theorem of_same (ready : rep.Ready history) {rep' : Replicator} (log : rep'.log = rep.log)
    (applied : rep'.lastApplied = rep.lastApplied) (committed : rep'.commitIndex = rep.commitIndex) :
    rep'.Ready history where
  log := log ▸ ready.log
  inside := committed ▸ ready.inside
  fed := by
    rw [log, applied, committed]
    exact ready.fed

theorem of_core (ready : rep.Ready history) {rep' : Replicator} (same : rep'.core = rep.core) :
    rep'.Ready history :=
  ready.of_same (congrArg (·.log) same) (congrArg (·.lastApplied) same) (congrArg (·.commitIndex) same)

/-- Applying leaves nothing to feed. -/
theorem applyCommitted (continues : rep.log.Continues history) (inside : rep.commitIndex ≤ history.length) :
    rep.applyCommitted.Ready history := by
  obtain ⟨fed, feeds⟩ := applyCommitted_feeds continues inside
  obtain ⟨_, _, _, _, _, frame⟩ := applyLoop_frame (rep.commitIndex - rep.lastApplied) rep
  have log : rep.applyCommitted.log = rep.log := congrArg (·.log) frame
  have committed : rep.applyCommitted.commitIndex = rep.commitIndex := congrArg (·.commitIndex) frame
  refine ⟨log ▸ continues, committed ▸ inside, ?_⟩
  by_cases done : rep.applyCommitted.commitIndex ≤ rep.applyCommitted.lastApplied
  · exact Or.inl done
  · rw [feeds.lastApplied] at done ⊢
    rw [log]
    exact Or.inr (feeds.stops (Nat.lt_of_not_le done))

theorem advanceCommitIndex (ready : rep.Ready history) : rep.advanceCommitIndex.Ready history := by
  rcases rep.advanceCommitIndex_cases with same | ⟨_, _, ownTerm, commits⟩
  · rw [same]
    exact ready
  · rw [commits]
    exact @applyCommitted (rep.commit rep.commitCandidate) _ ready.log (ready.log.le_of_termAt ownTerm)

theorem join (ready : rep.Ready history) (cmd : Command) :
    (rep.join cmd).Ready
      (history ++ [{ seq := history.length + 1, term := rep.term, command := cmd }]) where
  log := ready.log.append cmd rep.term
  inside := by
    rw [List.length_append]
    exact Nat.le_add_right_of_le ready.inside
  fed := ready.fed

theorem accept (ready : rep.Ready history) (cmd : Command) : ∃ history', (rep.accept cmd).Ready history' := by
  rcases rep.accept_cases cmd with plain | alone
  · exact ⟨_, plain ▸ ready.join cmd⟩
  · exact ⟨_, alone ▸ (ready.join cmd).advanceCommitIndex⟩

/-- **`compactLog`** drops more of the front. -/
theorem compactLog (ready : rep.Ready history) : rep.compactLog.Ready history := by
  unfold Replicator.compactLog
  split_ifs
  · exact ready
  · simp only
    obtain ⟨continues, more⟩ := ready.log.truncateThrough (min rep.commitSeq rep.lastApplied)
    split_ifs
    · exact ready
    all_goals exact ⟨continues, ready.inside, ready.fed.imp_right fun dropped => dropped.trans_le more⟩

end Ready

/-- The replay moves neither the log nor the commit point. -/
theorem rebuildLoop_frame (fuel : Nat) (rep : Replicator) (seq : Nat) :
    (rebuildLoop fuel rep seq).log = rep.log ∧ (rebuildLoop fuel rep seq).commitIndex = rep.commitIndex := by
  induction fuel generalizing rep seq with
  | zero => exact ⟨rfl, rfl⟩
  | succ fuel ih =>
    unfold rebuildLoop
    split_ifs
    · cases rep.log.at? seq with
      | none => exact ⟨rfl, rfl⟩
      | some entry => exact ih _ (seq + 1)
    · exact ⟨rfl, rfl⟩

/-- After a rebuild nothing is committed that has not been replayed. -/
theorem rebuildFromLog_points (rep : Replicator) :
    rep.rebuildFromLog.log = rep.log ∧ rep.rebuildFromLog.commitIndex ≤ rep.commitIndex ∧
      rep.rebuildFromLog.commitIndex ≤ rep.rebuildFromLog.lastApplied := by
  obtain ⟨log, committed⟩ := rebuildLoop_frame (rep.log.lastSeq - rep.log.snapshotSeq)
    { rep with engine := rep.rebuildBase, lastApplied := rep.log.snapshotSeq } (rep.log.snapshotSeq + 1)
  unfold rebuildFromLog
  dsimp only at log committed ⊢
  generalize rebuildLoop _ _ _ = replayed at log committed ⊢
  split_ifs with ahead
  · exact ⟨log, (Nat.le_of_lt ahead).trans (Nat.le_of_eq committed), Nat.le_refl _⟩
  · exact ⟨log, Nat.le_of_eq committed, Nat.le_of_not_lt ahead⟩

namespace Ready

/-- A conflict cuts the log behind the commit point, and the engine is rebuilt. -/
theorem cut (ready : rep.Ready history) {seq : Nat} (uncommitted : rep.commitIndex < seq)
    (stats : ReplicationStats) :
    ({ rep with log := rep.log.truncateFrom seq, stats } : Replicator).rebuildFromLog.Ready
      (history.take (max (seq - 1) rep.log.truncatedThrough)) := by
  obtain ⟨log, fewer, replayed⟩ :=
    rebuildFromLog_points { rep with log := rep.log.truncateFrom seq, stats }
  have inside := ready.inside
  refine ⟨log ▸ ready.log.truncateFrom seq, fewer.trans ?_, Or.inl replayed⟩
  show rep.commitIndex ≤ _
  rw [List.length_take]
  omega

/-- **The entry loop**, whatever it is given. -/
theorem appendRecords (records : List LogRecord) (ready : rep.Ready history) :
    ∃ history', (rep.appendRecords records).1.Ready history' := by
  induction records generalizing rep history with
  | nil => exact ⟨history, ready⟩
  | cons record rest ih =>
    have stores : ∀ {rep : Replicator} {history : List LogEntry}, rep.Ready history →
        ∃ history', (rep.storeFrom record rest).1.Ready history' := by
      intro rep history ready
      unfold storeFrom
      cases appended : rep.log.appendAt record.seq record.term record.command with
      | none => exact ⟨history, ready.of_same rfl rfl rfl⟩
      | some log =>
        obtain ⟨continues, same⟩ := ready.log.appendAt appended
        refine ih ⟨continues, ?_, ?_⟩
        · rw [List.length_append]
          exact Nat.le_add_right_of_le ready.inside
        · exact ready.fed.imp_right fun dropped => same.symm ▸ dropped
    rw [Replicator.appendRecords]
    cases rep.log.termAt record.seq with
    | none => exact stores ready
    | some term =>
      simp only
      split_ifs with inside same committed
      · exact ih ready
      · exact ⟨history, ready⟩
      · exact stores (ready.cut (Nat.lt_of_not_le committed) _)
      · exact stores ready

/-- **`handleAppendEntries`**, whatever it is given. -/
theorem handleAppendEntries (ready : rep.Ready history) (net : Transport) (source : NodeId)
    (msg : AppendEntries) : ∃ history', (rep.handleAppendEntries net source msg).1.Ready history' := by
  obtain ⟨history', absorbedReady⟩ := ready.appendRecords msg.entries
  rcases rep.handleAppendEntries_cases net source msg with
    ⟨stats, rejected⟩ | ⟨_, _, absorbed, ⟨refused, result⟩ | ⟨accepted, result⟩⟩
  · rw [rejected]
    exact ⟨history, ready.of_same rfl rfl rfl⟩
  · rw [refused] at absorbedReady
    exact ⟨history', result ▸ absorbedReady⟩
  · rw [accepted] at absorbedReady
    rw [result]
    -- The commit point that is adopted is within the log.
    have inside : (absorbed.adoptCommit msg.commitSeq).commitIndex ≤ history'.length := by
      have lastSeq : absorbed.log.lastSeq = history'.length := absorbedReady.log.retains.lastSeq
      unfold adoptCommit
      split_ifs
      · exact (Nat.min_le_right _ _).trans (Nat.le_of_eq lastSeq)
      · exact absorbedReady.inside
    have log : (absorbed.adoptCommit msg.commitSeq).log = absorbed.log := by
      unfold adoptCommit
      split_ifs <;> rfl
    exact ⟨history', applyCommitted (log ▸ absorbedReady.log) inside⟩

theorem handleAppendResponse (ready : rep.Ready history) (net : Transport) (source : NodeId)
    (msg : AppendResponse) : (rep.handleAppendResponse net source msg).1.Ready history := by
  rcases rep.handleAppendResponse_cases net source msg with ⟨_, sends, _⟩ | ⟨_, stats, sends, _⟩
  · exact ready.of_core sends.frame
  · have noted : (rep.noted source msg).Ready history := ready.of_same rfl rfl rfl
    have advanced : (rep.noteResponse source msg).Ready history := noted.advanceCommitIndex
    exact (advanced.of_same rfl rfl rfl : Ready { rep.noteResponse source msg with stats } history).of_core
      sends.frame

/-- **Every call** leaves nothing to feed. -/
theorem perform (ready : rep.Ready history) (call : Call) :
    ∃ history', (rep.perform call).1.Ready history' := by
  cases call with
  | submit cmd link =>
    rcases rep.submit_cases { link } cmd with ⟨sends, _⟩ | ⟨_, sends, _⟩
    · exact ⟨history, ready.of_core sends.frame⟩
    · obtain ⟨history', accepted⟩ := ready.accept cmd
      exact ⟨history', accepted.of_core sends.frame⟩
  | tick link => exact ⟨history, ready.of_core (rep.tick_sends { link }).frame⟩
  | compactLog => exact ⟨history, ready.compactLog⟩
  | onPeerUp id link =>
    by_cases leading : rep.role = .primary
    · have greeted : (rep.greet id).Ready history := ready.of_same rfl rfl rfl
      exact ⟨history, greeted.of_core (onPeerUp_sends leading { link } id).frame⟩
    · show ∃ _, Ready (rep.onPeerUp { link } id).1 _
      rw [onPeerUp_idle leading]
      exact ⟨history, ready⟩
  | onPeerDown id => exact ⟨history, ready.of_same rfl rfl rfl⟩
  | setRole role =>
    obtain ⟨backups, stats, changed⟩ := rep.setRole_frame role
    show ∃ _, Ready (rep.setRole role) _
    rw [changed]
    exact ⟨history, ready.of_same rfl rfl rfl⟩
  | setTerm term => exact ⟨history, ready.of_same rfl rfl rfl⟩
  | onMessage source msg link =>
    cases msg with
    | appendEntries append => exact ready.handleAppendEntries { link } source append
    | appendResponse answer => exact ⟨history, ready.handleAppendResponse { link } source answer⟩
    | hello msg => exact ⟨history, ready⟩
    | heartbeat msg => exact ⟨history, ready⟩
    | commandForward msg => exact ⟨history, ready⟩
    | eventAck msg => exact ⟨history, ready⟩
    | requestVote msg => exact ⟨history, ready⟩
    | voteResponse msg => exact ⟨history, ready⟩

end Ready

/-! ### The states of a replicator -/

/-- The states a replicator can be in, over a log that may continue a snapshot. Within a call, the commit
point is looked for after a command has joined the log and after a match point has been noted; here the match
points may become any at any time. -/
inductive Reached : Replicator → Prop
  | start {log : CommandLog} {history : List LogEntry} (continues : log.Continues history) (self : NodeId)
      (role : Role) (mode : ReplicationMode) (engine : MatchingEngine) :
      Reached { self, role, mode, engine, log }
  | setClusterSize {rep : Replicator} (reached : Reached rep) (n : Nat) : Reached (rep.setClusterSize n)
  | setSyncWindow {rep : Replicator} (reached : Reached rep) (n : Nat) : Reached (rep.setSyncWindow n)
  | perform {rep : Replicator} (reached : Reached rep) (call : Call) : Reached (rep.perform call).1
  | join {rep : Replicator} (reached : Reached rep) (cmd : Command) : Reached (rep.join cmd)
  | matched {rep : Replicator} (reached : Reached rep)
      (backups : OrderedMap NodeId BackupState (· < ·)) : Reached { rep with backups }

theorem Reached.ready {rep : Replicator} (reached : Reached rep) : ∃ history, rep.Ready history := by
  induction reached with
  | start continues self role mode engine => exact ⟨_, continues, Nat.zero_le _, Or.inl (Nat.le_refl 0)⟩
  | setClusterSize reached n ih => exact ih.imp fun _ ready => ready.of_same rfl rfl rfl
  | setSyncWindow reached n ih => exact ih.imp fun _ ready => ready.of_same rfl rfl rfl
  | perform reached call ih =>
    obtain ⟨history, ready⟩ := ih
    exact ready.perform call
  | join reached cmd ih =>
    obtain ⟨history, ready⟩ := ih
    exact ⟨_, ready.join cmd⟩
  | matched reached backups ih => exact ih.imp fun _ ready => ready.of_same rfl rfl rfl

/-! ### The quorum point -/

/-- How many of the `clusterSize` nodes have a match point of at least `seq`: this node, whose match point is
the head of its log, the backups, and the nodes it knows nothing of, whose match point is zero. -/
def reaching (rep : Replicator) (seq : Nat) : Nat :=
  (if seq ≤ rep.log.lastSeq then 1 else 0) +
    (rep.backups.entries.filter fun backup => seq ≤ backup.2.matchSeq).length +
      (if seq = 0 then rep.clusterSize - 1 - rep.backups.entries.length else 0)

/-- What the padded list counts. -/
theorem countP_matchPoints_eq_reaching (rep : Replicator) (seq : Nat) :
    (rep.matchPoints.countP fun point => seq ≤ point) = rep.reaching seq := by
  unfold matchPoints reaching
  rw [List.countP_append, List.countP_cons, List.countP_map, List.countP_replicate, List.countP_eq_length_filter,
    List.length_cons, List.length_map, Nat.sub_add_eq, Nat.sub_right_comm]
  simp only [decide_eq_true_eq, Nat.le_zero_eq]
  rw [Nat.add_comm (if seq ≤ rep.log.lastSeq then 1 else 0)]
  rfl

/-- **The commit candidate is the quorum point.** -/
theorem isGreatest_commitCandidate (rep : Replicator) (configured : 0 < rep.clusterSize) :
    IsGreatest { seq | rep.clusterSize / 2 + 1 ≤ rep.reaching seq } rep.commitCandidate := by
  have reached : ∀ seq, seq ≤ rep.commitCandidate ↔ rep.clusterSize / 2 + 1 ≤ rep.reaching seq := by
    intro seq
    rw [← rep.countP_matchPoints_eq_reaching]
    exact rep.le_commitCandidate_iff configured seq
  exact ⟨(reached _).mp (Nat.le_refl _), fun seq enough => (reached seq).mpr enough⟩

/-- **`advanceCommitIndex` computes the quorum point.** -/
theorem advanceCommitIndex_exact {rep : Replicator} (reached : Reached rep) (leading : rep.role = .primary)
    (few : rep.backups.entries.length < rep.clusterSize) :
    ∃ point, IsGreatest { seq | rep.clusterSize / 2 + 1 ≤ rep.reaching seq } point ∧
      (rep.commitIndex < point ∧ rep.log.termAt point = some rep.term →
        rep.advanceCommitIndex.commitIndex = point) ∧
      (¬ (rep.commitIndex < point ∧ rep.log.termAt point = some rep.term) →
        rep.advanceCommitIndex.commitIndex = rep.commitIndex) ∧
      ∃ fed, Feeds rep rep.advanceCommitIndex fed := by
  obtain ⟨history, ready⟩ := reached.ready
  have moved := rep.commitIndex_advanceCommitIndex
  refine ⟨rep.commitCandidate, rep.isGreatest_commitCandidate (Nat.zero_lt_of_lt few), fun advances => ?_,
    fun stays => ?_, ?_⟩
  · rw [moved, if_pos ⟨leading, advances⟩]
  · rw [moved, if_neg fun advances => stays advances.2]
  · rcases rep.advanceCommitIndex_cases with same | ⟨_, _, ownTerm, commits⟩
    · rw [same]
      exact ⟨[], Feeds.nothing ready.fed⟩
    · rw [commits]
      obtain ⟨fed, feeds⟩ := @applyCommitted_feeds (rep.commit rep.commitCandidate) _ ready.log
        (ready.log.le_of_termAt ownTerm)
      exact ⟨fed, { feeds with }⟩

/-- The primary of three has two entries of its term. One backup has the first of them, the other claims
nine. -/
def threeNodes : Replicator :=
  let fresh : Replicator :=
    { self := 1, role := .primary, mode := .asynchronous, engine := { instrument := 1 } }
  let leading := (fresh.setClusterSize 3).setTerm 1
  { (leading.join (.cancelOrder { id := 7 })).join (.cancelOrder { id := 8 }) with
    backups := (OrderedMap.empty.insert 2 { id := 2, matchSeq := 1 }).insert 3 { id := 3, matchSeq := 9 } }

theorem reached_threeNodes : Reached threeNodes :=
  have empty : ({} : CommandLog).Continues [] := ⟨CommandLog.retains_empty, Nat.le_refl 0⟩
  .matched (.join (.join (.perform (.setClusterSize (.start empty 1 .primary .asynchronous { instrument := 1 }) 3)
    (.setTerm 1)) _) _) _

/-- Two of the three have both entries, and both are committed and applied. -/
theorem advanceCommitIndex_exact_threeNodes :
    (∃ point, IsGreatest { seq | threeNodes.clusterSize / 2 + 1 ≤ threeNodes.reaching seq } point ∧
      (threeNodes.commitIndex < point ∧ threeNodes.log.termAt point = some threeNodes.term →
        threeNodes.advanceCommitIndex.commitIndex = point) ∧
      (¬ (threeNodes.commitIndex < point ∧ threeNodes.log.termAt point = some threeNodes.term) →
        threeNodes.advanceCommitIndex.commitIndex = threeNodes.commitIndex) ∧
      ∃ fed, Feeds threeNodes threeNodes.advanceCommitIndex fed) ∧
      threeNodes.advanceCommitIndex.commitIndex = 2 ∧ threeNodes.advanceCommitIndex.lastApplied = 2 :=
  ⟨advanceCommitIndex_exact reached_threeNodes rfl (by decide), by decide +kernel, by decide +kernel⟩

end Replicator

end Sententia
