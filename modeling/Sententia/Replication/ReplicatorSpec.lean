/-
**What each method of the replicator does.** One statement a method, so that callers never unfold it.

* `Sends` — the methods that only send: everything but the bookkeeping of the backups stays, and each
  message is an `AppendEntries` that the present log backs (`AppendOf`).
* `applyCommitted_eq` — applying, over the history the log stands for.
* `advanceCommitIndex_cases`, `submit_cases`, `handleAppendResponse_cases`,
  `handleAppendEntries_cases` — the outcomes of the others.
-/

import Sententia.Library.Quorum
import Sententia.Replication.AppendFor
import Sententia.Replication.LogSpec

namespace Sententia

open Library

/-- The message carries `leader` from `prevSeq` on. -/
structure AppendEntries.Carries (msg : AppendEntries) (leader : List LogEntry) : Prop where
  inside : msg.prevSeq ≤ leader.length
  entries : msg.entries = (leader.drop msg.prevSeq).map LogEntry.record

namespace Replicator

/-! ### Sending -/

/-- Everything but the bookkeeping of the backups and the counters other than the divergence one. -/
def core (rep : Replicator) : Replicator :=
  { rep with
    backups := .empty
    stats := { checksumMismatches := rep.stats.checksumMismatches } }

/-- An `AppendEntries` that `sendAppend` can build in this state. -/
inductive AppendOf (rep : Replicator) : AppendEntries → Prop
  | head : AppendOf rep rep.headAppend
  | batch (fromSeq : Nat) (inside : fromSeq ≤ rep.log.lastSeq)
      (served : rep.log.canServeFrom fromSeq = true) : AppendOf rep (rep.batchAppend fromSeq)

theorem AppendOf.term {rep : Replicator} {msg : AppendEntries} (built : AppendOf rep msg) :
    msg.term = rep.term := by
  cases built <;> rfl

theorem AppendOf.commitSeq {rep : Replicator} {msg : AppendEntries} (built : AppendOf rep msg) :
    msg.commitSeq = rep.commitIndex := by
  cases built <;> rfl

theorem headAppend_carries {rep : Replicator} {history : List LogEntry}
    (retains : rep.log.Retains history) : rep.headAppend.Carries history := by
  have all : rep.headAppend.prevSeq = history.length := retains.lastSeq
  refine ⟨Nat.le_of_eq all, ?_⟩
  rw [all, List.drop_length]
  rfl

/-- A batch ends after `kMaxEntriesPerAppend` entries, or with the log. -/
theorem batchAppend_carries {rep : Replicator} {history : List LogEntry}
    (retains : rep.log.Retains history) {fromSeq : Nat} (inside : fromSeq ≤ rep.log.lastSeq)
    (served : rep.log.canServeFrom fromSeq = true) :
    (rep.batchAppend fromSeq).Carries (history.take (fromSeq - 1 + kMaxEntriesPerAppend)) := by
  have kept := retains.kept_of_served inside served
  rw [retains.lastSeq] at inside
  refine ⟨?_, ?_⟩
  · show fromSeq - 1 ≤ _
    rw [List.length_take]
    omega
  · show (rep.log.range fromSeq kMaxEntriesPerAppend).map LogEntry.record = _
    rw [retains.range_eq (by decide) kept inside]
    show _ = ((history.take (fromSeq - 1 + kMaxEntriesPerAppend)).drop (fromSeq - 1)).map _
    rw [List.drop_take, Nat.add_sub_cancel_left]

/-- A message carries a front of the sender's history. -/
theorem AppendOf.carries {rep : Replicator} {msg : AppendEntries} (built : AppendOf rep msg)
    {history : List LogEntry} (retains : rep.log.Retains history) :
    ∃ leader, leader <+: history ∧ msg.Carries leader := by
  cases built with
  | head => exact ⟨history, List.prefix_rfl, headAppend_carries retains⟩
  | batch fromSeq inside served =>
    exact ⟨_, List.take_prefix _ _, batchAppend_carries retains inside served⟩

/-- The predecessor term of a message is the one the sender's log has. -/
theorem AppendOf.prevTerm {rep : Replicator} {msg : AppendEntries} (built : AppendOf rep msg)
    (whole : rep.log.Whole) :
    msg.prevTerm = lastTerm LogEntry.term (rep.log.entries.take msg.prevSeq) := by
  cases built with
  | head =>
    show (rep.log.termAt rep.log.lastSeq).getD 0 = _
    rw [whole.termAt_eq_lastTerm (Nat.le_of_eq whole.lastSeq)]
    rfl
  | batch fromSeq inside served =>
    have kept := whole.retains.kept_of_served inside served
    rw [whole.lastSeq] at inside
    show (rep.log.termAt (fromSeq - 1)).getD 0 = _
    rw [whole.termAt_eq_lastTerm (by omega)]
    rfl

theorem AppendOf.of_core {rep rep' : Replicator} (same : rep'.core = rep.core) {msg : AppendEntries}
    (built : AppendOf rep' msg) : AppendOf rep msg := by
  have sameLog : rep'.log = rep.log := congrArg (·.log) same
  cases built with
  | head =>
    have sameHead : rep'.headAppend = rep.headAppend := by
      show rep'.core.headAppend = rep.core.headAppend
      rw [same]
    rw [sameHead]
    exact .head
  | batch fromSeq inside served =>
    have sameBatch : rep'.batchAppend fromSeq = rep.batchAppend fromSeq := by
      show rep'.core.batchAppend fromSeq = rep.core.batchAppend fromSeq
      rw [same]
    rw [sameBatch]
    exact .batch fromSeq (sameLog ▸ inside) (sameLog ▸ served)

/-- Every backup is filed under its own id. -/
def Named (rep : Replicator) : Prop :=
  ∀ {id backup}, rep.backups.find? id = some backup → backup.id = id

/-- From `rep` to `rep'` only sending has happened. -/
structure Sends (rep : Replicator) (net : Transport) (rep' : Replicator) (net' : Transport) : Prop where
  frame : rep'.core = rep.core
  named : rep.Named → rep'.Named
  /-- No backup is new, and none has another match point. -/
  matchSeq : ∀ {id backup}, rep'.backups.find? id = some backup →
    ∃ before, rep.backups.find? id = some before ∧ backup.matchSeq = before.matchSeq
  sent : ∀ message ∈ net'.sent, message ∈ net.sent ∨
    ∃ append, message.2 = .appendEntries append ∧ AppendOf rep append ∧
      (rep.Named → ∃ backup, rep.backups.find? message.1 = some backup)

theorem Sends.refl (rep : Replicator) (net : Transport) : Sends rep net rep net :=
  ⟨rfl, fun named => named, fun found => ⟨_, found, rfl⟩, fun _ => Or.inl⟩

theorem Sends.trans {rep rep' rep'' : Replicator} {net net' net'' : Transport}
    (first : Sends rep net rep' net') (second : Sends rep' net' rep'' net'') :
    Sends rep net rep'' net'' where
  frame := second.frame.trans first.frame
  named named := second.named (first.named named)
  matchSeq found := by
    obtain ⟨middle, found', same'⟩ := second.matchSeq found
    obtain ⟨before, found'', same''⟩ := first.matchSeq found'
    exact ⟨before, found'', same'.trans same''⟩
  sent message isSent := by
    rcases second.sent message isSent with earlier | ⟨append, content, built, target⟩
    · exact first.sent message earlier
    · refine Or.inr ⟨append, content, built.of_core first.frame, fun named => ?_⟩
      obtain ⟨backup, found⟩ := target (first.named named)
      obtain ⟨before, found', _⟩ := first.matchSeq found
      exact ⟨before, found'⟩

/-- What was sent in a step, said of the state after it. -/
theorem Sends.appends {rep rep' : Replicator} {link : Link} {net' : Transport}
    (sends : Sends rep { link } rep' net') :
    ∀ message ∈ net'.sent, ∃ append, message.2 = .appendEntries append ∧ AppendOf rep' append := by
  intro message isSent
  rcases sends.sent message isSent with earlier | ⟨append, content, built, _⟩
  · exact absurd earlier List.not_mem_nil
  · exact ⟨append, content, built.of_core sends.frame.symm⟩

/-- A counter changes. -/
theorem Sends.of_stats (rep : Replicator) (net : Transport) {stats : ReplicationStats}
    (same : stats.checksumMismatches = rep.stats.checksumMismatches) :
    Sends rep net { rep with stats } net where
  frame := by
    unfold core
    simp only [same]
  named named := named
  matchSeq found := ⟨_, found, rfl⟩
  sent _ := Or.inl

/-- What a loop body may do with the backup it is given. -/
structure SendsTo (rep : Replicator) (net : Transport) (backup : BackupState)
    (result : Replicator × Transport × BackupState) : Prop where
  frame : result.1.core = rep.core
  backups : result.1.backups = rep.backups
  id : result.2.2.id = backup.id
  matchSeq : result.2.2.matchSeq = backup.matchSeq
  sent : ∀ message ∈ result.2.1.sent, message ∈ net.sent ∨
    ∃ append, message = (backup.id, .appendEntries append) ∧ AppendOf rep append

theorem sendsTo_nothing (rep : Replicator) (net : Transport) (backup : BackupState) :
    SendsTo rep net backup (rep, net, backup) :=
  ⟨rfl, rfl, rfl, rfl, fun _ => Or.inl⟩

theorem AppendOf.of_appendFor {rep : Replicator} {backup : BackupState} {msg : AppendEntries}
    (isFor : rep.appendFor backup = some msg) : AppendOf rep msg := by
  unfold appendFor at isFor
  split_ifs at isFor with all news served
  · obtain rfl := Option.some.inj isFor
    exact .head
  · obtain rfl := Option.some.inj isFor
    exact .batch _ (Nat.le_of_not_lt all) served.1

theorem sendAppend_sendsTo (rep : Replicator) (net : Transport) (backup : BackupState) :
    SendsTo rep net backup (rep.sendAppend net backup) := by
  rcases rep.sendAppend_eq net backup with ⟨_, nothing⟩ | ⟨append, stats, same, isFor, sends⟩
  · rw [nothing]
    exact sendsTo_nothing rep net backup
  · rw [sends]
    refine ⟨?_, rfl, ?_, ?_, fun message isSent => ?_⟩
    · unfold core
      simp only [same]
    · show (if _ then backup.told append else backup).id = backup.id
      split_ifs <;> rfl
    · show (if _ then backup.told append else backup).matchSeq = backup.matchSeq
      split_ifs <;> rfl
    · rcases net.sent_send backup.id (.appendEntries append) with ⟨_, grown⟩ | ⟨_, unsent⟩
      · rw [grown, List.mem_append, List.mem_singleton] at isSent
        exact isSent.imp id fun new => ⟨append, new, .of_appendFor isFor⟩
      · rw [unsent] at isSent
        exact Or.inl isSent

/-- Filing the backup again after sending to it. -/
theorem Sends.of_sendsTo {rep : Replicator} {net : Transport} {id : NodeId}
    {backup before : BackupState} {result : Replicator × Transport × BackupState}
    (sends : SendsTo rep net backup result) (found : rep.backups.find? id = some before)
    (sameMatch : backup.matchSeq = before.matchSeq) (sameId : backup.id = before.id) :
    Sends rep net { result.1 with backups := result.1.backups.insert id result.2.2 } result.2.1 := by
  refine ⟨sends.frame, fun named => ?_, ?_, ?_⟩
  · intro other filed found'
    simp only [sends.backups] at found'
    rw [OrderedMap.find?_insert] at found'
    by_cases same : other = id
    · rw [if_pos same] at found'
      cases found'
      rw [sends.id, sameId, same]
      exact named found
    · rw [if_neg same] at found'
      exact named found'
  · intro other filed found'
    simp only [sends.backups] at found'
    rw [OrderedMap.find?_insert] at found'
    by_cases same : other = id
    · rw [if_pos same] at found'
      cases found'
      exact ⟨before, same ▸ found, sends.matchSeq.trans sameMatch⟩
    · rw [if_neg same] at found'
      exact ⟨filed, found', rfl⟩
  · intro message isSent
    rcases sends.sent message isSent with earlier | ⟨append, rfl, built⟩
    · exact Or.inl earlier
    · refine Or.inr ⟨append, rfl, built, fun named => ⟨before, ?_⟩⟩
      show rep.backups.find? backup.id = _
      rw [sameId, named found]
      exact found

/-- **The loop rule**: what the body keeps, for each backup as it is filed, the loop keeps. -/
theorem forBackups_induct (holds : Replicator → Transport → Prop)
    (body : Replicator → Transport → NodeId → BackupState → Replicator × Transport × BackupState)
    (rep : Replicator) (net : Transport) (start : holds rep net)
    (keep : ∀ rep' net' id state, rep.backups.find? id = some state → holds rep' net' →
      holds { (body rep' net' id state).1 with
        backups := (body rep' net' id state).1.backups.insert id (body rep' net' id state).2.2 }
        (body rep' net' id state).2.1) :
    holds (rep.forBackups body net).1 (rep.forBackups body net).2 := by
  unfold forBackups
  have filed : ∀ entry ∈ rep.backups.entries, rep.backups.find? entry.1 = some entry.2 :=
    fun entry member => rep.backups.find?_eq_some_iff.mpr member
  generalize rep.backups.entries = entries at filed
  generalize current : (rep, net) = state
  have now : holds state.1 state.2 := current ▸ start
  clear current start
  induction entries generalizing state with
  | nil => exact now
  | cons entry rest ih =>
    refine ih (fun other member => filed other (List.mem_cons_of_mem _ member)) _ ?_
    exact keep state.1 state.2 entry.1 entry.2 (filed entry List.mem_cons_self) now

/-- The loop rule that also sees which backups are still to come. -/
theorem forBackups_remaining (holds : List (NodeId × BackupState) → Replicator → Transport → Prop)
    (body : Replicator → Transport → NodeId → BackupState → Replicator × Transport × BackupState)
    (rep : Replicator) (net : Transport) (start : holds rep.backups.entries rep net)
    (keep : ∀ id state rest rep' net', holds ((id, state) :: rest) rep' net' →
      holds rest { (body rep' net' id state).1 with
        backups := (body rep' net' id state).1.backups.insert id (body rep' net' id state).2.2 }
        (body rep' net' id state).2.1) :
    holds [] (rep.forBackups body net).1 (rep.forBackups body net).2 := by
  unfold forBackups
  generalize rep.backups.entries = entries at start
  generalize current : (rep, net) = state
  have now : holds entries state.1 state.2 := current ▸ start
  clear current start
  induction entries generalizing state with
  | nil => exact now
  | cons entry rest ih => exact ih _ (keep entry.1 entry.2 rest state.1 state.2 now)

/-- **A loop that sends to every backup, or passes it over, sends.** -/
theorem forBackups_sends
    {body : Replicator → Transport → NodeId → BackupState → Replicator × Transport × BackupState}
    (sends : ∀ rep net id state, SendsTo rep net state (body rep net id state)) (rep : Replicator)
    (net : Transport) : Sends rep net (rep.forBackups body net).1 (rep.forBackups body net).2 := by
  -- Besides sending, the loop keeps every backup it has not reached yet.
  have loop := forBackups_induct (fun rep' net' => Sends rep net rep' net' ∧
    ∀ id state, rep.backups.find? id = some state →
      ∃ filed, rep'.backups.find? id = some filed ∧ state.matchSeq = filed.matchSeq ∧
        state.id = filed.id) body rep net
    ⟨Sends.refl rep net, fun id state found => ⟨state, found, rfl, rfl⟩⟩ ?_
  · exact loop.1
  · rintro rep' net' id state found ⟨soFar, filed⟩
    obtain ⟨before, found', sameMatch, sameId⟩ := filed id state found
    have once := sends rep' net' id state
    refine ⟨soFar.trans (Sends.of_sendsTo once found' sameMatch sameId), fun other state' isFiled => ?_⟩
    by_cases same : other = id
    · subst same
      rw [found] at isFiled
      cases isFiled
      refine ⟨(body rep' net' other state).2.2, ?_, once.matchSeq.symm, once.id.symm⟩
      exact OrderedMap.find?_insert_self _ _ _
    · obtain ⟨filed', isThere, sameMatch', sameId'⟩ := filed other state' isFiled
      refine ⟨filed', ?_, sameMatch', sameId'⟩
      show ((body rep' net' id state).1.backups.insert id _).find? other = _
      rw [once.backups, OrderedMap.find?_insert, if_neg same]
      exact isThere

/-! ### The sending methods -/

/-- **`tick` sends.** -/
theorem tick_sends (rep : Replicator) (net : Transport) :
    Sends rep net (rep.tick net).1 (rep.tick net).2 := by
  unfold tick
  by_cases leading : rep.role = .primary
  · rw [if_neg (not_not.mpr leading)]
    refine forBackups_sends (fun rep net id state => ?_) rep net
    split_ifs
    · exact sendsTo_nothing _ _ _
    · exact sendAppend_sendsTo _ _ _
    · exact sendsTo_nothing _ _ _
  · rw [if_pos leading]
    exact Sends.refl rep net

/-- A backup that comes up is filed afresh, with the match point it had. -/
def greet (rep : Replicator) (id : NodeId) : Replicator :=
  { rep with
    backups := rep.backups.insert id
      { (rep.backups.find? id).getD {} with id, probing := true, lastSent := 0 } }

/-- **`onPeerUp`** on a primary files the backup and probes it. -/
theorem onPeerUp_sends {rep : Replicator} (leading : rep.role = .primary) (net : Transport)
    (id : NodeId) :
    Sends (rep.greet id) net (rep.onPeerUp net id).1 (rep.onPeerUp net id).2 := by
  unfold onPeerUp sendProbe
  rw [if_neg (not_not.mpr leading)]
  refine ⟨rfl, fun named => named, fun found => ⟨_, found, rfl⟩, fun message isSent => ?_⟩
  rcases net.sent_send id (.appendEntries (rep.greet id).headAppend) with ⟨_, grown⟩ | ⟨_, same⟩
  · replace isSent := grown ▸ isSent
    rw [List.mem_append, List.mem_singleton] at isSent
    refine isSent.imp (fun earlier => earlier) fun new => ?_
    subst new
    exact ⟨_, rfl, .head, fun _ => ⟨_, OrderedMap.find?_insert_self _ _ _⟩⟩
  · exact Or.inl (same ▸ isSent)

/-! ### Applying -/

/-- Hand a list of entries to the engine, in order. -/
def applyEntries (rep : Replicator) (entries : List LogEntry) : Replicator :=
  { rep with
    engine := (rep.engine.applyAll (entries.map (·.command))).1
    lastApplied := (entries.getLast?.map (·.seq)).getD rep.lastApplied
    applied := rep.applied ++ entries
    stats := { rep.stats with applied := rep.stats.applied + entries.length } }

theorem applyEntries_nil (rep : Replicator) : rep.applyEntries [] = rep := by
  unfold applyEntries
  simp [MatchingEngine.applyAll]

theorem applyEntries_cons (rep : Replicator) (entry : LogEntry) (rest : List LogEntry) :
    rep.applyEntries (entry :: rest) = (rep.applyNext entry).applyEntries rest := by
  have last : (entry :: rest).getLast?.map (·.seq) =
      some ((rest.getLast?.map (·.seq)).getD entry.seq) := by
    cases rest with
    | nil => rfl
    | cons second others =>
      rw [List.getLast?_cons_cons]
      cases found : (second :: others).getLast? with
      | none => simp at found
      | some final => rfl
  unfold applyEntries applyNext
  simp only [last, Option.getD_some, List.map_cons, MatchingEngine.applyAll, List.append_assoc,
    List.singleton_append, List.length_cons]
  rw [Nat.add_assoc, Nat.add_comm 1]

/-- The loop of `applyCommitted` over the history the log stands for. -/
theorem applyLoop_eq {rep : Replicator} {history : List LogEntry}
    (retains : rep.log.Retains history) (kept : rep.log.truncatedThrough ≤ rep.lastApplied)
    (inside : rep.commitIndex ≤ history.length) (fuel : Nat)
    (enough : rep.commitIndex - rep.lastApplied ≤ fuel) :
    applyLoop fuel rep =
      rep.applyEntries ((history.take rep.commitIndex).drop rep.lastApplied) := by
  induction fuel generalizing rep with
  | zero =>
    have none : (history.take rep.commitIndex).drop rep.lastApplied = [] := by
      rw [List.drop_eq_nil_iff, List.length_take]
      omega
    rw [none, applyEntries_nil]
    rfl
  | succ fuel ih =>
    unfold applyLoop
    by_cases behind : rep.lastApplied < rep.commitIndex
    · have found : rep.log.at? (rep.lastApplied + 1) = some history[rep.lastApplied] := by
        rw [retains.at?_eq, if_pos (by omega), Nat.add_sub_cancel]
        exact List.getElem?_eq_getElem _
      have seq := retains.numbered rep.lastApplied (by omega)
      have slice : (history.take rep.commitIndex).drop rep.lastApplied =
          history[rep.lastApplied] :: (history.take rep.commitIndex).drop (rep.lastApplied + 1) := by
        rw [List.drop_eq_getElem_cons (by rw [List.length_take]; omega), List.getElem_take]
      have next : (rep.applyNext history[rep.lastApplied]).lastApplied = rep.lastApplied + 1 := seq
      have kept' : rep.log.truncatedThrough ≤
          (rep.applyNext history[rep.lastApplied]).lastApplied := by
        rw [next]
        exact Nat.le_succ_of_le kept
      have enough' : rep.commitIndex - (rep.applyNext history[rep.lastApplied]).lastApplied ≤
          fuel := by
        rw [next]
        omega
      have later : applyLoop fuel (rep.applyNext history[rep.lastApplied]) = _ :=
        ih retains kept' inside enough'
      rw [if_pos behind, found, slice, applyEntries_cons]
      simp only
      rw [later, next]
      rfl
    · have none : (history.take rep.commitIndex).drop rep.lastApplied = [] := by
        rw [List.drop_eq_nil_iff, List.length_take]
        omega
      rw [if_neg behind, none, applyEntries_nil]

/-- **`applyCommitted`** hands the engine exactly the committed entries it has not seen. -/
theorem applyCommitted_eq {rep : Replicator} {history : List LogEntry}
    (retains : rep.log.Retains history) (kept : rep.log.truncatedThrough ≤ rep.lastApplied)
    (inside : rep.commitIndex ≤ history.length) :
    rep.applyCommitted =
      rep.applyEntries ((history.take rep.commitIndex).drop rep.lastApplied) :=
  applyLoop_eq retains kept inside _ (Nat.le_refl _)

/-- After applying, nothing committed is left to apply. -/
theorem lastApplied_applyEntries {rep : Replicator} {history : List LogEntry}
    (numbered : Numbered history) (inside : rep.commitIndex ≤ history.length) :
    (rep.applyEntries ((history.take rep.commitIndex).drop rep.lastApplied)).lastApplied =
      max rep.lastApplied rep.commitIndex := by
  show ((((history.take rep.commitIndex).drop rep.lastApplied).getLast?).map (·.seq)).getD
    rep.lastApplied = _
  cases last : ((history.take rep.commitIndex).drop rep.lastApplied).getLast? with
  | none =>
    have empty := List.getLast?_eq_none_iff.mp last
    rw [List.drop_eq_nil_iff, List.length_take] at empty
    show rep.lastApplied = _
    omega
  | some entry =>
    rw [List.getLast?_eq_getElem?, List.getElem?_drop] at last
    have bound := (List.getElem?_eq_some_iff.mp last).1
    have seq := (numbered.take rep.commitIndex).seq_of_getElem? last
    show entry.seq = _
    rw [List.length_drop] at bound seq
    rw [List.length_take] at bound seq
    omega

/-! ### Committing -/

/-- **The commit candidate is the quorum point**: it reaches `seq` exactly when a majority of the
match points do. -/
theorem le_commitCandidate_iff (rep : Replicator) (configured : 0 < rep.clusterSize) (seq : Nat) :
    seq ≤ rep.commitCandidate ↔
      rep.majority ≤ rep.matchPoints.countP fun point => seq ≤ point := by
  have inside : rep.majority - 1 < rep.matchPoints.length := by
    unfold majority matchPoints
    rw [List.length_append, List.length_replicate]
    omega
  unfold commitCandidate
  rw [le_sorted_iff _ _ _ inside]
  unfold majority
  omega

/-- The backups whose match point reaches `seq`. -/
def supporters (rep : Replicator) (seq : Nat) : List NodeId :=
  (rep.backups.entries.filter fun backup => seq ≤ backup.2.matchSeq).map Prod.fst

theorem mem_supporters {rep : Replicator} {seq : Nat} {id : NodeId} :
    id ∈ rep.supporters seq ↔
      ∃ backup, rep.backups.find? id = some backup ∧ seq ≤ backup.matchSeq := by
  unfold supporters
  simp only [List.mem_map, List.mem_filter, decide_eq_true_eq]
  constructor
  · rintro ⟨⟨other, backup⟩, ⟨member, reached⟩, rfl⟩
    exact ⟨backup, rep.backups.find?_eq_some_iff.mpr member, reached⟩
  · rintro ⟨backup, found, reached⟩
    exact ⟨(id, backup), ⟨rep.backups.find?_eq_some_iff.mp found, reached⟩, rfl⟩

theorem supporters_nodup (rep : Replicator) (seq : Nat) : (rep.supporters seq).Nodup :=
  rep.backups.keys_nodup.sublist (List.filter_sublist.map Prod.fst)

/-- The match points that reach `seq` are the leader's own, if it does, and the supporters'. -/
theorem countP_matchPoints (rep : Replicator) {seq : Nat} (positive : 0 < seq) :
    (rep.matchPoints.countP fun point => seq ≤ point) =
      (rep.supporters seq).length + if seq ≤ rep.log.lastSeq then 1 else 0 := by
  have padding : ∀ count, (List.replicate count 0).countP (fun point => decide (seq ≤ point)) = 0 := by
    intro count
    rw [List.countP_replicate, if_neg (by simp; omega)]
  unfold matchPoints supporters
  simp only [List.countP_append, padding, Nat.add_zero, List.countP_cons, List.countP_map,
    List.length_map, decide_eq_true_eq]
  rw [List.countP_eq_length_filter]
  rfl

/-- The nodes, this one included, whose match points reach a sequence number. -/
def holders (rep : Replicator) (seq : Nat) : List NodeId :=
  if seq ≤ rep.log.lastSeq then rep.self :: rep.supporters seq else rep.supporters seq

/-- **The commit rule**: the candidate is the highest sequence a majority of the configured size
reaches. -/
theorem le_commitCandidate_iff_holders (rep : Replicator) (configured : 0 < rep.clusterSize) {seq : Nat}
    (positive : 0 < seq) : seq ≤ rep.commitCandidate ↔ rep.majority ≤ (rep.holders seq).length := by
  rw [rep.le_commitCandidate_iff configured, rep.countP_matchPoints positive]
  unfold holders
  by_cases own : seq ≤ rep.log.lastSeq
  · rw [if_pos own, if_pos own, List.length_cons]
  · rw [if_neg own, if_neg own, Nat.add_zero]

/-- A new commit point. -/
def commit (rep : Replicator) (seq : Nat) : Replicator :=
  { rep with
    commitIndex := seq
    stats := { rep.stats with commitAdvances := rep.stats.commitAdvances + 1 } }

/-- **`advanceCommitIndex`** does nothing, or commits the candidate and applies. -/
theorem advanceCommitIndex_cases (rep : Replicator) :
    rep.advanceCommitIndex = rep ∨
      (rep.role = .primary ∧ rep.commitIndex < rep.commitCandidate ∧
        rep.log.termAt rep.commitCandidate = some rep.term ∧
          rep.advanceCommitIndex = (rep.commit rep.commitCandidate).applyCommitted) := by
  unfold advanceCommitIndex
  by_cases leading : rep.role = .primary
  · rw [if_neg (not_not.mpr leading)]
    by_cases old : rep.commitCandidate ≤ rep.commitIndex
    · refine Or.inl ?_
      simp only [if_pos old]
    · simp only [if_neg old]
      by_cases ownTerm : rep.log.termAt rep.commitCandidate = some rep.term
      · rw [if_neg (not_not.mpr ownTerm)]
        exact Or.inr ⟨leading, Nat.lt_of_not_le old, ownTerm, rfl⟩
      · rw [if_pos ownTerm]
        exact Or.inl rfl
  · rw [if_pos leading]
    exact Or.inl rfl

/-- The part of the state that applying does not touch. -/
theorem applyLoop_frame (fuel : Nat) (rep : Replicator) :
    ∃ engine lastApplied applied stats, stats.checksumMismatches = rep.stats.checksumMismatches ∧
      applyLoop fuel rep = { rep with engine, lastApplied, applied, stats } := by
  induction fuel generalizing rep with
  | zero => exact ⟨rep.engine, rep.lastApplied, rep.applied, rep.stats, rfl, rfl⟩
  | succ fuel ih =>
    unfold applyLoop
    split_ifs
    · cases found : rep.log.at? (rep.lastApplied + 1) with
      | none => exact ⟨rep.engine, rep.lastApplied, rep.applied, rep.stats, rfl, rfl⟩
      | some entry =>
        obtain ⟨engine, lastApplied, applied, stats, same, equation⟩ := ih (rep.applyNext entry)
        exact ⟨engine, lastApplied, applied, stats, same, equation⟩
    · exact ⟨rep.engine, rep.lastApplied, rep.applied, rep.stats, rfl, rfl⟩

/-- What committing leaves alone. -/
theorem advanceCommitIndex_frame (rep : Replicator) :
    ∃ engine lastApplied commitIndex applied stats,
      stats.checksumMismatches = rep.stats.checksumMismatches ∧
        rep.advanceCommitIndex = { rep with engine, lastApplied, commitIndex, applied, stats } := by
  rcases rep.advanceCommitIndex_cases with same | ⟨_, _, _, commits⟩
  · exact ⟨rep.engine, rep.lastApplied, rep.commitIndex, rep.applied, rep.stats, rfl, same⟩
  · obtain ⟨engine, lastApplied, applied, stats, same, equation⟩ :=
      applyLoop_frame _ (rep.commit rep.commitCandidate)
    rw [commits]
    exact ⟨engine, lastApplied, rep.commitCandidate, applied, stats, same, equation⟩

/-- Where `advanceCommitIndex` takes the commit point. -/
theorem commitIndex_advanceCommitIndex (rep : Replicator) :
    rep.advanceCommitIndex.commitIndex =
      if rep.role = .primary ∧ rep.commitIndex < rep.commitCandidate ∧
        rep.log.termAt rep.commitCandidate = some rep.term then rep.commitCandidate
      else rep.commitIndex := by
  have applies : ∀ rep : Replicator, rep.applyCommitted.commitIndex = rep.commitIndex := by
    intro rep
    obtain ⟨_, _, _, _, _, equation⟩ := applyLoop_frame (rep.commitIndex - rep.lastApplied) rep
    have applied : rep.applyCommitted = _ := equation
    rw [applied]
  unfold advanceCommitIndex
  by_cases leading : rep.role = .primary
  · by_cases more : rep.commitIndex < rep.commitCandidate
    · by_cases ownTerm : rep.log.termAt rep.commitCandidate = some rep.term
      · simp [leading, more, Nat.not_le.mpr more, ownTerm, applies]
      · simp [leading, Nat.not_le.mpr more, ownTerm]
    · simp [leading, more, Nat.le_of_not_lt more]
  · simp [leading]

/-- The commit point never goes back. -/
theorem le_commitIndex_advanceCommitIndex (rep : Replicator) :
    rep.commitIndex ≤ rep.advanceCommitIndex.commitIndex := by
  rw [commitIndex_advanceCommitIndex]
  split_ifs with advances
  · exact Nat.le_of_lt advances.2.1
  · exact Nat.le_refl _

/-! ### Submitting -/

/-- The command joins the log. -/
def join (rep : Replicator) (cmd : Command) : Replicator :=
  { rep with
    log := (rep.log.append cmd rep.term).1
    stats := { rep.stats with submitted := rep.stats.submitted + 1 } }

/-- A cluster of one commits at once. -/
theorem accept_cases (rep : Replicator) (cmd : Command) :
    rep.accept cmd = rep.join cmd ∨ rep.accept cmd = (rep.join cmd).advanceCommitIndex := by
  by_cases alone : rep.clusterSize = 1
  · exact Or.inr (if_pos alone)
  · exact Or.inl (if_neg alone)

theorem accept_frame (rep : Replicator) (cmd : Command) :
    ∃ engine lastApplied commitIndex applied stats, rep.accept cmd =
      { rep with
        log := (rep.log.append cmd rep.term).1
        engine, lastApplied, commitIndex, applied, stats } := by
  rcases rep.accept_cases cmd with plain | alone
  · exact ⟨rep.engine, rep.lastApplied, rep.commitIndex, rep.applied, _, plain⟩
  · obtain ⟨engine, lastApplied, commitIndex, applied, stats, _, equation⟩ :=
      (rep.join cmd).advanceCommitIndex_frame
    exact ⟨engine, lastApplied, commitIndex, applied, stats, alone.trans equation⟩

/-- An accepted command is one more entry of the node's term. -/
theorem Sends.accepted {rep rep' : Replicator} {net net' : Transport} {cmd : Command}
    (sends : Sends (rep.accept cmd) net rep' net') (whole : rep.log.Whole) :
    rep'.term = rep.term ∧ rep'.role = rep.role ∧ rep'.log.Whole ∧
      ∃ entry : LogEntry, entry.term = rep.term ∧ rep'.log.entries = rep.log.entries ++ [entry] := by
  obtain ⟨_, _, _, _, _, accepts⟩ := rep.accept_frame cmd
  have log : rep'.log = (rep.log.append cmd rep.term).1 := by
    have same : rep'.log = (rep.accept cmd).log := congrArg (·.log) sends.frame
    rw [same, accepts]
  have term : rep'.term = rep.term := by
    have same : rep'.term = (rep.accept cmd).term := congrArg (·.term) sends.frame
    rw [same, accepts]
  have role : rep'.role = rep.role := by
    have same : rep'.role = (rep.accept cmd).role := congrArg (·.role) sends.frame
    rw [same, accepts]
  rw [log]
  exact ⟨term, role, whole.append cmd rep.term, _, rfl, whole.entries_append cmd rep.term⟩

/-- **`submit`** refuses, or accepts and sends. -/
theorem submit_cases (rep : Replicator) (net : Transport) (cmd : Command) :
    (Sends rep net (rep.submit net cmd).1 (rep.submit net cmd).2.1 ∧
        (rep.submit net cmd).2.2.status ≠ .accepted ∧ (rep.submit net cmd).2.1 = net) ∨
      (rep.role = .primary ∧
        Sends (rep.accept cmd) net (rep.submit net cmd).1 (rep.submit net cmd).2.1 ∧
          (rep.submit net cmd).2.2.status = .accepted) := by
  unfold submit
  by_cases leading : rep.role = .primary
  · simp only [if_neg (not_not.mpr leading)]
    split_ifs
    · exact Or.inl ⟨Sends.of_stats rep net rfl, nofun, rfl⟩
    · exact Or.inl ⟨Sends.of_stats rep net rfl, nofun, rfl⟩
    · exact Or.inl ⟨Sends.of_stats rep net rfl, nofun, rfl⟩
    · refine Or.inr ⟨leading, forBackups_sends (fun rep net id state => ?_) _ net, rfl⟩
      split_ifs
      · exact sendsTo_nothing _ _ _
      · exact sendAppend_sendsTo _ _ _
  · rw [if_pos leading]
    exact Or.inl ⟨Sends.refl rep net, nofun, rfl⟩

/-! ### Responses -/

theorem followUp_sends (rep : Replicator) {source : NodeId} {backup : BackupState}
    (filed : rep.backups.find? source = some backup) (net : Transport) :
    Sends rep net (rep.followUp net source backup).1 (rep.followUp net source backup).2 := by
  unfold followUp
  split_ifs
  · exact Sends.of_sendsTo (sendAppend_sendsTo rep net backup) filed rfl rfl
  · exact Sends.refl rep net

/-- The response is taken note of; the commit point is as it was. -/
def noted (rep : Replicator) (source : NodeId) (msg : AppendResponse) : Replicator :=
  { rep with backups := rep.backups.insert source (rep.respondent source msg) }

/-- The state of a node that has taken note of a response, before it sends more. -/
def noteResponse (rep : Replicator) (source : NodeId) (msg : AppendResponse) : Replicator :=
  (rep.noted source msg).advanceCommitIndex

/-- The response is filed when it is noted. -/
theorem find?_noteResponse (rep : Replicator) (source : NodeId) (msg : AppendResponse) :
    (rep.noteResponse source msg).backups.find? source = some (rep.respondent source msg) := by
  obtain ⟨_, _, _, _, _, _, equation⟩ := (rep.noted source msg).advanceCommitIndex_frame
  unfold noteResponse
  rw [equation]
  exact OrderedMap.find?_insert_self _ _ _

/-- A response of no later term is noted, perhaps counted as a divergence, and followed up. -/
theorem handleAppendResponse_current {rep : Replicator} {msg : AppendResponse}
    (current : msg.term ≤ rep.term) (net : Transport) (source : NodeId) :
    ∃ stats : ReplicationStats, rep.handleAppendResponse net source msg =
        followUp { rep.noteResponse source msg with stats } net source (rep.respondent source msg) ∧
      ((msg.lastApplied = (rep.noteResponse source msg).lastApplied →
          msg.stateChecksum = (rep.noteResponse source msg).engine.stateChecksum) →
        stats = (rep.noteResponse source msg).stats) := by
  unfold handleAppendResponse
  rw [if_neg (Nat.not_lt.mpr current)]
  have folded : ({ rep with
      backups := rep.backups.insert source (rep.respondent source msg) } :
        Replicator).advanceCommitIndex = rep.noteResponse source msg := rfl
  simp only [folded]
  generalize rep.noteResponse source msg = noted
  rw [show (rep.respondent source msg).lastApplied = msg.lastApplied from rfl,
    show (rep.respondent source msg).lastChecksum = msg.stateChecksum from rfl]
  by_cases diverged : msg.lastApplied = noted.lastApplied ∧
      msg.stateChecksum ≠ noted.engine.stateChecksum
  · rw [if_pos diverged]
    exact ⟨_, rfl, fun agree => absurd (agree diverged.1) diverged.2⟩
  · rw [if_neg diverged]
    exact ⟨noted.stats, rfl, fun _ => rfl⟩

/-- **`handleAppendResponse`** ignores a response of a later term; else it takes note, perhaps counts
a divergence, and perhaps sends. -/
theorem handleAppendResponse_cases (rep : Replicator) (net : Transport) (source : NodeId)
    (msg : AppendResponse) :
    (rep.term < msg.term ∧ Sends rep net (rep.handleAppendResponse net source msg).1
        (rep.handleAppendResponse net source msg).2 ∧
          (rep.handleAppendResponse net source msg).2 = net) ∨
      (msg.term ≤ rep.term ∧ ∃ stats : ReplicationStats,
        Sends { rep.noteResponse source msg with stats } net
          (rep.handleAppendResponse net source msg).1
          (rep.handleAppendResponse net source msg).2 ∧
        ((msg.lastApplied = (rep.noteResponse source msg).lastApplied →
            msg.stateChecksum = (rep.noteResponse source msg).engine.stateChecksum) →
          stats = (rep.noteResponse source msg).stats)) := by
  by_cases later : msg.term > rep.term
  · have ignores : rep.handleAppendResponse net source msg = _ := if_pos later
    rw [ignores]
    exact Or.inl ⟨later, Sends.of_stats rep net rfl, rfl⟩
  · have current := Nat.le_of_not_lt later
    obtain ⟨stats, equation, agrees⟩ := handleAppendResponse_current current net source
    rw [equation]
    have filed := rep.find?_noteResponse source msg
    exact Or.inr ⟨current, stats,
      followUp_sends { rep.noteResponse source msg with stats } filed net, agrees⟩

/-! ### Match points -/

/-- What is filed about the backups, as far as it is a name and a match point. -/
def Files (allowed : NodeId → Nat → Prop) (rep : Replicator) : Prop :=
  ∀ id backup, rep.backups.find? id = some backup → allowed id backup.matchSeq

/-- Every match point is within a bound that depends on its backup. -/
def MatchedBy (bound : NodeId → Nat) (rep : Replicator) : Prop :=
  rep.Files fun id seq => seq ≤ bound id

section MatchPoints

variable {allowed : NodeId → Nat → Prop} {rep : Replicator}

theorem MatchedBy.mono {bound bound' : NodeId → Nat} (matched : rep.MatchedBy bound)
    (more : ∀ id, bound id ≤ bound' id) : rep.MatchedBy bound' :=
  fun id backup found => (matched id backup found).trans (more id)

namespace Files

theorem of_sends (files : rep.Files allowed) {rep' : Replicator} {net net' : Transport}
    (sends : Sends rep net rep' net') : rep'.Files allowed := by
  intro id backup found
  obtain ⟨before, found', same⟩ := sends.matchSeq found
  rw [same]
  exact files _ _ found'

theorem insert (files : rep.Files allowed) {id : NodeId} {backup : BackupState}
    (reached : allowed id backup.matchSeq) :
    ({ rep with backups := rep.backups.insert id backup } : Replicator).Files allowed := by
  intro any filed found
  replace found := (OrderedMap.find?_insert rep.backups id any backup).symm.trans found
  by_cases same : any = id
  · rw [if_pos same] at found
    cases found
    rw [same]
    exact reached
  · rw [if_neg same] at found
    exact files _ _ found

/-- What is known of a backup, known or not. -/
theorem getD (files : rep.Files allowed) {id : NodeId} (unknown : allowed id 0)
    {fresh : BackupState} (unmatched : fresh.matchSeq = 0) :
    allowed id ((rep.backups.find? id).getD fresh).matchSeq := by
  cases found : rep.backups.find? id with
  | none =>
    show allowed id fresh.matchSeq
    rw [unmatched]
    exact unknown
  | some backup => exact files _ _ found

theorem onPeerUp (files : rep.Files allowed) (net : Transport) {id : NodeId}
    (unknown : allowed id 0) : (rep.onPeerUp net id).1.Files allowed := by
  by_cases leading : rep.role = .primary
  · have known : allowed id ((rep.backups.find? id).getD {}).matchSeq := files.getD unknown rfl
    have greeted : (rep.greet id).Files allowed := files.insert known
    exact greeted.of_sends (onPeerUp_sends leading net id)
  · have idle : rep.onPeerUp net id = (rep, net) := if_pos leading
    rw [idle]
    exact files

theorem onPeerDown (files : rep.Files allowed) (id : NodeId) : (rep.onPeerDown id).Files allowed := by
  intro any filed found
  replace found := (OrderedMap.find?_erase rep.backups id any).symm.trans found
  split at found
  · cases found
  · exact files _ _ found

/-- A response sets the match point of its backup at most to the log head it claims. -/
theorem handleAppendResponse (files : rep.Files allowed) (net : Transport) {source : NodeId}
    {msg : AppendResponse} (unknown : allowed source 0)
    (reached : msg.ok = true → msg.term ≤ rep.term → allowed source msg.lastLogSeq) :
    (rep.handleAppendResponse net source msg).1.Files allowed := by
  rcases rep.handleAppendResponse_cases net source msg with ⟨_, sends, _⟩ | ⟨current, stats, sends, _⟩
  · exact files.of_sends sends
  · obtain ⟨engine, lastApplied, commitIndex, applied, stats', _, equation⟩ := 
      (rep.noted source msg).advanceCommitIndex_frame
    have noted : rep.noteResponse source msg = _ := equation
    rw [noted] at sends
    have respondent : allowed source (rep.respondent source msg).matchSeq := by
      show allowed source (if msg.ok then msg.lastLogSeq else _)
      split_ifs with ok
      · exact reached ok current
      · exact files.getD unknown rfl
    intro id backup found
    obtain ⟨before, found', same⟩ := sends.matchSeq found
    rw [same]
    exact files.insert respondent id before found'

/-- A node that changes its role forgets every match point. -/
theorem setRole (files : rep.Files allowed) (forgets : ∀ {id seq}, allowed id seq → allowed id 0)
    (role : Role) : (rep.setRole role).Files allowed := by
  unfold Replicator.setRole
  split_ifs
  · exact files
  · intro id backup found
    replace found := (OrderedMap.find?_mapValues rep.backups BackupState.forget id).symm.trans found
    obtain ⟨before, found', rfl⟩ := Option.map_eq_some_iff.mp found
    exact forgets (files id before found')

end Files

/-- A node that becomes primary knows no match point. -/
theorem matchedBy_setRole (following : rep.role ≠ .primary) (bound : NodeId → Nat) :
    (rep.setRole .primary).MatchedBy bound := by
  intro id backup found
  have changed : rep.setRole .primary = _ := if_neg following.symm
  rw [changed] at found
  replace found := (OrderedMap.find?_mapValues rep.backups BackupState.forget id).symm.trans found
  obtain ⟨before, _, rfl⟩ := Option.map_eq_some_iff.mp found
  exact Nat.zero_le _

end MatchPoints

/-! ### Steps that keep the log -/

/-- The step keeps log, role and term, and all it sends are `AppendEntries` of its new state. -/
structure Steady (rep : Replicator) (result : Replicator × Transport) : Prop where
  log : result.1.log = rep.log
  role : result.1.role = rep.role
  term : result.1.term = rep.term
  appends : ∀ message ∈ result.2.sent, ∃ append, message.2 = .appendEntries append ∧
    AppendOf result.1 append

/-- Sending from a state with the same log, role and term. -/
theorem Sends.steady {rep middle : Replicator} {result : Replicator × Transport} {link : Link}
    (sends : Sends middle { link } result.1 result.2) (log : middle.log = rep.log)
    (role : middle.role = rep.role) (term : middle.term = rep.term) : Steady rep result where
  log := (congrArg (·.log) sends.frame).trans log
  role := (congrArg (·.role) sends.frame).trans role
  term := (congrArg (·.term) sends.frame).trans term
  appends := sends.appends

theorem steady_silent {rep rep' : Replicator} {link : Link} (log : rep'.log = rep.log)
    (role : rep'.role = rep.role) (term : rep'.term = rep.term) : Steady rep (rep', { link }) :=
  (Sends.refl rep' { link }).steady log role term

theorem tick_steady (rep : Replicator) (link : Link) : Steady rep (rep.tick { link }) :=
  (rep.tick_sends { link }).steady rfl rfl rfl

theorem onPeerUp_steady (rep : Replicator) (link : Link) (id : NodeId) :
    Steady rep (rep.onPeerUp { link } id) := by
  by_cases leading : rep.role = .primary
  · exact (onPeerUp_sends leading { link } id).steady rfl rfl rfl
  · have idle : rep.onPeerUp { link } id = (rep, { link }) := if_pos leading
    rw [idle]
    exact steady_silent rfl rfl rfl

theorem handleAppendResponse_steady (rep : Replicator) (link : Link) (source : NodeId)
    (msg : AppendResponse) : Steady rep (rep.handleAppendResponse { link } source msg) := by
  rcases rep.handleAppendResponse_cases { link } source msg with ⟨_, sends, _⟩ | ⟨_, stats, sends, _⟩
  · exact sends.steady rfl rfl rfl
  · obtain ⟨engine, lastApplied, commitIndex, applied, stats', _, equation⟩ := 
      (rep.noted source msg).advanceCommitIndex_frame
    have noted : rep.noteResponse source msg = _ := equation
    rw [noted] at sends
    exact sends.steady rfl rfl rfl

/-- Only an `AppendEntries` can change the log. -/
theorem onMessage_steady (rep : Replicator) (link : Link) (source : NodeId) {message : Message}
    (other : ∀ msg, message ≠ .appendEntries msg) : Steady rep (rep.onMessage { link } source message) := by
  cases message with
  | appendEntries msg => exact absurd rfl (other msg)
  | appendResponse msg => exact rep.handleAppendResponse_steady link source msg
  | hello msg => exact steady_silent rfl rfl rfl
  | heartbeat msg => exact steady_silent rfl rfl rfl
  | commandForward msg => exact steady_silent rfl rfl rfl
  | eventAck msg => exact steady_silent rfl rfl rfl
  | requestVote msg => exact steady_silent rfl rfl rfl
  | voteResponse msg => exact steady_silent rfl rfl rfl

/-! ### A node that does not lead -/

theorem tick_idle {rep : Replicator} (following : rep.role ≠ .primary) (net : Transport) :
    rep.tick net = (rep, net) := if_pos following

theorem onPeerUp_idle {rep : Replicator} (following : rep.role ≠ .primary) (net : Transport)
    (id : NodeId) : rep.onPeerUp net id = (rep, net) := if_pos following

theorem submit_idle {rep : Replicator} (following : rep.role ≠ .primary) (net : Transport)
    (cmd : Command) : rep.submit net cmd = (rep, net, { status := .notPrimary }) := if_pos following

/-- There is a message that `sendAppend` would build: a bare commit point for a backup that has been sent
everything, else entries that the log still has. -/
def hasAppend (rep : Replicator) (backup : BackupState) : Prop :=
  if backup.nextSeq > rep.log.lastSeq then
    rep.commitIndex > backup.lastCommitSent
  else rep.log.canServeFrom backup.nextSeq = true ∧
    (rep.batchAppend backup.nextSeq).entries ≠ []

instance (rep : Replicator) (backup : BackupState) : Decidable (rep.hasAppend backup) := by
  unfold hasAppend
  infer_instance

/-- A send at the start of a call. -/
theorem sent_send_eq_nil (link : Link) (target : NodeId) (msg : Message) :
    (({ link } : Transport).send target msg).1.sent = [] ↔ link.sendResult 0 ≠ .ok := by
  unfold Transport.send
  cases link.sendResult 0 with
  | ok => simp
  | notConnected => simp
  | wouldOverflow => simp

theorem hasAppend_iff (rep : Replicator) (backup : BackupState) :
    rep.hasAppend backup ↔ rep.appendFor backup ≠ none := by
  unfold hasAppend appendFor
  split_ifs <;> simp_all

/-- **`sendAppend`** sends exactly if there is a message and the transport accepts it. -/
theorem sent_sendAppend_eq_nil (rep : Replicator) (link : Link) (backup : BackupState) :
    (rep.sendAppend { link } backup).2.1.sent = [] ↔
      (rep.hasAppend backup → link.sendResult 0 ≠ .ok) := by
  rw [hasAppend_iff]
  rcases rep.sendAppend_eq { link } backup with ⟨nothing, same⟩ | ⟨msg, _, _, isFor, sends⟩
  · rw [same]
    exact iff_of_true rfl fun has => absurd nothing has
  · have has : rep.appendFor backup ≠ none := by
      rw [isFor]
      exact nofun
    rw [sends]
    exact (sent_send_eq_nil link backup.id _).trans
      ⟨fun refused _ => refused, fun refused => refused has⟩

/-- **A backup that handles a response** sends exactly if the response is not of a later term, there is
something to send, and the transport accepts it. -/
theorem handleAppendResponse_sent_eq_nil {rep : Replicator} (following : rep.role ≠ .primary)
    (link : Link) (source : NodeId) (msg : AppendResponse) :
    (rep.handleAppendResponse { link } source msg).2.sent = [] ↔
      (msg.term ≤ rep.term → rep.needsAppend (rep.respondent source msg) = true →
        rep.hasAppend (rep.respondent source msg) → link.sendResult 0 ≠ .ok) := by
  by_cases later : msg.term > rep.term
  · have ignores : rep.handleAppendResponse { link } source msg = _ := if_pos later
    rw [ignores]
    exact iff_of_true rfl fun current => absurd current (Nat.not_le.mpr later)
  · have notLater := Nat.le_of_not_lt later
    have idle : rep.noteResponse source msg = rep.noted source msg := if_pos following
    obtain ⟨stats, equation, _⟩ := handleAppendResponse_current notLater { link } source
    rw [equation, idle]
    refine Iff.trans ?_ (show _ ↔ (msg.term ≤ rep.term → _) from
      ⟨fun given _ => given, fun given => given notLater⟩)
    unfold followUp
    by_cases needed : rep.needsAppend (rep.respondent source msg) = true
    · have needed' : ({ rep.noted source msg with stats } : Replicator).needsAppend
          (rep.respondent source msg) = true := needed
      rw [if_pos needed']
      refine (sent_sendAppend_eq_nil { rep.noted source msg with stats } link _).trans ?_
      exact ⟨fun refused _ => refused, fun refused => refused needed⟩
    · have needed' : ¬ ({ rep.noted source msg with stats } : Replicator).needsAppend
          (rep.respondent source msg) = true := needed
      rw [if_neg needed']
      exact iff_of_true rfl fun isNeeded => absurd isNeeded needed

/-- A node that handles a response leads, or has nothing to send, or its send is refused. -/
def Silent (rep : Replicator) (link : Link) (source : NodeId) (msg : AppendResponse) : Prop :=
  rep.role ≠ .primary → msg.term ≤ rep.term → rep.needsAppend (rep.respondent source msg) = true →
    link.sendResult 0 ≠ .ok

instance (rep : Replicator) (link : Link) (source : NodeId) (msg : AppendResponse) :
    Decidable (rep.Silent link source msg) := inferInstanceAs (Decidable (_ → _))

/-- A backup handles a response like a primary; it is silent when it has nothing to send. -/
theorem handleAppendResponse_silent {rep : Replicator} (following : rep.role ≠ .primary) {link : Link}
    {source : NodeId} {msg : AppendResponse} (silent : rep.Silent link source msg) :
    (rep.handleAppendResponse { link } source msg).2.sent = [] :=
  (handleAppendResponse_sent_eq_nil following link source msg).mpr fun current needed _ =>
    silent following current needed

theorem setRole_frame (rep : Replicator) (role : Role) :
    ∃ backups stats, rep.setRole role = { rep with role, backups, stats } := by
  unfold setRole
  split_ifs with same
  · exact ⟨rep.backups, rep.stats, by rw [same]⟩
  · exact ⟨_, _, rfl⟩

end Replicator

end Sententia
