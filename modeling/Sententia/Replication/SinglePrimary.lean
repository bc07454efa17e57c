/-
**One primary, the rest backups, any schedule.** The primary's accepted entries are one growing
`history`. Its log stands for the history, less a compacted front; a backup's log is a front of it; every
engine is the replay of the entries its node has applied; messages carry fronts of the history.

* `InStep` — a node has applied exactly what it has committed.
* `Leads`, `Trails` — the two sides, each with one lemma a method.
* `Faithful` — what a message in flight says, stable while histories, logs and commit points grow.
-/

import Sententia.Library.LeaderLog
import Sententia.Replication.FollowerSpec
import Sententia.Replication.ReplicatorCluster

namespace Sententia

open Library

namespace ReplicatorCluster

/-! ### Applying what is committed -/

/-- The engine that has applied the first entries of the history. -/
def engineAt (instrument : InstrumentId) (history : List LogEntry) (applied : Nat) : MatchingEngine :=
  MatchingEngine.replay instrument ((history.take applied).map (·.command))

/-- The node has applied exactly what it has committed. -/
structure InStep (instrument : InstrumentId) (history : List LogEntry) (rep : Replicator) : Prop where
  applied : rep.lastApplied = rep.commitIndex
  committed : rep.commitIndex ≤ rep.log.lastSeq
  engine : rep.engine = engineAt instrument history rep.lastApplied

section Applying

variable {instrument : InstrumentId} {history history' : List LogEntry} {rep : Replicator}

theorem InStep.of_core (inStep : InStep instrument history rep) {rep' : Replicator}
    (frame : rep'.core = rep.core) : InStep instrument history rep' := by
  have core : InStep instrument history rep.core := ⟨inStep.applied, inStep.committed, inStep.engine⟩
  rw [← frame] at core
  exact ⟨core.applied, core.committed, core.engine⟩

theorem engineAt_mono (grows : history <+: history') {applied : Nat}
    (inside : applied ≤ history.length) :
    engineAt instrument history' applied = engineAt instrument history applied := by
  unfold engineAt
  rw [take_eq_of_front grows inside]

/-- Applying the committed rest of a front of the history. -/
theorem inStep_applyCommitted {held : List LogEntry} (retains : rep.log.Retains held)
    (front : held <+: history) (kept : rep.log.truncatedThrough ≤ rep.lastApplied)
    (behind : rep.lastApplied ≤ rep.commitIndex) (inside : rep.commitIndex ≤ held.length)
    (engine : rep.engine = engineAt instrument history rep.lastApplied) :
    InStep instrument history rep.applyCommitted := by
  have split : held.take rep.commitIndex =
      held.take rep.lastApplied ++ (held.take rep.commitIndex).drop rep.lastApplied := by
    conv_lhs => rw [← List.take_append_drop rep.lastApplied (held.take rep.commitIndex)]
    rw [List.take_take, Nat.min_eq_left behind]
  have applied := Replicator.lastApplied_applyEntries retains.numbered inside
  rw [Nat.max_eq_right behind] at applied
  rw [Replicator.applyCommitted_eq retains kept inside]
  refine ⟨applied, ?_, ?_⟩
  · show rep.commitIndex ≤ rep.log.lastSeq
    rw [retains.lastSeq]
    exact inside
  · rw [applied]
    show (rep.engine.applyAll _).1 = _
    rw [engine]
    unfold engineAt MatchingEngine.replay
    rw [← MatchingEngine.applyAll_append, ← List.map_append, take_eq_of_front front inside,
      take_eq_of_front front (behind.trans inside), ← split]

end Applying

/-! ### The primary -/

section Sides

variable (members : List NodeId) (primary : NodeId) (instrument : InstrumentId)

/-- The primary's side: its log stands for the history, and every match point is met by the log of
its backup. `length` gives the lengths of the backups' logs. -/
structure Leads (history : List LogEntry) (length : NodeId → Nat) (rep : Replicator) : Prop where
  member : primary ∈ members
  self : rep.self = primary
  role : rep.role = .primary
  size : rep.clusterSize = members.length
  inStep : InStep instrument history rep
  log : rep.log.Retains history
  kept : rep.log.truncatedThrough ≤ rep.lastApplied
  named : rep.Named
  known : ∀ {id backup}, rep.backups.find? id = some backup →
    id ∈ members ∧ id ≠ primary ∧ backup.matchSeq ≤ length id
  quorum : ∃ ballot, Majority members ballot ∧
    ∀ id ∈ ballot, id = primary ∨ rep.commitIndex ≤ length id
  noDivergence : rep.stats.checksumMismatches = 0

/-- A backup's side: its log is a front of the history. -/
structure Trails (history : List LogEntry) (id : NodeId) (rep : Replicator) : Prop where
  self : rep.self = id
  role : rep.role = .backup
  inStep : InStep instrument history rep
  whole : rep.log.Whole
  front : rep.log.entries <+: history

/-- What a message in flight says. -/
def Faithful (history : List LogEntry) (commit : Nat) (length : NodeId → Nat) (envelope : Envelope) :
    Prop :=
  match envelope.message with
  | .appendEntries msg => envelope.source = primary ∧ envelope.target ≠ primary ∧
      msg.commitSeq ≤ commit ∧ ∃ leader, leader <+: history ∧ msg.Carries leader
  | .appendResponse msg => envelope.target = primary ∧ envelope.source ≠ primary ∧
      envelope.source ∈ members ∧ (msg.ok = true → msg.lastLogSeq ≤ length envelope.source) ∧
        msg.lastApplied ≤ history.length ∧
          msg.stateChecksum = (engineAt instrument history msg.lastApplied).stateChecksum
  | _ => True

variable {members primary instrument} {history history' : List LogEntry} {length length' : NodeId → Nat}
  {commit commit' : Nat} {rep rep' : Replicator}

theorem Faithful.mono {envelope : Envelope}
    (faithful : Faithful members primary instrument history commit length envelope)
    (grows : history <+: history') (later : commit ≤ commit')
    (longer : ∀ id, id ≠ primary → length id ≤ length' id) :
    Faithful members primary instrument history' commit' length' envelope := by
  unfold Faithful at faithful ⊢
  split at faithful
  · obtain ⟨source, target, told, leader, front, carries⟩ := faithful
    exact ⟨source, target, told.trans later, leader, front.trans grows, carries⟩
  · obtain ⟨target, source, member, reached, inside, checksum⟩ := faithful
    refine ⟨target, source, member, fun ok => (reached ok).trans (longer _ source), ?_, ?_⟩
    · exact inside.trans grows.length_le
    · rw [engineAt_mono grows inside]
      exact checksum
  · trivial

namespace Leads

theorem mono (leads : Leads members primary instrument history length rep)
    (longer : ∀ id, id ≠ primary → length id ≤ length' id) :
    Leads members primary instrument history length' rep :=
  { leads with
    known := fun found =>
      have ⟨member, other, reached⟩ := leads.known found
      ⟨member, other, reached.trans (longer _ other)⟩
    quorum := by
      obtain ⟨ballot, majority, holds⟩ := leads.quorum
      refine ⟨ballot, majority, fun id inBallot => ?_⟩
      by_cases itself : id = primary
      · exact Or.inl itself
      · exact (holds id inBallot).imp_right fun reached => reached.trans (longer id itself) }

/-- Only the core of the state and its backups matter. -/
theorem of_core (leads : Leads members primary instrument history length rep)
    (frame : rep'.core = rep.core) (named : rep'.Named)
    (known : ∀ {id backup}, rep'.backups.find? id = some backup →
      id ∈ members ∧ id ≠ primary ∧ backup.matchSeq ≤ length id) :
    Leads members primary instrument history length rep' := by
  have core : Leads members primary instrument history length rep.core :=
    { leads with
      inStep := leads.inStep.of_core rfl
      named := fun found => nomatch found
      known := fun found => nomatch found }
  rw [← frame] at core
  exact { core with inStep := leads.inStep.of_core frame, named := named, known := known }

theorem of_sends (leads : Leads members primary instrument history length rep) {net net' : Transport}
    (sends : rep.Sends net rep' net') : Leads members primary instrument history length rep' := by
  refine leads.of_core sends.frame (sends.named leads.named) fun found => ?_
  obtain ⟨before, found', same⟩ := sends.matchSeq found
  rw [same]
  exact leads.known found'

/-- **Committing**: the majority that the match points show holds the entries. -/
theorem advance (leads : Leads members primary instrument history length rep) :
    Leads members primary instrument history length rep.advanceCommitIndex := by
  rcases rep.advanceCommitIndex_cases with same | ⟨_, more, ownTerm, commits⟩
  · rw [same]
    exact leads
  · have inside := leads.log.le_of_termAt ownTerm
    have applied := leads.inStep.applied
    have behind : rep.lastApplied ≤ rep.commitCandidate := by omega
    have inStep : InStep instrument history (rep.commit rep.commitCandidate).applyCommitted :=
      inStep_applyCommitted leads.log List.prefix_rfl leads.kept behind inside leads.inStep.engine
    obtain ⟨engine, lastApplied, applied', stats, same, equation⟩ :=
      Replicator.applyLoop_frame _ (rep.commit rep.commitCandidate)
    have frame : (rep.commit rep.commitCandidate).applyCommitted = _ := equation
    rw [frame] at inStep
    have configured : 0 < rep.clusterSize := by
      obtain ⟨ballot, majority, _⟩ := leads.quorum
      rw [leads.size]
      exact (Nat.succ_pos _).trans_le (majority.large.trans
        (List.subperm_of_subset majority.nodup majority.subset).length_le)
    have supported := (rep.le_commitCandidate_iff configured rep.commitCandidate).mp (Nat.le_refl _)
    rw [rep.countP_matchPoints (by omega), leads.log.lastSeq, if_pos inside] at supported
    rw [commits, frame]
    exact
      { member := leads.member
        self := leads.self
        role := leads.role
        size := leads.size
        inStep := inStep
        log := leads.log
        kept := by
          have now : lastApplied = rep.commitCandidate := inStep.applied
          have kept := leads.kept
          show rep.log.truncatedThrough ≤ lastApplied
          omega
        named := leads.named
        known := leads.known
        quorum := by
          refine ⟨primary :: rep.supporters rep.commitCandidate, ⟨?_, ?_, ?_⟩, ?_⟩
          · refine List.nodup_cons.mpr ⟨fun itself => ?_, rep.supporters_nodup _⟩
            obtain ⟨backup, found, _⟩ := Replicator.mem_supporters.mp itself
            exact (leads.known found).2.1 rfl
          · refine List.cons_subset.mpr ⟨leads.member, fun id supports => ?_⟩
            obtain ⟨backup, found, _⟩ := Replicator.mem_supporters.mp supports
            exact (leads.known found).1
          · rw [← leads.size, List.length_cons]
            exact supported
          · intro id inBallot
            refine (List.mem_cons.mp inBallot).imp_right fun supports => ?_
            obtain ⟨backup, found, reached⟩ := Replicator.mem_supporters.mp supports
            exact reached.trans (leads.known found).2.2
        noDivergence := same.trans leads.noDivergence }

/-- A backup is filed, or filed anew. -/
theorem insert (leads : Leads members primary instrument history length rep) {id : NodeId}
    {backup : BackupState} (member : id ∈ members) (other : id ≠ primary) (isNamed : backup.id = id)
    (reached : backup.matchSeq ≤ length id) :
    Leads members primary instrument history length
      { rep with backups := rep.backups.insert id backup } := by
  refine leads.of_core rfl (fun {any filed} found => ?_) (fun {any filed} found => ?_)
  · replace found := (OrderedMap.find?_insert rep.backups id any backup).symm.trans found
    by_cases same : any = id
    · rw [if_pos same] at found
      cases found
      rw [isNamed, same]
    · rw [if_neg same] at found
      exact leads.named found
  · replace found := (OrderedMap.find?_insert rep.backups id any backup).symm.trans found
    by_cases same : any = id
    · rw [if_pos same] at found
      cases found
      rw [same]
      exact ⟨member, other, reached⟩
    · rw [if_neg same] at found
      exact leads.known found

/-- What is known of a backup, known or not, does not go beyond its log. -/
theorem matchSeq_le (leads : Leads members primary instrument history length rep) (id : NodeId)
    {fresh : BackupState} (unmatched : fresh.matchSeq = 0) :
    ((rep.backups.find? id).getD fresh).matchSeq ≤ length id := by
  cases found : rep.backups.find? id with
  | none => exact unmatched ▸ Nat.zero_le _
  | some backup => exact (leads.known found).2.2

theorem greet (leads : Leads members primary instrument history length rep) {id : NodeId}
    (member : id ∈ members) (other : id ≠ primary) :
    Leads members primary instrument history length (rep.greet id) :=
  leads.insert member other rfl (leads.matchSeq_le id rfl)

theorem onPeerDown (leads : Leads members primary instrument history length rep) (id : NodeId) :
    Leads members primary instrument history length (rep.onPeerDown id) := by
  refine leads.of_core rfl (fun {any filed} found => ?_) (fun {any filed} found => ?_)
  · replace found := (OrderedMap.find?_erase rep.backups id any).symm.trans found
    split at found
    · cases found
    · exact leads.named found
  · replace found := (OrderedMap.find?_erase rep.backups id any).symm.trans found
    split at found
    · cases found
    · exact leads.known found

/-- The history grows by the command; a cluster of one commits it at once. -/
theorem accept (leads : Leads members primary instrument history length rep) (cmd : Command) :
    Leads members primary instrument
      (history ++ [{ seq := history.length + 1, term := rep.term, command := cmd }]) length
      (rep.accept cmd) := by
  have appended := leads.log.append cmd rep.term
  have committed := leads.inStep.committed
  have joined : Leads members primary instrument
      (history ++ [{ seq := history.length + 1, term := rep.term, command := cmd }]) length
      (rep.join cmd) :=
    { leads with
      inStep := by
        refine ⟨leads.inStep.applied, committed.trans (Nat.le_succ _), ?_⟩
        have inside : rep.lastApplied ≤ history.length := by
          rw [← leads.log.lastSeq, leads.inStep.applied]
          exact committed
        exact leads.inStep.engine.trans (engineAt_mono (List.prefix_append _ _) inside).symm
      log := appended }
  rcases rep.accept_cases cmd with plain | alone
  · rw [plain]
    exact joined
  · rw [alone]
    exact joined.advance

theorem compactLog (leads : Leads members primary instrument history length rep) :
    Leads members primary instrument history length rep.compactLog := by
  unfold Replicator.compactLog
  by_cases idle : rep.role ≠ .primary ∨ rep.backups.isEmpty
  · rw [if_pos idle]
    exact leads
  · rw [if_neg idle]
    by_cases nothing : min rep.commitSeq rep.lastApplied = 0
    · simp only [if_pos nothing]
      exact leads
    · simp only [if_neg nothing]
      obtain ⟨retains, dropped⟩ := leads.log.truncateThrough (min rep.commitSeq rep.lastApplied)
      have kept := leads.kept
      exact
        { leads with
          inStep := ⟨leads.inStep.applied, leads.inStep.committed, leads.inStep.engine⟩
          log := retains
          kept := by
            show (rep.log.truncateThrough _).truncatedThrough ≤ rep.lastApplied
            rw [dropped]
            omega
          noDivergence := by
            split_ifs
            · exact leads.noDivergence
            · exact leads.noDivergence }

/-- Taking note of a response whose match point its backup's log meets. -/
theorem noteResponse (leads : Leads members primary instrument history length rep) {source : NodeId}
    {msg : AppendResponse} (member : source ∈ members) (other : source ≠ primary)
    (reached : msg.ok = true → msg.lastLogSeq ≤ length source) :
    Leads members primary instrument history length (rep.noteResponse source msg) := by
  refine advance (leads.insert member other ?_ ?_)
  · show ((rep.backups.find? source).getD { id := source }).id = source
    cases found : rep.backups.find? source with
    | none => rfl
    | some backup => exact leads.named found
  · show (if msg.ok then msg.lastLogSeq else _) ≤ _
    split_ifs with ok
    · exact reached ok
    · exact leads.matchSeq_le source rfl

end Leads

theorem Trails.mono {id : NodeId} (trails : Trails instrument history id rep)
    (grows : history <+: history') : Trails instrument history' id rep := by
  have held := trails.front.length_le
  have committed := trails.inStep.committed
  have inside : rep.lastApplied ≤ history.length := by
    rw [trails.inStep.applied]
    rw [trails.whole.lastSeq] at committed
    exact committed.trans held
  exact
    { trails with
      inStep := ⟨trails.inStep.applied, committed,
        trails.inStep.engine.trans (engineAt_mono grows inside).symm⟩
      front := trails.front.trans grows }

theorem Trails.of_core {id : NodeId} (trails : Trails instrument history id rep)
    (frame : rep'.core = rep.core) : Trails instrument history id rep' := by
  have core : Trails instrument history id rep.core :=
    { trails with inStep := trails.inStep.of_core rfl }
  rw [← frame] at core
  exact { core with inStep := trails.inStep.of_core frame }

/-! ### What a step of the primary does -/

variable (members primary instrument) in
/-- The primary has moved, and its messages are faithful. -/
structure PrimaryMove (history history' : List LogEntry) (length : NodeId → Nat) (rep : Replicator)
    (result : Replicator × Transport) : Prop where
  grows : history <+: history'
  leads : Leads members primary instrument history' length result.1
  commit : rep.commitIndex ≤ result.1.commitIndex
  sent : ∀ envelope ∈ result.2.outgoing primary,
    Faithful members primary instrument history' result.1.commitIndex length envelope

/-- What is sent from a state that leads is faithful to it. -/
theorem Leads.move {middle : Replicator} {result : Replicator × Transport} {link : Link}
    (leads : Leads members primary instrument history' length middle) (grows : history <+: history')
    (commit : rep.commitIndex ≤ middle.commitIndex)
    (sends : middle.Sends { link } result.1 result.2) :
    PrimaryMove members primary instrument history history' length rep result := by
  have sameCommit : result.1.commitIndex = middle.commitIndex :=
    congrArg (·.commitIndex) sends.frame
  refine ⟨grows, leads.of_sends sends, sameCommit.symm ▸ commit, fun envelope isSent => ?_⟩
  obtain ⟨message, inSent, rfl⟩ := List.mem_map.mp isSent
  rcases sends.sent message inSent with earlier | ⟨append, content, built, target⟩
  · exact absurd earlier List.not_mem_nil
  · obtain ⟨leader, front, carries⟩ := built.carries leads.log
    obtain ⟨backup, found⟩ := target leads.named
    have told : append.commitSeq ≤ result.1.commitIndex := by
      rw [sameCommit, built.commitSeq]
    unfold Faithful
    simp only [content]
    exact ⟨trivial, (leads.known found).2.1, told, leader, front, carries⟩

/-- A step of the primary in which it sends nothing. -/
theorem Leads.move_silent {middle : Replicator} {link : Link}
    (leads : Leads members primary instrument history' length middle) (grows : history <+: history')
    (commit : rep.commitIndex ≤ middle.commitIndex) :
    PrimaryMove members primary instrument history history' length rep (middle, { link }) :=
  leads.move grows commit (Replicator.Sends.refl middle { link })

/-- **`submit`** leaves the history as it was, or accepts the command. -/
theorem Leads.submit_move (leads : Leads members primary instrument history length rep) (cmd : Command)
    (link : Link) :
    ∃ history', PrimaryMove members primary instrument history history' length rep
        ((rep.submit { link } cmd).1, (rep.submit { link } cmd).2.1) ∧
      history'.map (·.command) =
        if (rep.submit { link } cmd).2.2.status = .accepted then history.map (·.command) ++ [cmd]
        else history.map (·.command) := by
  rcases rep.submit_cases { link } cmd with ⟨sends, refused, _⟩ | ⟨_, sends, accepted⟩
  · refine ⟨history, leads.move List.prefix_rfl (Nat.le_refl _) sends, ?_⟩
    rw [if_neg refused]
  · refine ⟨_, (leads.accept cmd).move (List.prefix_append _ _) ?_ sends, ?_⟩
    · rcases rep.accept_cases cmd with plain | alone
      · rw [plain]
        exact Nat.le_refl _
      · rw [alone]
        exact (rep.join cmd).le_commitIndex_advanceCommitIndex
    · rw [if_pos accepted, List.map_append]
      rfl

/-- **`handleAppendResponse`** of a faithful response counts no divergence. -/
theorem Leads.response_move (leads : Leads members primary instrument history length rep)
    {source : NodeId} {msg : AppendResponse} (member : source ∈ members) (other : source ≠ primary)
    (reached : msg.ok = true → msg.lastLogSeq ≤ length source)
    (checksum : msg.stateChecksum = (engineAt instrument history msg.lastApplied).stateChecksum)
    (link : Link) :
    PrimaryMove members primary instrument history history length rep
      (rep.handleAppendResponse { link } source msg) := by
  rcases rep.handleAppendResponse_cases { link } source msg with
    ⟨_, sends, _⟩ | ⟨_, stats, sends, agrees⟩
  · exact leads.move List.prefix_rfl (Nat.le_refl _) sends
  · have noted := leads.noteResponse member other reached
    have same := agrees fun applied => by
      rw [checksum, applied, noted.inStep.engine]
    rw [same] at sends
    refine noted.move List.prefix_rfl ?_ sends
    exact Replicator.le_commitIndex_advanceCommitIndex
      { rep with backups := rep.backups.insert source (rep.respondent source msg) }

/-! ### What a backup makes of a message -/

/-- Adopting a commit point and applying up to it. -/
theorem Trails.adopt {id : NodeId} (trails : Trails instrument history id rep) (commitSeq : Nat) :
    Trails instrument history id (rep.adoptCommit commitSeq).applyCommitted ∧
      (rep.adoptCommit commitSeq).applyCommitted.log = rep.log := by
  have applied := trails.inStep.applied
  have committed := trails.inStep.committed
  have adopted : ∃ commitIndex stats, rep.adoptCommit commitSeq = { rep with commitIndex, stats } ∧
      rep.commitIndex ≤ commitIndex ∧ commitIndex ≤ rep.log.lastSeq := by
    unfold Replicator.adoptCommit
    split_ifs with more
    · exact ⟨_, _, rfl, by omega, Nat.min_le_right _ _⟩
    · exact ⟨rep.commitIndex, rep.stats, rfl, Nat.le_refl _, committed⟩
  obtain ⟨commitIndex, stats, equation, later, inside⟩ := adopted
  rw [equation]
  have behind : rep.lastApplied ≤ commitIndex := by omega
  have inside' : commitIndex ≤ rep.log.entries.length := by
    rw [← trails.whole.lastSeq]
    exact inside
  have kept : rep.log.truncatedThrough ≤ rep.lastApplied := by
    rw [trails.whole.uncompacted]
    exact Nat.zero_le _
  have inStep : InStep instrument history { rep with commitIndex, stats }.applyCommitted :=
    inStep_applyCommitted trails.whole.retains trails.front kept behind inside' trails.inStep.engine
  obtain ⟨engine, lastApplied, applied', stats', _, equation'⟩ :=
    Replicator.applyLoop_frame _ ({ rep with commitIndex, stats } : Replicator)
  have frame : ({ rep with commitIndex, stats } : Replicator).applyCommitted = _ := equation'
  rw [frame] at inStep ⊢
  exact ⟨⟨trails.self, trails.role, inStep, trails.whole, trails.front⟩, rfl⟩

/-- Two fronts of one history agree wherever both have an entry. -/
theorem getElem_fronts {first second : List LogEntry} (front : first <+: history)
    (front' : second <+: history) {i : Nat} (inside : i < first.length) (inside' : i < second.length) :
    first[i]? = second[i]? := by
  rw [List.getElem?_eq_getElem inside, List.getElem?_eq_getElem inside', ← getElem_of_front front inside,
    ← getElem_of_front front' inside']

/-- What the entry loop makes of a backup. -/
theorem Trails.absorb {id : NodeId} (trails : Trails instrument history id rep)
    {leader : List LogEntry} (front : leader <+: history) {absorbed : Replicator}
    (absorbs : rep.Absorbs leader absorbed) :
    Trails instrument history id absorbed ∧
      rep.log.entries.length ≤ absorbed.log.entries.length := by
  cases absorbs with
  | kept held => exact ⟨trails, Nat.le_refl _⟩
  | extended short whole all same =>
    have longer := short.length_le
    refine ⟨⟨trails.self, trails.role, ⟨trails.inStep.applied, ?_, trails.inStep.engine⟩, whole, ?_⟩, ?_⟩
    · have committed := trails.inStep.committed
      rw [trails.whole.lastSeq] at committed
      show rep.commitIndex ≤ _
      rw [whole.lastSeq, all]
      exact committed.trans longer
    · show _ <+: history
      rw [all]
      exact front
    · show _ ≤ List.length _
      rw [all]
      exact longer
  | replaced inside agree differ above held whole all same =>
    exact absurd (getElem_fronts trails.front front held inside) differ

variable (members primary instrument) in
/-- A backup has moved, and its messages are faithful once its log counts at its new length. -/
structure BackupMove (history : List LogEntry) (commit : Nat) (id : NodeId) (rep : Replicator)
    (result : Replicator × Transport) : Prop where
  trails : Trails instrument history id result.1
  longer : rep.log.entries.length ≤ result.1.log.entries.length
  sent : ∀ length : NodeId → Nat, result.1.log.entries.length ≤ length id →
    ∀ envelope ∈ result.2.outgoing id,
      Faithful members primary instrument history commit length envelope

/-- A backup that sends only a response which its state bears out. -/
theorem Trails.move {id : NodeId} {result : Replicator × Transport}
    (trails : Trails instrument history id result.1) (member : id ∈ members) (other : id ≠ primary)
    (longer : rep.log.entries.length ≤ result.1.log.entries.length) {answer : AppendResponse}
    {link : Link}
    (sends : result.2 = (Transport.send { link } primary (.appendResponse answer)).1)
    (reached : answer.ok = true → answer.lastLogSeq = result.1.log.lastSeq)
    (applied : answer.lastApplied = result.1.lastApplied)
    (checksum : answer.stateChecksum = result.1.engine.stateChecksum) :
    BackupMove members primary instrument history commit id rep result := by
  have held := trails.front.length_le
  have committed := trails.inStep.committed
  have sameApplied := trails.inStep.applied
  have head := trails.whole.lastSeq
  refine ⟨trails, longer, fun length reaches envelope isSent => ?_⟩
  obtain ⟨message, inSent, rfl⟩ := List.mem_map.mp isSent
  rw [sends] at inSent
  rcases Transport.sent_send { link } primary (.appendResponse answer) with ⟨_, grown⟩ | ⟨_, same⟩
  · rw [grown] at inSent
    rw [List.mem_singleton.mp inSent]
    refine ⟨rfl, other, member, fun ok => ?_, by omega, ?_⟩
    · rw [reached ok, head]
      exact reaches
    · rw [checksum, applied, trails.inStep.engine]
  · rw [same] at inSent
    cases inSent

/-- **`handleAppendEntries`** leaves a longer front of the history, and a faithful response. -/
theorem Trails.receive {id : NodeId} (trails : Trails instrument history id rep)
    (member : id ∈ members) (other : id ≠ primary) {msg : AppendEntries} {leader : List LogEntry}
    (numbered : Numbered history) (front : leader <+: history) (carries : msg.Carries leader)
    (link : Link) :
    BackupMove members primary instrument history commit id rep
      (rep.handleAppendEntries { link } primary msg) := by
  have numbered' : Numbered leader := List.prefix_iff_eq_take.mp front ▸ numbered.take _
  have matching : Replicator.Matches rep.log.entries leader := by
    intro k held inside _
    rw [← take_eq_of_front trails.front held, ← take_eq_of_front front inside]
  have follows : rep.log.termAt msg.prevSeq = some msg.prevTerm →
      rep.log.entries.take msg.prevSeq = leader.take msg.prevSeq := by
    intro known
    rw [← take_eq_of_front trails.front (trails.whole.retains.le_of_termAt known),
      ← take_eq_of_front front carries.inside]
  obtain ⟨answer, answers, sends⟩ := Replicator.handleAppendEntries_answers numbered' trails.whole
    matching carries follows { link } primary
  generalize rep.handleAppendEntries { link } primary msg = result at answers sends
  obtain ⟨after, net⟩ := result
  cases answers with
  | rejected same =>
    have frame : ({ rep with stats := _ } : Replicator).core = rep.core :=
      (Replicator.Sends.of_stats rep { link } same).frame
    exact (trails.of_core frame).move member other (Nat.le_refl _) sends nofun rfl rfl
  | refused committed differ =>
    exact trails.move member other (Nat.le_refl _) sends nofun rfl rfl
  | accepted current known appended absorbs =>
    obtain ⟨absorbed, longer⟩ := trails.absorb front absorbs
    obtain ⟨settled, sameLog⟩ := absorbed.adopt msg.commitSeq
    rw [← sameLog] at longer
    exact settled.move member other longer sends (fun _ => rfl) rfl rfl

/-- A backup that only its bookkeeping of backups and its counters tell apart, and that sends
nothing. -/
theorem Trails.move_silent {id : NodeId} (trails : Trails instrument history id rep)
    (frame : rep'.core = rep.core) {net : Transport} (silent : net.sent = []) :
    BackupMove members primary instrument history commit id rep (rep', net) := by
  have sameLog : rep'.log = rep.log := congrArg (·.log) frame
  refine ⟨trails.of_core frame, ?_, fun length _ envelope isSent => ?_⟩
  · show _ ≤ rep'.log.entries.length
    rw [sameLog]
  · unfold Transport.outgoing at isSent
    rw [silent] at isSent
    cases isSent

end Sides

/-! ### The cluster -/

/-- Roles and terms stay as they were. -/
def Settled (_ : ReplicatorCluster) : Label → Prop
  | .setTerm _ _ => False
  | .setRole _ _ => False
  | _ => True

instance (cluster : ReplicatorCluster) : ∀ label, Decidable (cluster.Settled label)
  | .setTerm _ _ => isFalse not_false
  | .setRole _ _ => isFalse not_false
  | .submit _ _ _ => isTrue trivial
  | .tick _ _ => isTrue trivial
  | .compactLog _ => isTrue trivial
  | .peerUp _ _ _ => isTrue trivial
  | .peerDown _ _ => isTrue trivial
  | .deliver _ _ => isTrue trivial
  | .duplicate _ => isTrue trivial
  | .lose _ => isTrue trivial

/-- The lengths of the logs. -/
def logLength (cluster : ReplicatorCluster) (id : NodeId) : Nat :=
  (cluster.nodes id).log.entries.length

structure SoleInvariant (members : List NodeId) (primary : NodeId) (instrument : InstrumentId)
    (history : List LogEntry) (cluster : ReplicatorCluster) : Prop where
  sameMembers : cluster.members = members
  accepted : cluster.accepted = history.map (·.command)
  leads : Leads members primary instrument history cluster.logLength (cluster.nodes primary)
  trails : ∀ id ∈ members, id ≠ primary → Trails instrument history id (cluster.nodes id)
  messages : ∀ envelope ∈ cluster.inFlight, Faithful members primary instrument history
    (cluster.nodes primary).commitIndex cluster.logLength envelope

namespace SoleInvariant

variable {members : List NodeId} {primary : NodeId} {instrument : InstrumentId}
  {history history' : List LogEntry} {cluster : ReplicatorCluster}

/-- **The primary moves.** -/
theorem act_primary (inv : SoleInvariant members primary instrument history cluster)
    {result : Replicator × Transport}
    (move : PrimaryMove members primary instrument history history' cluster.logLength
      (cluster.nodes primary) result) {accepted : List Command}
    (accepts : accepted = history'.map (·.command)) :
    SoleInvariant members primary instrument history'
      { cluster.act primary result with accepted } := by
  have lengths : ∀ id, id ≠ primary → cluster.logLength id ≤
      ({ cluster.act primary result with accepted } : ReplicatorCluster).logLength id := by
    intro id other
    show _ ≤ (Function.update cluster.nodes primary result.1 id).log.entries.length
    rw [Function.update_of_ne other]
    exact Nat.le_refl _
  have here : ({ cluster.act primary result with accepted } : ReplicatorCluster).nodes primary =
      result.1 := Function.update_self _ _ _
  refine ⟨inv.sameMembers, accepts, ?_, fun id member other => ?_, fun envelope isMessage => ?_⟩
  · rw [here]
    exact move.leads.mono lengths
  · show Trails instrument history' id (Function.update cluster.nodes primary result.1 id)
    rw [Function.update_of_ne other]
    exact (inv.trails id member other).mono move.grows
  · rw [here]
    rcases List.mem_append.mp isMessage with old | new
    · exact (inv.messages envelope old).mono move.grows move.commit lengths
    · exact (move.sent envelope new).mono List.prefix_rfl (Nat.le_refl _) lengths

/-- **A backup moves.** -/
theorem act_backup (inv : SoleInvariant members primary instrument history cluster) {id : NodeId}
    (other : id ≠ primary) {result : Replicator × Transport}
    (move : BackupMove members primary instrument history (cluster.nodes primary).commitIndex id
      (cluster.nodes id) result) :
    SoleInvariant members primary instrument history (cluster.act id result) := by
  have lengths : ∀ any, any ≠ primary → cluster.logLength any ≤
      (cluster.act id result).logLength any := by
    intro any _
    show _ ≤ (Function.update cluster.nodes id result.1 any).log.entries.length
    by_cases same : any = id
    · rw [same, Function.update_self]
      exact move.longer
    · rw [Function.update_of_ne same]
      exact Nat.le_refl _
  have there : (cluster.act id result).nodes primary = cluster.nodes primary :=
    Function.update_of_ne other.symm _ _
  refine ⟨inv.sameMembers, inv.accepted, ?_, fun any member different => ?_,
    fun envelope isMessage => ?_⟩
  · rw [there]
    exact inv.leads.mono lengths
  · show Trails instrument history any (Function.update cluster.nodes id result.1 any)
    by_cases same : any = id
    · subst same
      rw [Function.update_self]
      exact move.trails
    · rw [Function.update_of_ne same]
      exact inv.trails any member different
  · rw [there]
    rcases List.mem_append.mp isMessage with old | new
    · exact (inv.messages envelope old).mono List.prefix_rfl (Nat.le_refl _) lengths
    · refine move.sent _ ?_ envelope new
      show _ ≤ (Function.update cluster.nodes id result.1 id).log.entries.length
      rw [Function.update_self]

/-- Losing messages, or seeing them twice. -/
theorem reshuffle (inv : SoleInvariant members primary instrument history cluster)
    {inFlight : List Envelope} (known : inFlight ⊆ cluster.inFlight) :
    SoleInvariant members primary instrument history { cluster with inFlight } :=
  { inv with messages := fun envelope isMessage => inv.messages envelope (known isMessage) }

/-- **A message is delivered.** -/
theorem receive (inv : SoleInvariant members primary instrument history cluster) {envelope : Envelope}
    (isMessage : envelope ∈ cluster.inFlight) (member : envelope.target ∈ members) (link : Link) :
    SoleInvariant members primary instrument history (cluster.act envelope.target
      ((cluster.nodes envelope.target).onMessage { link } envelope.source envelope.message)) := by
  have faithful := inv.messages envelope isMessage
  obtain ⟨source, target, message⟩ := envelope
  have ignored : SoleInvariant members primary instrument history
      (cluster.act target (cluster.nodes target, { link })) := by
    by_cases itself : target = primary
    · subst itself
      exact inv.act_primary (inv.leads.move_silent List.prefix_rfl (Nat.le_refl _)) inv.accepted
    · exact inv.act_backup itself ((inv.trails target member itself).move_silent rfl rfl)
  cases message with
  | appendEntries msg =>
    obtain ⟨rfl, other, _, leader, front, carries⟩ := faithful
    exact inv.act_backup other ((inv.trails target member other).receive member other
      inv.leads.log.numbered front carries link)
  | appendResponse msg =>
    obtain ⟨rfl, other, known, reached, _, checksum⟩ := faithful
    exact inv.act_primary (inv.leads.response_move known other reached checksum link) inv.accepted
  | hello msg => exact ignored
  | heartbeat msg => exact ignored
  | commandForward msg => exact ignored
  | eventAck msg => exact ignored
  | requestVote msg => exact ignored
  | voteResponse msg => exact ignored

/-- **Every step keeps the invariant.** -/
theorem step (inv : SoleInvariant members primary instrument history cluster) {label : Label}
    {next : ReplicatorCluster} (settled : cluster.Settled label)
    (enabled : cluster.step label = some next) :
    ∃ history', SoleInvariant members primary instrument history' next := by
  cases label with
  | submit id cmd link =>
    obtain ⟨member, moved⟩ := Option.ite_none_right_eq_some.mp enabled
    obtain rfl := Option.some.inj moved
    rw [inv.sameMembers] at member
    by_cases itself : id = primary
    · subst itself
      obtain ⟨history', move, accepts⟩ := inv.leads.submit_move cmd link
      refine ⟨history', inv.act_primary move ?_⟩
      rw [accepts, inv.accepted]
    · have trails := inv.trails id member itself
      rcases (cluster.nodes id).submit_cases { link } cmd with
        ⟨sends, refused, silent⟩ | ⟨leading, _⟩
      · have noMessage : ((cluster.nodes id).submit { link } cmd).2.1.sent = [] := by rw [silent]
        have acted := inv.act_backup itself (trails.move_silent sends.frame noMessage)
        refine ⟨history, { acted with accepted := ?_ }⟩
        rw [if_neg refused]
        exact inv.accepted
      · rw [trails.role] at leading
        cases leading
  | tick id link =>
    obtain ⟨member, moved⟩ := Option.ite_none_right_eq_some.mp enabled
    obtain rfl := Option.some.inj moved
    rw [inv.sameMembers] at member
    by_cases itself : id = primary
    · subst itself
      have sends := (cluster.nodes id).tick_sends { link }
      exact ⟨history, inv.act_primary (inv.leads.move List.prefix_rfl (Nat.le_refl _) sends) inv.accepted⟩
    · have trails := inv.trails id member itself
      have idle : (cluster.nodes id).tick { link } = (cluster.nodes id, { link }) :=
        if_pos (by rw [trails.role]; decide)
      rw [idle]
      exact ⟨history, inv.act_backup itself (trails.move_silent rfl rfl)⟩
  | compactLog id =>
    obtain ⟨member, moved⟩ := Option.ite_none_right_eq_some.mp enabled
    obtain rfl := Option.some.inj moved
    rw [inv.sameMembers] at member
    by_cases itself : id = primary
    · subst itself
      have sameCommit : (cluster.nodes id).commitIndex ≤ (cluster.nodes id).compactLog.commitIndex := by
        unfold Replicator.compactLog
        simp only
        split_ifs <;> exact Nat.le_refl _
      exact ⟨history, inv.act_primary (inv.leads.compactLog.move_silent List.prefix_rfl sameCommit)
        inv.accepted⟩
    · have trails := inv.trails id member itself
      have idle : (cluster.nodes id).compactLog = cluster.nodes id :=
        if_pos (Or.inl (by rw [trails.role]; decide))
      rw [idle]
      exact ⟨history, inv.act_backup itself (trails.move_silent rfl rfl)⟩
  | peerUp id peer link =>
    obtain ⟨⟨member, known, different⟩, moved⟩ := Option.ite_none_right_eq_some.mp enabled
    obtain rfl := Option.some.inj moved
    rw [inv.sameMembers] at member known
    by_cases itself : id = primary
    · subst itself
      have sends := Replicator.onPeerUp_sends inv.leads.role { link } peer
      exact ⟨history, inv.act_primary
        ((inv.leads.greet known different).move List.prefix_rfl (Nat.le_refl _) sends) inv.accepted⟩
    · have trails := inv.trails id member itself
      have idle : (cluster.nodes id).onPeerUp { link } peer = (cluster.nodes id, { link }) :=
        if_pos (by rw [trails.role]; decide)
      rw [idle]
      exact ⟨history, inv.act_backup itself (trails.move_silent rfl rfl)⟩
  | peerDown id peer =>
    obtain ⟨member, moved⟩ := Option.ite_none_right_eq_some.mp enabled
    obtain rfl := Option.some.inj moved
    rw [inv.sameMembers] at member
    by_cases itself : id = primary
    · subst itself
      exact ⟨history, inv.act_primary
        ((inv.leads.onPeerDown peer).move_silent List.prefix_rfl (Nat.le_refl _)) inv.accepted⟩
    · have frame : ((cluster.nodes id).onPeerDown peer).core = (cluster.nodes id).core := rfl
      exact ⟨history, inv.act_backup itself ((inv.trails id member itself).move_silent frame rfl)⟩
  | setTerm id term => exact settled.elim
  | setRole id role => exact settled.elim
  | deliver index link =>
    obtain ⟨envelope, found, enabled'⟩ := Option.bind_eq_some_iff.mp enabled
    obtain ⟨member, moved⟩ := Option.ite_none_right_eq_some.mp enabled'
    obtain rfl := Option.some.inj moved
    rw [inv.sameMembers] at member
    have received := inv.receive (List.mem_of_getElem? found) member link
    have removed : (({ cluster with inFlight := cluster.inFlight.eraseIdx index } :
        ReplicatorCluster).act envelope.target ((cluster.nodes envelope.target).onMessage { link }
          envelope.source envelope.message)).inFlight ⊆ (cluster.act envelope.target
            ((cluster.nodes envelope.target).onMessage { link } envelope.source
              envelope.message)).inFlight :=
      List.append_subset.mpr
        ⟨List.Subset.trans List.eraseIdx_subset (List.subset_append_left _ _),
          List.subset_append_right _ _⟩
    exact ⟨history, { received.reshuffle removed with }⟩
  | duplicate index =>
    obtain ⟨envelope, found, rfl⟩ := Option.map_eq_some_iff.mp enabled
    have isMessage := List.mem_of_getElem? found
    refine ⟨history, inv.reshuffle (List.append_subset.mpr ⟨List.Subset.refl _, ?_⟩)⟩
    simpa using isMessage
  | lose index =>
    obtain ⟨_, moved⟩ := Option.ite_none_right_eq_some.mp enabled
    obtain rfl := Option.some.inj moved
    exact ⟨history, inv.reshuffle List.eraseIdx_subset⟩

end SoleInvariant

/-- One primary, the other members backups, with fresh logs and engines of one instrument. -/
def singlePrimary (members : List NodeId) (primary : NodeId) (instrument : InstrumentId)
    (terms : NodeId → Nat) (modes : NodeId → ReplicationMode) (windows : NodeId → Nat) :
    ReplicatorCluster where
  members := members
  nodes id :=
    (({ self := id
        role := if id = primary then .primary else .backup
        mode := modes id
        engine := { instrument } } : Replicator).setClusterSize members.length).setTerm (terms id)
      |>.setSyncWindow (windows id)

theorem soleInvariant_singlePrimary {members : List NodeId} (distinct : members.Nodup)
    {primary : NodeId} (isMember : primary ∈ members) (instrument : InstrumentId)
    (terms : NodeId → Nat) (modes : NodeId → ReplicationMode) (windows : NodeId → Nat) :
    SoleInvariant members primary instrument []
      (singlePrimary members primary instrument terms modes windows) := by
  have configured : 0 < members.length := List.length_pos_of_mem isMember
  have fresh : ∀ id, InStep instrument []
      ((singlePrimary members primary instrument terms modes windows).nodes id) :=
    fun id => ⟨rfl, Nat.le_refl _, rfl⟩
  refine ⟨rfl, rfl, ?_, fun id _ other => ?_, fun envelope isMessage => (List.not_mem_nil isMessage).elim⟩
  · exact
      { member := isMember
        self := rfl
        role := if_pos rfl
        size := if_neg (Nat.not_lt.mpr configured)
        inStep := fresh primary
        log := CommandLog.retains_empty
        kept := Nat.le_refl _
        named := fun found => nomatch found
        known := fun found => nomatch found
        quorum := ⟨members, ⟨distinct, List.Subset.refl _, by omega⟩, fun id _ => Or.inr (Nat.zero_le _)⟩
        noDivergence := rfl }
  · exact
      { self := rfl
        role := if_neg other
        inStep := fresh id
        whole := CommandLog.whole_empty
        front := List.nil_prefix }

/-- **Single-primary replication is safe.** After every schedule: the backups' logs are fronts of the
accepted commands; every node has applied exactly the accepted commands up to its `lastApplied`, which
its commit point and its log cover; every entry the primary has committed is an accepted command and was stored
by a majority, of which the primary alone may have compacted it away; and no divergence was ever counted. -/
theorem singlePrimary_safety {members : List NodeId} (distinct : members.Nodup) {primary : NodeId}
    (isMember : primary ∈ members) (instrument : InstrumentId) (terms : NodeId → Nat)
    (modes : NodeId → ReplicationMode) (windows : NodeId → Nat) (labels : List Label)
    {cluster : ReplicatorCluster}
    (settled : Guarded step Settled
      (singlePrimary members primary instrument terms modes windows) labels)
    (ran : run step (singlePrimary members primary instrument terms modes windows) labels =
      some cluster) :
    (∀ id ∈ members, id ≠ primary →
        (cluster.nodes id).log.entries.map (·.command) <+: cluster.accepted) ∧
      (∀ id ∈ members, (cluster.nodes id).lastApplied ≤ (cluster.nodes id).commitIndex ∧
        (cluster.nodes id).commitIndex ≤ (cluster.nodes id).log.lastSeq ∧
          (cluster.nodes id).engine = MatchingEngine.replay instrument
            (cluster.accepted.take (cluster.nodes id).lastApplied)) ∧
      ((cluster.nodes primary).commitIndex ≤ cluster.accepted.length ∧
        ∀ seq, 0 < seq → seq ≤ (cluster.nodes primary).commitIndex →
          ∃ holders, Majority members holders ∧ ∀ id ∈ holders,
            ((cluster.nodes id).log.at? seq).map (·.command) = cluster.accepted[seq - 1]? ∨
              (id = primary ∧ seq ≤ (cluster.nodes primary).log.truncatedThrough)) ∧
      (cluster.nodes primary).stats.checksumMismatches = 0 := by
  have reached : ∃ history, SoleInvariant members primary instrument history cluster :=
    run_invariant (fun cluster => ∃ history, SoleInvariant members primary instrument history cluster)
      (fun {_ _ _} ⟨history, holds⟩ settled enabled => holds.step settled enabled)
      ⟨_, soleInvariant_singlePrimary distinct isMember instrument terms modes windows⟩ settled ran
  obtain ⟨history, inv⟩ := reached
  have inStep : ∀ id ∈ members, InStep instrument history (cluster.nodes id) := by
    intro id member
    by_cases itself : id = primary
    · rw [itself]
      exact inv.leads.inStep
    · exact (inv.trails id member itself).inStep
  have numbered := inv.leads.log.numbered
  refine ⟨fun id member other => ?_, fun id member => ?_, ⟨?_, fun seq positive committed => ?_⟩,
    inv.leads.noDivergence⟩
  · rw [inv.accepted]
    exact (inv.trails id member other).front.map _
  · refine ⟨Nat.le_of_eq (inStep id member).applied, (inStep id member).committed, ?_⟩
    rw [inv.accepted, ← List.map_take]
    exact (inStep id member).engine
  · rw [inv.accepted, List.length_map, ← inv.leads.log.lastSeq]
    exact inv.leads.inStep.committed
  · obtain ⟨ballot, majority, holds⟩ := inv.leads.quorum
    refine ⟨ballot, majority, fun id inBallot => ?_⟩
    rw [inv.accepted, List.getElem?_map]
    by_cases itself : id = primary
    · subst itself
      rw [inv.leads.log.at?_eq]
      by_cases dropped : seq ≤ (cluster.nodes id).log.truncatedThrough
      · exact Or.inr ⟨rfl, dropped⟩
      · rw [if_pos (Nat.lt_of_not_le dropped)]
        exact Or.inl rfl
    · have trails := inv.trails id (majority.subset inBallot) itself
      have long : seq ≤ (cluster.nodes id).log.entries.length :=
        committed.trans ((holds id inBallot).resolve_left itself)
      have held : seq - 1 < (cluster.nodes id).log.entries.length := by omega
      rw [trails.whole.at?_eq positive, List.getElem?_eq_getElem held,
        getElem_of_front trails.front held]
      exact Or.inl rfl

/-- The backup comes up and answers the probe; a command is submitted, stored and acknowledged. -/
def acknowledged : List Label :=
  [.peerUp 1 2 {}, .deliver 0 {}, .deliver 0 {}, .submit 1 (restingSell 1) {}, .deliver 0 {},
    .deliver 0 {}]

/-- Two nodes, of which the first is the primary. -/
def pair : ReplicatorCluster :=
  singlePrimary [1, 2] 1 1 (fun _ => 1) (fun _ => .asynchronous) fun _ => 1

theorem singlePrimary_safety_acknowledged :
    ∃ cluster, run step pair acknowledged = some cluster ∧ cluster.accepted = [restingSell 1] ∧
      (cluster.nodes 1).commitIndex = 1 ∧ (cluster.nodes 1).lastApplied = 1 ∧
      ∃ holders, Majority [1, 2] holders ∧ ∀ id ∈ holders,
        ((cluster.nodes id).log.at? 1).map (·.command) = cluster.accepted[0]? ∨
          (id = 1 ∧ 1 ≤ (cluster.nodes 1).log.truncatedThrough) :=
  have ran : run step pair acknowledged =
      some ((run step pair acknowledged).get (by decide +kernel)) := (Option.some_get _).symm
  have safe := singlePrimary_safety (by decide) (by decide) 1 _ _ _ acknowledged (by decide +kernel) ran
  ⟨_, ran, by decide +kernel, by decide +kernel, by decide +kernel,
    safe.2.2.1.2 1 (by decide) (by decide +kernel)⟩

/-- **Compaction leaves one copy of two**: the entry is committed, and the primary has dropped it. -/
theorem compaction_leaves_minority :
    ∃ cluster, run step pair (acknowledged ++ [.compactLog 1]) = some cluster ∧
      Guarded step Settled pair (acknowledged ++ [.compactLog 1]) ∧
      (cluster.nodes 1).commitIndex = 1 ∧
      ¬ ∃ holders, Majority [1, 2] holders ∧
        ∀ id ∈ holders, ((cluster.nodes id).log.at? 1).isSome := by
  have ran : run step pair (acknowledged ++ [.compactLog 1]) =
      some ((run step pair (acknowledged ++ [.compactLog 1])).get (by decide +kernel)) :=
    (Option.some_get _).symm
  refine ⟨_, ran, by decide +kernel, by decide +kernel, ?_⟩
  rintro ⟨holders, majority, holds⟩
  -- A majority of two is both, and the primary holds nothing any more.
  have large := majority.large
  obtain ⟨id, inHolders, isFirst⟩ := exists_common majority.nodup (List.nodup_singleton (1 : NodeId))
    majority.subset (by decide) (by simp only [List.length_cons, List.length_nil] at large ⊢; omega)
  rw [List.mem_singleton.mp isFirst] at inHolders
  have held := holds 1 inHolders
  revert held
  decide +kernel

end ReplicatorCluster

end Sententia
