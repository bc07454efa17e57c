/-
**Catch-up ends, and ends well.** A primary and its one backup, from `onPeerUp` on, exchange `AppendEntries`
and `AppendResponse` over a connection that loses and reorders nothing; nobody submits or ticks.

* `Exchange.Stage` — **the invariant**: there is one message in flight, and a weight that every delivery
  takes down. A probe weighs the most; after it, every batch takes entries off the weight, and the empty
  append that tells the last commit point is worth two.
* `catchUp_converges` — the exchange is over after at most four messages for each missing entry and eight
  more; the nodes then have the same log, all of it committed and applied, and the same engine.
-/

import Sententia.Library.Transition
import Sententia.Replication.PrefixReplica

namespace Sententia

open Library

/-- What a node has sent to another one, oldest first. -/
def Transport.messagesTo (net : Transport) (id : NodeId) : List Message :=
  net.sent.filterMap fun (target, message) => if target = id then some message else none

/-- One send, as the node it is for sees it. -/
theorem Transport.messagesTo_send (id : NodeId) (msg : Message) :
    (({ link := {} } : Transport).send id msg).1.messagesTo id = [msg] := by
  simp [messagesTo, send]

/-- Two connected nodes, and what is in flight between them, oldest first. -/
structure Exchange where
  primary : Replicator
  backup : Replicator
  toBackup : List Message := []
  toPrimary : List Message := []

/-- The oldest message to one of the nodes arrives. -/
inductive Delivery
  | toBackup
  | toPrimary
deriving Repr, DecidableEq

namespace Exchange

/-- The connection comes up, at both ends. -/
def connect (primary backup : Replicator) : Exchange :=
  let (primary', net) := primary.onPeerUp { link := {} } backup.self
  let (backup', net') := backup.onPeerUp { link := {} } primary.self
  { primary := primary'
    backup := backup'
    toBackup := net.messagesTo backup.self
    toPrimary := net'.messagesTo primary.self }

def step (x : Exchange) : Delivery → Option Exchange
  | .toBackup =>
    match x.toBackup with
    | [] => none
    | msg :: rest =>
      let (backup, net) := x.backup.onMessage { link := {} } x.primary.self msg
      some { x with
        backup
        toBackup := rest
        toPrimary := x.toPrimary ++ net.messagesTo x.primary.self }
  | .toPrimary =>
    match x.toPrimary with
    | [] => none
    | msg :: rest =>
      let (primary, net) := x.primary.onMessage { link := {} } x.backup.self msg
      some { x with
        primary
        toPrimary := rest
        toBackup := x.toBackup ++ net.messagesTo x.backup.self }

/-- Nothing is in flight. -/
def Quiet (x : Exchange) : Prop := x.toBackup = [] ∧ x.toPrimary = []

/-- Both nodes hold the whole history, committed and applied, and the same engine. -/
structure Converged (history : List LogEntry) (x : Exchange) : Prop where
  whole : x.primary.log.Whole ∧ x.backup.log.Whole
  entries : x.primary.log.entries = history ∧ x.backup.log.entries = x.primary.log.entries
  lastSeq : x.backup.log.lastSeq = x.primary.log.lastSeq
  lastApplied : x.primary.lastApplied = history.length ∧ x.backup.lastApplied = history.length
  commitIndex : x.primary.commitIndex = history.length ∧ x.backup.commitIndex = history.length
  engine : x.backup.engine = x.primary.engine

variable {history : List LogEntry} {instrument : InstrumentId}

/-- The primary has its backup on file, and nothing there that is not so: the backup holds the first `held`
entries. -/
structure Paired (history : List LogEntry) (instrument : InstrumentId) (x : Exchange) (record : BackupState)
    (held : Nat) : Prop where
  primary : x.primary.Leads history instrument
  backup : x.backup.Replays history instrument held
  sameTerm : x.backup.term = x.primary.term
  knows : x.primary.Knows record
  named : record.id = x.backup.self
  matched : record.matchSeq ≤ held
  notified : record.lastCommitSent ≤ x.primary.commitIndex

/-- What is left to do for a backup that holds `held` entries. -/
def remaining (history : List LogEntry) (record : BackupState) (held : Nat) : Nat :=
  4 * (history.length - held) + if record.lastCommitSent < history.length then 2 else 0

theorem remaining_le (history : List LogEntry) (record : BackupState) (held : Nat) :
    remaining history record held ≤ 4 * (history.length - held) + 2 := by
  unfold remaining
  split_ifs <;> omega

/-- **The invariant**: where the exchange is, and how much is left of it. -/
inductive Stage (history : List LogEntry) (instrument : InstrumentId) (x : Exchange) : Nat → Prop
  /-- The first message, at the log head. -/
  | probing {record : BackupState} {held : Nat} (paired : x.Paired history instrument record held)
      (isSent : x.toBackup = [.appendEntries x.primary.headAppend]) (silent : x.toPrimary = [])
      (fresh : record.lastSent = 0) : Stage history instrument x (4 * (history.length - held) + 8)
  /-- The backup lacks the log head. -/
  | refused {record : BackupState} {held : Nat} (paired : x.Paired history instrument record held)
      (silent : x.toBackup = []) (answer : x.toPrimary = [.appendResponse (x.backup.response false)])
      (behind : held < history.length) : Stage history instrument x (4 * (history.length - held) + 7)
  /-- A batch, or a bare commit point, that the backup has the predecessor of. -/
  | sending {record : BackupState} {held count : Nat} {msg : AppendEntries}
      (paired : x.Paired history instrument record held) (slice : x.primary.Slice history count msg)
      (before : msg.prevSeq ≤ held) (isSent : x.toBackup = [.appendEntries msg]) (silent : x.toPrimary = [])
      (reached : record.lastSent ≤ max held count) :
      Stage history instrument x (remaining history record (max held count) + 2)
  /-- The backup has taken the message over. -/
  | answered {record : BackupState} {held : Nat} (paired : x.Paired history instrument record held)
      (silent : x.toBackup = []) (answer : x.toPrimary = [.appendResponse (x.backup.response true)])
      (reached : record.lastSent ≤ held) (adopted : min x.primary.commitIndex held ≤ x.backup.commitIndex)
      (settled : x.backup.commitIndex ≤ x.backup.lastApplied) :
      Stage history instrument x (remaining history record held + 1)
  | finished {record : BackupState} (paired : x.Paired history instrument record history.length)
      (quiet : x.Quiet) (committed : x.primary.commitIndex = history.length)
      (adopted : history.length ≤ x.backup.commitIndex)
      (settled : x.backup.commitIndex ≤ x.backup.lastApplied) : Stage history instrument x 0

variable {x next : Exchange} {record : BackupState} {held : Nat}

theorem step_toBackup_of_nil (silent : x.toBackup = []) : x.step .toBackup = none := by
  unfold Exchange.step
  rw [silent]

theorem step_toPrimary_of_nil (silent : x.toPrimary = []) : x.step .toPrimary = none := by
  unfold Exchange.step
  rw [silent]

/-! ### A delivery to the backup -/

/-- **The backup takes a message over** that it has the predecessor of. -/
theorem Paired.deliver (paired : x.Paired history instrument record held) {count : Nat}
    {msg : AppendEntries} (slice : x.primary.Slice history count msg) (before : msg.prevSeq ≤ held)
    (isSent : x.toBackup = [.appendEntries msg]) (silent : x.toPrimary = [])
    (reached : record.lastSent ≤ max held count) (enabled : x.step .toBackup = some next) :
    next.Stage history instrument (remaining history record (max held count) + 1) := by
  obtain ⟨backup, handles, replays, self, term, adopted, settled⟩ :=
    paired.backup.handleAppendEntries paired.primary.retains.numbered slice before
      (Nat.le_of_eq paired.sameTerm) { link := {} } x.primary.self
  have goes : x.step .toBackup = some { x with
      backup
      toBackup := []
      toPrimary := [.appendResponse (backup.response true)] } := by
    unfold Exchange.step Replicator.onMessage
    rw [isSent, silent]
    simp only [handles, Transport.messagesTo_send, List.nil_append]
  obtain rfl := Option.some.inj (goes.symm.trans enabled)
  exact .answered
    ⟨paired.primary, replays, term.trans paired.sameTerm, paired.knows, paired.named.trans self.symm,
      paired.matched.trans (Nat.le_max_left _ _), paired.notified⟩ rfl rfl reached adopted settled

/-- **The backup refuses the probe** that it lacks the predecessor of. -/
theorem Paired.refuse (paired : x.Paired history instrument record held) (behind : held < history.length)
    (isSent : x.toBackup = [.appendEntries x.primary.headAppend]) (silent : x.toPrimary = [])
    (enabled : x.step .toBackup = some next) :
    next.Stage history instrument (4 * (history.length - held) + 7) := by
  have head : x.primary.headAppend.prevSeq = history.length := paired.primary.replays.lastSeq
  obtain ⟨stats, handles⟩ := paired.backup.handleAppendEntries_refuses (head ▸ behind)
    (Nat.le_of_eq paired.sameTerm) { link := {} } x.primary.self
  have goes : x.step .toBackup = some { x with
      backup := { x.backup with stats }
      toBackup := []
      toPrimary := [.appendResponse (x.backup.response false)] } := by
    unfold Exchange.step Replicator.onMessage
    rw [isSent, silent]
    simp only [handles, Transport.messagesTo_send, List.nil_append]
  obtain rfl := Option.some.inj (goes.symm.trans enabled)
  have backup := paired.backup
  exact .refused
    ⟨paired.primary, ⟨backup.whole, backup.entries, backup.inside, backup.committed, backup.applied,
      backup.engine⟩, paired.sameTerm, paired.knows, paired.named, paired.matched, paired.notified⟩
    rfl rfl behind

/-! ### A delivery to the primary -/

/-- **The primary takes note of an answer**: nothing is left to do, or the next message is on its way. -/
theorem Paired.hear (paired : x.Paired history instrument record held) (short : history.length < 2 ^ 64 - 1)
    {ok : Bool} {noted : BackupState} (notes : record.respond (x.backup.response ok) = noted) (silent : x.toBackup = [])
    (answer : x.toPrimary = [.appendResponse (x.backup.response ok)]) (reached : noted.lastSent ≤ held)
    (enabled : x.step .toPrimary = some next) :
    next.primary.commitIndex = max x.primary.commitIndex noted.matchSeq ∧
      next.backup = x.backup ∧ next.toPrimary = [] ∧
        ((next.Paired history instrument noted held ∧ next.toBackup = [] ∧
            max noted.matchSeq noted.lastSent = history.length ∧
              next.primary.commitIndex ≤ record.lastCommitSent) ∨
          ∃ msg count, next.Paired history instrument (noted.told msg) held ∧
            next.toBackup = [.appendEntries msg] ∧ next.primary.Slice history count msg ∧
              msg.prevSeq = max noted.matchSeq noted.lastSent ∧
                (noted.told msg).lastSent ≤ max held count ∧
                  (msg.prevSeq < count ∨ msg.prevSeq = history.length ∧ count = history.length ∧
                    record.lastCommitSent < next.primary.commitIndex)) := by
  have inside := paired.backup.inside
  have matched : noted.matchSeq ≤ held := by
    rw [← notes]
    cases ok with
    | false => exact paired.matched
    | true => exact Nat.le_of_eq paired.backup.lastSeq
  have id : noted.id = record.id := notes ▸ rfl
  have notified : noted.lastCommitSent = record.lastCommitSent := notes ▸ rfl
  have hears := paired.primary.handleAppendResponse paired.knows (x.backup.response ok)
    (Nat.le_of_eq paired.sameTerm)
  rw [notes, paired.named] at hears
  have within : max noted.matchSeq noted.lastSent ≤ history.length := by omega
  obtain ⟨primary, leads, self, term, committed, outcome⟩ := hears (matched.trans inside) (by omega)
  have sent := leads.appendFor within short
  have later : record.lastCommitSent ≤ primary.commitIndex := by
    rw [committed]
    exact paired.notified.trans (Nat.le_max_left _ _)
  rcases outcome with ⟨handles, knows, nothing⟩ | ⟨msg, handles, knows, isFor⟩
  · have goes : x.step .toPrimary = some { x with primary, toPrimary := [], toBackup := [] } := by
      unfold Exchange.step Replicator.onMessage
      rw [answer, silent]
      simp only [handles]
      rfl
    obtain rfl := Option.some.inj (goes.symm.trans enabled)
    rcases sent with ⟨_, done, told⟩ | ⟨msg, _, isFor, _⟩
    · refine ⟨committed, rfl, rfl, Or.inl ⟨?_, rfl, done, notified ▸ told⟩⟩
      exact ⟨leads, paired.backup, paired.sameTerm.trans term.symm, knows, id.trans paired.named, matched,
        notified ▸ later⟩
    · rw [nothing] at isFor
      cases isFor
  · have goes : x.step .toPrimary = some { x with
        primary
        toPrimary := []
        toBackup := [.appendEntries msg] } := by
      unfold Exchange.step Replicator.onMessage
      rw [answer, silent]
      simp only [handles, Transport.messagesTo_send, List.nil_append]
    obtain rfl := Option.some.inj (goes.symm.trans enabled)
    rcases sent with ⟨nothing, _⟩ | ⟨msg', count, isFor', slice, prevSeq, more⟩
    · rw [isFor] at nothing
      cases nothing
    · obtain rfl := Option.some.inj (isFor.symm.trans isFor')
      have lastSent := slice.lastSent_told_le leads.retains.numbered noted
      refine ⟨committed, rfl, rfl,
        Or.inr ⟨msg, count, ?_, rfl, slice, prevSeq, by omega, notified ▸ more⟩⟩
      exact ⟨leads, paired.backup, paired.sameTerm.trans term.symm, knows, id.trans paired.named, matched,
        Nat.le_of_eq slice.commitSeq⟩

/-- **A refusal** says where the backup is: the next message goes on from there, or from what is known to be
replicated. -/
theorem Paired.resume (paired : x.Paired history instrument record held)
    (short : history.length < 2 ^ 64 - 1) (silent : x.toBackup = [])
    (answer : x.toPrimary = [.appendResponse (x.backup.response false)]) (behind : held < history.length)
    (enabled : x.step .toPrimary = some next) :
    ∃ less < 4 * (history.length - held) + 7, next.Stage history instrument less := by
  generalize notes : record.respond (x.backup.response false) = noted
  have lastSent : noted.lastSent = x.backup.lastApplied := by
    rw [← notes]
    simp [BackupState.respond, Replicator.response]
  have same : noted.matchSeq = record.matchSeq := notes ▸ rfl
  have applied := paired.backup.applied
  have matched := paired.matched
  obtain ⟨_, _, silent', ⟨_, _, done, _⟩ |
      ⟨msg, count, paired', isSent, slice, prevSeq, reached, _⟩⟩ :=
    paired.hear short notes silent answer (lastSent ▸ applied) enabled
  · omega
  · refine ⟨_, ?_, .sending paired' slice (by omega) isSent silent' reached⟩
    have most := remaining_le history (noted.told msg) (max held count)
    omega

/-- **An acceptance** lets the primary commit, and go on: with more entries, with the last commit point, or not
at all. -/
theorem Paired.proceed (paired : x.Paired history instrument record held)
    (short : history.length < 2 ^ 64 - 1) (silent : x.toBackup = [])
    (answer : x.toPrimary = [.appendResponse (x.backup.response true)]) (reached : record.lastSent ≤ held)
    (adopted : min x.primary.commitIndex held ≤ x.backup.commitIndex)
    (settled : x.backup.commitIndex ≤ x.backup.lastApplied) (enabled : x.step .toPrimary = some next) :
    ∃ less < remaining history record held + 1, next.Stage history instrument less := by
  generalize notes : record.respond (x.backup.response true) = noted
  have applied := paired.backup.applied
  have notified := paired.notified
  have lastSent : noted.lastSent ≤ held := by
    rw [← notes]
    show (if ¬ true = true ∨ record.lastSent < x.backup.lastApplied then x.backup.lastApplied
      else record.lastSent) ≤ held
    split_ifs <;> omega
  have matched : noted.matchSeq = held := by
    rw [← notes]
    exact paired.backup.lastSeq
  obtain ⟨committed, same, silent', ⟨paired', quiet, done, told⟩ |
      ⟨msg, count, paired', isSent, slice, prevSeq, reached', more⟩⟩ :=
    paired.hear short notes silent answer lastSent enabled
  · have within := paired'.primary.replays.committed
    have all : held = history.length := by omega
    subst all
    refine ⟨0, Nat.succ_pos _, .finished paired' ⟨quiet, silent'⟩ (by omega) ?_ (same ▸ settled)⟩
    rw [same]
    omega
  · refine ⟨_, ?_, .sending paired' slice (by omega) isSent silent' reached'⟩
    have within := paired'.primary.replays.committed
    have told : (noted.told msg).lastCommitSent = next.primary.commitIndex := slice.commitSeq
    rcases more with longer | ⟨head, all, news⟩
    · have short := slice.short
      have most := remaining_le history (noted.told msg) (max held count)
      have least : 4 * (history.length - held) ≤ remaining history record held := Nat.le_add_right _ _
      omega
    · have unpaid : record.lastCommitSent < history.length := by omega
      have paid : ¬ (noted.told msg).lastCommitSent < history.length := by omega
      unfold remaining
      rw [if_pos unpaid, if_neg paid]
      omega

/-! ### Runs -/

/-- **Every delivery** takes the exchange to its next stage. -/
theorem Stage.step (short : history.length < 2 ^ 64 - 1) {weight : Nat}
    (stage : x.Stage history instrument weight) {delivery : Delivery} (enabled : x.step delivery = some next) :
    ∃ less < weight, next.Stage history instrument less := by
  cases stage with
  | @probing record held paired isSent silent fresh =>
    have inside := paired.backup.inside
    cases delivery with
    | toBackup =>
      by_cases behind : held < history.length
      · exact ⟨_, Nat.lt_succ_self _, paired.refuse behind isSent silent enabled⟩
      · have head : x.primary.headAppend.prevSeq = history.length := paired.primary.replays.lastSeq
        refine ⟨_, ?_, paired.deliver paired.primary.slice_headAppend (by omega) isSent silent (by omega)
          enabled⟩
        have most := remaining_le history record (max held history.length)
        omega
    | toPrimary =>
      rw [step_toPrimary_of_nil silent] at enabled
      cases enabled
  | refused paired silent answer behind =>
    cases delivery with
    | toBackup =>
      rw [step_toBackup_of_nil silent] at enabled
      cases enabled
    | toPrimary => exact paired.resume short silent answer behind enabled
  | sending paired slice before isSent silent reached =>
    cases delivery with
    | toBackup => exact ⟨_, Nat.lt_succ_self _, paired.deliver slice before isSent silent reached enabled⟩
    | toPrimary =>
      rw [step_toPrimary_of_nil silent] at enabled
      cases enabled
  | answered paired silent answer reached adopted settled =>
    cases delivery with
    | toBackup =>
      rw [step_toBackup_of_nil silent] at enabled
      cases enabled
    | toPrimary => exact paired.proceed short silent answer reached adopted settled enabled
  | finished paired quiet committed adopted settled =>
    cases delivery with
    | toBackup =>
      rw [step_toBackup_of_nil quiet.1] at enabled
      cases enabled
    | toPrimary =>
      rw [step_toPrimary_of_nil quiet.2] at enabled
      cases enabled

/-- What is in flight can be delivered. -/
theorem quiet_or_enabled (x : Exchange) : x.Quiet ∨ ∃ delivery next, x.step delivery = some next := by
  cases back : x.toBackup with
  | cons msg rest =>
    have moves : (x.step .toBackup).isSome = true := by
      unfold Exchange.step
      rw [back]
      rfl
    exact Or.inr ⟨.toBackup, Option.isSome_iff_exists.mp moves⟩
  | nil =>
    cases front : x.toPrimary with
    | cons msg rest =>
      have moves : (x.step .toPrimary).isSome = true := by
        unfold Exchange.step
        rw [front]
        rfl
      exact Or.inr ⟨.toPrimary, Option.isSome_iff_exists.mp moves⟩
    | nil => exact Or.inl ⟨back, front⟩

/-- **An exchange that is over** has converged. -/
theorem Stage.converged {weight : Nat} (stage : x.Stage history instrument weight) (quiet : x.Quiet) :
    x.Converged history := by
  cases stage with
  | probing _ isSent => exact absurd (isSent.symm.trans quiet.1) (List.cons_ne_nil _ _)
  | refused _ _ answer => exact absurd (answer.symm.trans quiet.2) (List.cons_ne_nil _ _)
  | sending _ _ _ isSent => exact absurd (isSent.symm.trans quiet.1) (List.cons_ne_nil _ _)
  | answered _ _ answer => exact absurd (answer.symm.trans quiet.2) (List.cons_ne_nil _ _)
  | finished paired _ committed adopted settled =>
    have primary := paired.primary.replays
    have backup := paired.backup
    have applied : x.primary.lastApplied = history.length :=
      Nat.le_antisymm primary.applied (committed ▸ paired.primary.settled)
    have applied' : x.backup.lastApplied = history.length :=
      Nat.le_antisymm backup.applied (adopted.trans settled)
    refine ⟨⟨primary.whole, backup.whole⟩, ⟨?_, backup.entries.trans primary.entries.symm⟩,
      backup.lastSeq.trans primary.lastSeq.symm, ⟨applied, applied'⟩,
      ⟨committed, Nat.le_antisymm backup.committed adopted⟩, ?_⟩
    · rw [primary.entries, List.take_length]
    · rw [backup.engine, primary.engine, applied, applied']

/-- The connection comes up between a primary and a backup that holds a front of its log. -/
theorem stage_connect {primary backup : Replicator} (leads : primary.Leads history instrument)
    (follows : backup.Replays history instrument held) (following : backup.role = .backup)
    (sameTerm : backup.term = primary.term)
    (alone : ∀ id record, primary.backups.find? id = some record →
      id = backup.self ∧ record.matchSeq ≤ held ∧ record.lastCommitSent ≤ primary.commitIndex) :
    (connect primary backup).Stage history instrument (4 * (history.length - held) + 8) := by
  -- The backup has nothing to say; the primary files it and probes.
  have idle : backup.onPeerUp { link := {} } primary.self = (backup, { link := {} }) := by
    refine if_pos ?_
    rw [following]
    exact nofun
  obtain ⟨primary', record, greets, leads', self, term, knows, named, fresh, matched, notified⟩ :=
    leads.onPeerUp backup.self alone
  unfold connect
  rw [greets, idle]
  simp only [Transport.messagesTo_send]
  exact .probing ⟨leads', follows, sameTerm.trans term.symm, knows, named, matched, notified⟩ rfl rfl fresh

end Exchange

open Exchange

/-- **Catch-up terminates and converges.** From `onPeerUp` on, a primary and a backup of its term that holds
any front of its log exchange a bounded number of messages, in whatever order the two ends hear them; every
exchange comes to its end, and there both nodes have the whole log, committed and applied, and the same
engine. What the primary has on file may be left from an earlier connection to the backup, as long as it does
not overstate what the backup holds. The log is not so long that the number after its head wraps around. -/
theorem catchUp_converges {history : List LogEntry} {instrument : InstrumentId} {held : Nat}
    {primary backup : Replicator} (short : history.length < 2 ^ 64 - 1)
    (leads : primary.Leads history instrument) (follows : backup.Replays history instrument held)
    (following : backup.role = .backup) (sameTerm : backup.term = primary.term)
    (alone : ∀ id record, primary.backups.find? id = some record →
      id = backup.self ∧ record.matchSeq ≤ held ∧ record.lastCommitSent ≤ primary.commitIndex)
    (deliveries : List Delivery) (reached : Exchange)
    (ran : run Exchange.step (connect primary backup) deliveries = some reached) :
    deliveries.length ≤ 4 * (history.length - held) + 8 ∧
      (∃ more ended, run Exchange.step reached more = some ended ∧ ended.Quiet ∧
          ended.Converged history) ∧
        (reached.Quiet → reached.Converged history) := by
  have start := stage_connect leads follows following sameTerm alone
  obtain ⟨left, within, stage⟩ :=
    run_weight (Stage history instrument) (fun stage enabled => stage.step short enabled) start ran
  obtain ⟨more, ended, ran', quiet⟩ := exists_run_done (Stage history instrument)
    (fun stage enabled => stage.step short enabled) Quiet (fun {state _} _ => state.quiet_or_enabled) stage
  obtain ⟨_, _, stage'⟩ :=
    run_weight (Stage history instrument) (fun stage enabled => stage.step short enabled) stage ran'
  exact ⟨by omega, ⟨more, ended, ran', quiet, stage'.converged quiet⟩, stage.converged⟩

/-- Two entries of term 3. -/
def shortHistory : List LogEntry :=
  [{ seq := 1, term := 3, command := .cancelOrder ⟨5⟩ },
    { seq := 2, term := 3, command := .cancelOrder ⟨6⟩ }]

/-- A primary that has committed the first of the two. -/
def aheadPrimary : Replicator where
  self := 1
  role := .primary
  mode := .asynchronous
  engine := MatchingEngine.replay 1 [.cancelOrder ⟨5⟩]
  log := ((({} : CommandLog).append (.cancelOrder ⟨5⟩) 3).1.append (.cancelOrder ⟨6⟩) 3).1
  lastApplied := 1
  commitIndex := 1
  term := 3

/-- A backup that holds the first of the two and has applied nothing. -/
def laggingBackup : Replicator where
  self := 2
  role := .backup
  mode := .asynchronous
  engine := { instrument := 1 }
  log := (({} : CommandLog).append (.cancelOrder ⟨5⟩) 3).1
  term := 3

theorem catchUp_converges_lagging :
    ∃ more ended, run Exchange.step (connect aheadPrimary laggingBackup) more = some ended ∧ ended.Quiet ∧
      ended.Converged shortHistory :=
  have leads : aheadPrimary.Leads shortHistory 1 :=
    ⟨⟨(CommandLog.whole_empty.append _ 3).append _ 3, rfl, by decide, by decide, by decide, rfl⟩,
      rfl, rfl, by decide, by decide⟩
  have follows : laggingBackup.Replays shortHistory 1 1 :=
    ⟨CommandLog.whole_empty.append _ 3, rfl, by decide, by decide, by decide, rfl⟩
  (catchUp_converges (by decide) leads follows rfl rfl (fun _ _ found => nomatch found) [] _ rfl).2.1

/-- The probe is refused, then come the missing entry and the last commit point. -/
example : ((run Exchange.step (connect aheadPrimary laggingBackup)
    [.toBackup, .toPrimary, .toBackup, .toPrimary, .toBackup, .toPrimary]).map fun ended =>
      (ended.toBackup, ended.toPrimary, ended.backup.commitIndex)) = some ([], [], 2) := by
  decide +kernel

end Sententia
