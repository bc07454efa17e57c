/-
**No replication amplification.** Over one connection the range sent next to a backup begins behind
`max matchSeq lastSent`. A delayed or repeated response moves `matchSeq` back, and a refused send moves
nothing, but with nothing but good responses `lastSent` only grows, and it never lags behind what was sent.

* `Serves` — sending, as one backup sees it: nothing, or the message that `appendFor` has for it.
* `Connection` — a primary and what it has sent over a connection to one backup.
* `Connection.Once` — the invariant: what was sent is ascending and at or below `lastSent`.
* `no_amplification` — every sequence number is in at most one message sent over the connection.
-/

import Sententia.Replication.AppendFor
import Sententia.Replication.LogRepresentation
import Sententia.Replication.OnlyPrimary
import Sententia.Replication.Replica

namespace Sententia

open Library

/-- The `AppendEntries` among some messages that go to one node. -/
def appendsTo (id : NodeId) (sent : List (NodeId × Message)) : List AppendEntries :=
  sent.filterMap fun (target, message) =>
    match message with
    | .appendEntries append => if target = id then some append else none
    | _ => none

theorem appendsTo_append (id : NodeId) (sent more : List (NodeId × Message)) :
    appendsTo id (sent ++ more) = appendsTo id sent ++ appendsTo id more :=
  List.filterMap_append

theorem appendsTo_other {id target : NodeId} (other : target ≠ id) (message : Message) :
    appendsTo id [(target, message)] = [] := by
  cases message <;> simp [appendsTo, other]

/-- One send, as another node sees it. -/
theorem appendsTo_send_other {id target : NodeId} (other : target ≠ id) (net : Transport)
    (message : Message) : appendsTo id (net.send target message).1.sent = appendsTo id net.sent := by
  rcases net.sent_send target message with ⟨_, grown⟩ | ⟨_, same⟩
  · rw [grown, appendsTo_append, appendsTo_other other, List.append_nil]
  · rw [same]

/-- The entries are numbered one by one, from one on. -/
structure CommandLog.FromOne (log : CommandLog) : Prop where
  consecutive : log.Consecutive
  positive : ∀ entry ∈ log.entries, 0 < entry.seq

namespace CommandLog

variable {log : CommandLog}

theorem Consecutive.fromOne (consecutive : log.Consecutive) (positive : 0 < log.firstSeq) : log.FromOne := by
  refine ⟨consecutive, fun entry member => ?_⟩
  obtain ⟨i, found⟩ := List.mem_iff_getElem?.mp member
  rw [(consecutive.seq_of_getElem? found).2]
  omega

namespace FromOne

theorem append (fromOne : log.FromOne) (cmd : Command) (term : Nat) : (log.append cmd term).1.FromOne := by
  refine ⟨fromOne.consecutive.append cmd term, fun entry member => ?_⟩
  rcases List.mem_append.mp member with old | new
  · exact fromOne.positive entry old
  · obtain rfl := List.mem_singleton.mp new
    exact Nat.succ_pos _

theorem appendAt (fromOne : log.FromOne) {seq term : Nat} {cmd : Command} {log' : CommandLog}
    (grown : log.appendAt seq term cmd = some log') : log'.FromOne := by
  refine ⟨fromOne.consecutive.appendAt grown, ?_⟩
  unfold CommandLog.appendAt at grown
  split_ifs at grown with refused
  obtain rfl := Option.some.inj grown
  intro entry member
  rcases List.mem_append.mp member with old | new
  · exact fromOne.positive entry old
  · obtain rfl := List.mem_singleton.mp new
    show 0 < seq
    omega

theorem truncateFrom (fromOne : log.FromOne) (seq : Nat) : (log.truncateFrom seq).FromOne :=
  ⟨fromOne.consecutive.truncateFrom seq,
    fun entry member => fromOne.positive entry ((popBackFrom_front seq log.entries).subset member)⟩

theorem truncateThrough (fromOne : log.FromOne) (seq : Nat) : (log.truncateThrough seq).FromOne :=
  ⟨fromOne.consecutive.truncateThrough seq, fun entry member => fromOne.positive entry
    ((popFrontThrough_suffix seq log.truncatedThrough log.entries).1.subset member)⟩

/-- Number zero is none that the log serves. -/
theorem pos_of_served (fromOne : log.FromOne) {seq : Nat} (served : log.canServeFrom seq = true) :
    0 < seq := by
  have first : 0 < log.firstSeq := by
    unfold firstSeq
    cases kept : log.entries with
    | nil => exact Nat.succ_pos _
    | cons entry rest => exact fromOne.positive entry (kept ▸ List.mem_cons_self)
  rcases of_decide_eq_true served with next | ⟨above, _⟩
  · omega
  · omega

end FromOne

end CommandLog

namespace Replicator

variable {rep rep' rep'' : Replicator} {net net' net'' : Transport} {id : NodeId}

/-! ### Messages and what is written down about them -/

/-- The records of the message for a backup follow what was sent to it, and are what is then noted. -/
theorem appendFor_records (fromOne : rep.log.FromOne) {backup : BackupState} {msg : AppendEntries}
    (isFor : rep.appendFor backup = some msg) :
    backup.lastSent ≤ (backup.told msg).lastSent ∧
      ∀ record ∈ msg.entries, backup.lastSent < record.seq ∧ record.seq ≤ (backup.told msg).lastSent := by
  unfold appendFor at isFor
  split_ifs at isFor with all news served
  · obtain rfl := Option.some.inj isFor
    exact ⟨Nat.le_refl _, fun record member => absurd member List.not_mem_nil⟩
  · obtain rfl := Option.some.inj isFor
    -- A sum that has wrapped around is a number no log serves.
    have next : backup.lastSent < backup.nextSeq :=
      (Nat.le_max_right _ _).trans_lt (BackupState.lt_nextSeq (fromOne.pos_of_served served.1))
    have numbers : ∀ i record, (rep.batchAppend backup.nextSeq).entries[i]? = some record →
        record.seq = backup.nextSeq + i := by
      intro i record found
      have found' : ((rep.log.range backup.nextSeq kMaxEntriesPerAppend).map LogEntry.record)[i]? =
          some record := found
      rw [List.getElem?_map] at found'
      obtain ⟨entry, here, rfl⟩ := Option.map_eq_some_iff.mp found'
      exact fromOne.consecutive.range here
    generalize rep.batchAppend backup.nextSeq = msg at served numbers
    have isLast := List.getLast?_eq_some_getLast served.2
    have last : (backup.told msg).lastSent = backup.nextSeq + (msg.entries.length - 1) := by
      unfold BackupState.told
      rw [List.getLast?_eq_getElem?] at isLast ⊢
      rw [isLast]
      exact numbers _ _ isLast
    refine ⟨by omega, fun record member => ?_⟩
    obtain ⟨i, found⟩ := List.mem_iff_getElem?.mp member
    have here := numbers i record found
    have inside := (List.getElem?_eq_some_iff.mp found).1
    omega

theorem appendFor_of_core (same : rep'.core = rep.core) (backup : BackupState) :
    rep'.appendFor backup = rep.appendFor backup := by
  show rep'.core.appendFor backup = rep.core.appendFor backup
  rw [same]

/-! ### Sending, as one backup sees it -/

/-- Nothing is sent to this backup, and it is filed as it was. -/
def Quiet (id : NodeId) (rep : Replicator) (net : Transport) (rep' : Replicator) (net' : Transport) :
    Prop :=
  rep'.backups.find? id = rep.backups.find? id ∧ appendsTo id net'.sent = appendsTo id net.sent

theorem Quiet.trans (first : Quiet id rep net rep' net') (second : Quiet id rep' net' rep'' net'') :
    Quiet id rep net rep'' net'' :=
  ⟨second.1.trans first.1, second.2.trans first.2⟩

/-- From `rep` to `rep'` only sending has happened, and to this backup at most one message. -/
structure Serves (id : NodeId) (rep : Replicator) (net : Transport) (rep' : Replicator)
    (net' : Transport) : Prop where
  frame : rep'.core = rep.core
  named : rep.Named → rep'.Named
  served : Quiet id rep net rep' net' ∨
    ∃ backup msg, rep.backups.find? id = some backup ∧ backup.probing = false ∧
      rep.appendFor backup = some msg ∧ rep'.backups.find? id = some (backup.told msg) ∧
        appendsTo id net'.sent = appendsTo id net.sent ++ [msg]

theorem Serves.of_quiet (frame : rep'.core = rep.core) (named : rep.Named → rep'.Named)
    (quiet : Quiet id rep net rep' net') : Serves id rep net rep' net' :=
  ⟨frame, named, Or.inl quiet⟩

theorem Serves.refl (id : NodeId) (rep : Replicator) (net : Transport) : Serves id rep net rep net :=
  .of_quiet rfl (fun named => named) ⟨rfl, rfl⟩

theorem Serves.trans_quiet (first : Serves id rep net rep' net') (frame : rep''.core = rep'.core)
    (named : rep'.Named → rep''.Named) (quiet : Quiet id rep' net' rep'' net'') :
    Serves id rep net rep'' net'' := by
  refine ⟨frame.trans first.frame, fun isNamed => named (first.named isNamed), ?_⟩
  rcases first.served with before | ⟨backup, msg, found, ready, isFor, told, grown⟩
  · exact Or.inl (before.trans quiet)
  · exact Or.inr ⟨backup, msg, found, ready, isFor, quiet.1.trans told, quiet.2.trans grown⟩

theorem Quiet.trans_serves (quiet : Quiet id rep net rep' net') (frame : rep'.core = rep.core)
    (named : rep.Named → rep'.Named) (second : Serves id rep' net' rep'' net'') :
    Serves id rep net rep'' net'' := by
  refine ⟨second.frame.trans frame, fun isNamed => second.named (named isNamed), ?_⟩
  rcases second.served with after | ⟨backup, msg, found, ready, isFor, told, grown⟩
  · exact Or.inl (quiet.trans after)
  · refine Or.inr ⟨backup, msg, quiet.1.symm.trans found, ready, ?_, told, ?_⟩
    · rw [← appendFor_of_core frame]
      exact isFor
    · rw [grown, quiet.2]

/-- `sendAppend` to another backup. -/
theorem quiet_sendAppend {other : NodeId} {state : BackupState} (apart : other ≠ id)
    (named : state.id = other) (rep : Replicator) (net : Transport) :
    Quiet id rep net { (rep.sendAppend net state).1 with
      backups := (rep.sendAppend net state).1.backups.insert other (rep.sendAppend net state).2.2 }
      (rep.sendAppend net state).2.1 := by
  have elsewhere : ∀ (backups : OrderedMap NodeId BackupState (· < ·)) (filed : BackupState),
      (backups.insert other filed).find? id = backups.find? id := fun backups filed => by
    rw [OrderedMap.find?_insert, if_neg apart.symm]
  rcases rep.sendAppend_eq net state with ⟨_, nothing⟩ | ⟨msg, stats, _, _, once⟩
  · rw [nothing]
    exact ⟨elsewhere _ _, rfl⟩
  · rw [once]
    exact ⟨elsewhere _ _, appendsTo_send_other (named ▸ apart) net _⟩

/-- `sendAppend` to this backup, once it is not being probed. -/
theorem serves_sendAppend {state : BackupState} (found : rep.backups.find? id = some state)
    (named : state.id = id) (ready : state.probing = false) (net : Transport) :
    Serves id rep net { (rep.sendAppend net state).1 with
      backups := (rep.sendAppend net state).1.backups.insert id (rep.sendAppend net state).2.2 }
      (rep.sendAppend net state).2.1 := by
  have sends := Sends.of_sendsTo (rep.sendAppend_sendsTo net state) found rfl rfl
  refine ⟨sends.frame, sends.named, ?_⟩
  rcases rep.sendAppend_eq net state with ⟨_, nothing⟩ | ⟨msg, stats, _, isFor, once⟩
  · rw [nothing]
    exact Or.inl ⟨(OrderedMap.find?_insert_self _ _ _).trans found.symm, rfl⟩
  · rw [once]
    unfold Quiet
    simp only
    rcases net.sent_send state.id (.appendEntries msg) with ⟨taken, grown⟩ | ⟨refused, same⟩
    · rw [if_pos taken, grown]
      refine Or.inr ⟨state, msg, found, ready, isFor, OrderedMap.find?_insert_self _ _ _, ?_⟩
      rw [appendsTo_append, named]
      simp [appendsTo]
    · rw [if_neg refused, same]
      exact Or.inl ⟨(OrderedMap.find?_insert_self _ _ _).trans found.symm, rfl⟩

/-- **A loop that sends to every backup that is not being probed, or passes it over**, sends this one at
most one message. -/
theorem forBackups_serves (id : NodeId)
    {body : Replicator → Transport → NodeId → BackupState → Replicator × Transport × BackupState}
    (sends : ∀ rep net id state, body rep net id state = (rep, net, state) ∨
      (state.probing = false ∧ body rep net id state = rep.sendAppend net state))
    (named : rep.Named) (net : Transport) :
    Serves id rep net (rep.forBackups body net).1 (rep.forBackups body net).2 := by
  have loop := forBackups_remaining (fun left rep' net' => Serves id rep net rep' net' ∧
      (left.map Prod.fst).Nodup ∧ (∀ entry ∈ left, rep'.backups.find? entry.1 = some entry.2) ∧
        (id ∈ left.map Prod.fst → Quiet id rep net rep' net')) body rep net
    ⟨Serves.refl id rep net, rep.backups.keys_nodup,
      fun entry member => rep.backups.find?_eq_some_iff.mpr member, fun _ => ⟨rfl, rfl⟩⟩ ?_
  · exact loop.1
  · rintro other state rest rep' net' ⟨soFar, nodup, filed, untouched⟩
    obtain ⟨notRest, nodup'⟩ := List.nodup_cons.mp nodup
    have found : rep'.backups.find? other = some state := filed (other, state) List.mem_cons_self
    have filed' : ∀ entry ∈ rest, rep'.backups.find? entry.1 = some entry.2 := fun entry member =>
      filed entry (List.mem_cons_of_mem _ member)
    rcases sends rep' net' other state with nothing | ⟨ready, sending⟩
    · rw [nothing]
      have same : { rep' with backups := rep'.backups.insert other state } = rep' := by
        rw [OrderedMap.insert_eq_self found]
      rw [same]
      exact ⟨soFar, nodup', filed', fun member => untouched (List.mem_cons_of_mem _ member)⟩
    · rw [sending]
      have isNamed : state.id = other := soFar.named named found
      have sent := Sends.of_sendsTo (rep'.sendAppend_sendsTo net' state) found rfl rfl
      have backups := (rep'.sendAppend_sendsTo net' state).backups
      refine ⟨?_, nodup', fun entry member => ?_, fun member => ?_⟩
      · by_cases same : other = id
        · subst same
          exact (untouched List.mem_cons_self).trans_serves soFar.frame soFar.named
            (serves_sendAppend found isNamed ready net')
        · exact soFar.trans_quiet sent.frame sent.named (quiet_sendAppend same isNamed rep' net')
      · have apart : entry.1 ≠ other := fun same =>
          notRest (List.mem_map.mpr ⟨entry, member, same⟩)
        show ((rep'.sendAppend net' state).1.backups.insert other _).find? entry.1 = _
        rw [OrderedMap.find?_insert, if_neg apart, backups]
        exact filed' entry member
      · have apart : other ≠ id := fun same => notRest (same ▸ member)
        exact (untouched (List.mem_cons_of_mem _ member)).trans
          (quiet_sendAppend apart isNamed rep' net')

/-! ### The calls, as one backup sees them -/

theorem tick_serves (id : NodeId) (named : rep.Named) (net : Transport) :
    Serves id rep net (rep.tick net).1 (rep.tick net).2 := by
  unfold tick
  split_ifs
  · exact Serves.refl id rep net
  · refine forBackups_serves id (fun rep net other state => ?_) named net
    split_ifs with passed needed
    · exact Or.inl rfl
    · exact Or.inr ⟨Bool.eq_false_of_not_eq_true fun probing => passed (Or.inl probing), rfl⟩
    · exact Or.inl rfl

theorem named_accept (named : rep.Named) (cmd : Command) : (rep.accept cmd).Named := by
  obtain ⟨_, _, _, _, _, accepts⟩ := rep.accept_frame cmd
  rw [accepts]
  exact named

/-- `submit` refuses, or appends and sends. -/
theorem submit_serves (id : NodeId) (named : rep.Named) (net : Transport) (cmd : Command) :
    Serves id rep net (rep.submit net cmd).1 (rep.submit net cmd).2.1 ∨
      Serves id (rep.accept cmd) net (rep.submit net cmd).1 (rep.submit net cmd).2.1 := by
  unfold submit
  split_ifs
  · exact Or.inl (Serves.refl id rep net)
  · exact Or.inl (.of_quiet rfl (fun named => named) ⟨rfl, rfl⟩)
  · exact Or.inl (.of_quiet rfl (fun named => named) ⟨rfl, rfl⟩)
  · exact Or.inl (.of_quiet rfl (fun named => named) ⟨rfl, rfl⟩)
  · have named' : (rep.accept cmd).Named := named_accept named cmd
    refine Or.inr (forBackups_serves id (fun rep net other state => ?_) named' net)
    split_ifs with probing
    · exact Or.inl rfl
    · exact Or.inr ⟨Bool.eq_false_of_not_eq_true probing, rfl⟩

theorem named_noted (named : rep.Named) (source : NodeId) (msg : AppendResponse) :
    (rep.respondent source msg).id = source ∧ (rep.noteResponse source msg).Named := by
  have isNamed : (rep.respondent source msg).id = source := by
    unfold respondent
    cases found : rep.backups.find? source with
    | none => rfl
    | some backup =>
      show backup.id = source
      exact named found
  refine ⟨isNamed, ?_⟩
  obtain ⟨_, _, _, _, _, _, equation⟩ := (rep.noted source msg).advanceCommitIndex_frame
  unfold noteResponse
  rw [equation]
  intro other backup found
  replace found : (rep.backups.insert source (rep.respondent source msg)).find? other = some backup :=
    found
  rw [OrderedMap.find?_insert] at found
  split_ifs at found with same
  · rw [← Option.some.inj found, isNamed, same]
  · exact named found

/-- A response is ignored, or noted before more is sent. -/
theorem handleAppendResponse_serves (id : NodeId) (named : rep.Named) (net : Transport)
    (source : NodeId) (msg : AppendResponse) :
    (Serves id rep net (rep.handleAppendResponse net source msg).1
        (rep.handleAppendResponse net source msg).2) ∨
      ∃ stats, Serves id { rep.noteResponse source msg with stats } net
        (rep.handleAppendResponse net source msg).1
        (rep.handleAppendResponse net source msg).2 := by
  obtain ⟨isNamed, named'⟩ := named_noted named source msg
  have filed := rep.find?_noteResponse source msg
  by_cases later : msg.term > rep.term
  · have ignores : rep.handleAppendResponse net source msg = _ := if_pos later
    rw [ignores]
    exact Or.inl (.of_quiet rfl (fun named => named) ⟨rfl, rfl⟩)
  · obtain ⟨stats, equation, _⟩ := handleAppendResponse_current (Nat.le_of_not_lt later) net source
    rw [equation]
    refine Or.inr ⟨stats, ?_⟩
    generalize rep.noteResponse source msg = noted at filed named'
    unfold followUp
    split_ifs
    · by_cases same : source = id
      · subst same
        have filed' : ({ noted with stats } : Replicator).backups.find? source =
            some (rep.respondent source msg) := filed
        exact serves_sendAppend filed' isNamed rfl net
      · have sends := Sends.of_sendsTo (sendAppend_sendsTo { noted with stats } net
          (rep.respondent source msg)) filed rfl rfl
        exact .of_quiet sends.frame sends.named (quiet_sendAppend same isNamed _ net)
    · exact Serves.refl id _ net

/-! ### What every call keeps -/

/-- Backups are filed under their ids, and the log is numbered one by one. -/
structure Kept (rep : Replicator) : Prop where
  named : rep.Named
  fromOne : rep.log.FromOne

theorem rebuildLoop_log (fuel : Nat) (rep : Replicator) (seq : Nat) :
    (rebuildLoop fuel rep seq).log = rep.log := by
  induction fuel generalizing rep seq with
  | zero => rfl
  | succ fuel ih =>
    unfold rebuildLoop
    split_ifs
    · cases rep.log.at? seq with
      | none => rfl
      | some entry => exact ih _ (seq + 1)
    · rfl

theorem rebuildFromLog_log (rep : Replicator) : rep.rebuildFromLog.log = rep.log := by
  have replayed := rebuildLoop_log (rep.log.lastSeq - rep.log.snapshotSeq)
    { rep with engine := rep.rebuildBase, lastApplied := rep.log.snapshotSeq }
    (rep.log.snapshotSeq + 1)
  unfold rebuildFromLog
  simp only
  split_ifs
  · exact replayed
  · exact replayed

theorem appendRecords_fromOne (records : List LogRecord) {rep : Replicator}
    (fromOne : rep.log.FromOne) : (rep.appendRecords records).1.log.FromOne := by
  induction records generalizing rep with
  | nil => exact fromOne
  | cons record rest ih =>
    have stores : ∀ rep : Replicator, rep.log.FromOne → (rep.storeFrom record rest).1.log.FromOne := by
      intro rep fromOne
      unfold storeFrom
      cases grown : rep.log.appendAt record.seq record.term record.command with
      | none => exact fromOne
      | some log => exact ih (fromOne.appendAt grown)
    rw [appendRecords]
    cases rep.log.termAt record.seq with
    | none => exact stores rep fromOne
    | some term =>
      simp only
      split_ifs
      · exact ih fromOne
      · exact fromOne
      · refine stores _ ?_
        rw [rebuildFromLog_log]
        exact fromOne.truncateFrom record.seq
      · exact stores rep fromOne

theorem handleAppendEntries_fromOne (fromOne : rep.log.FromOne) (net : Transport)
    (source : NodeId) (msg : AppendEntries) :
    (rep.handleAppendEntries net source msg).1.log.FromOne := by
  have looped := appendRecords_fromOne msg.entries fromOne
  rcases rep.handleAppendEntries_cases net source msg with ⟨stats, same⟩ | ⟨_, _, absorbed, outcome⟩
  · rw [same]
    exact fromOne
  · rcases outcome with ⟨result, same⟩ | ⟨result, same⟩
    · rw [result] at looped
      rw [same]
      exact looped
    · rw [result] at looped
      obtain ⟨_, _, _, _, _, settled⟩ := absorbed.settle_frame msg.commitSeq
      rw [same, settled]
      exact looped

theorem Kept.serves (kept : rep.Kept) (serves : Serves id rep net rep' net') : rep'.Kept := by
  have log : rep'.log = rep.log := congrArg (·.log) serves.frame
  exact ⟨serves.named kept.named, log ▸ kept.fromOne⟩

theorem Kept.accept (kept : rep.Kept) (cmd : Command) : (rep.accept cmd).Kept := by
  obtain ⟨_, _, _, _, _, accepts⟩ := rep.accept_frame cmd
  rw [accepts]
  exact ⟨kept.named, kept.fromOne.append cmd rep.term⟩

theorem Kept.noteResponse (kept : rep.Kept) (source : NodeId) (msg : AppendResponse) :
    (rep.noteResponse source msg).Kept := by
  refine ⟨(named_noted kept.named source msg).2, ?_⟩
  obtain ⟨_, _, _, _, _, _, equation⟩ := (rep.noted source msg).advanceCommitIndex_frame
  unfold Replicator.noteResponse
  rw [equation]
  exact kept.fromOne

theorem Kept.greet (kept : rep.Kept) (id : NodeId) : (rep.greet id).Kept := by
  refine ⟨fun {other backup} found => ?_, kept.fromOne⟩
  replace found : (rep.backups.insert id _).find? other = some backup := found
  rw [OrderedMap.find?_insert] at found
  split_ifs at found with same
  · rw [← Option.some.inj found, same]
  · exact kept.named found

theorem Kept.onPeerUp (kept : rep.Kept) (net : Transport) (id : NodeId) : (rep.onPeerUp net id).1.Kept := by
  by_cases leading : rep.role = .primary
  · have sends := rep.onPeerUp_sends leading net id
    have log : (rep.onPeerUp net id).1.log = rep.log := congrArg (·.log) sends.frame
    exact ⟨sends.named (kept.greet id).named, log ▸ kept.fromOne⟩
  · rw [rep.onPeerUp_idle leading]
    exact kept

/-- **Every call** keeps backups under their ids and the log numbered. -/
theorem Kept.perform (kept : rep.Kept) (call : Call) : (rep.perform call).1.Kept := by
  cases call with
  | submit cmd link =>
    rcases submit_serves 0 kept.named { link } cmd with refused | accepted
    · exact kept.serves refused
    · exact (kept.accept cmd).serves accepted
  | tick link => exact kept.serves (tick_serves 0 kept.named { link })
  | compactLog =>
    unfold Replicator.perform compactLog
    simp only
    split_ifs
    · exact kept
    · exact kept
    · exact ⟨kept.named, kept.fromOne.truncateThrough _⟩
    · exact ⟨kept.named, kept.fromOne.truncateThrough _⟩
  | onPeerUp peer link => exact kept.onPeerUp { link } peer
  | onPeerDown peer =>
    refine ⟨fun {id backup} found => ?_, kept.fromOne⟩
    replace found : (rep.backups.erase peer).find? id = some backup := found
    rw [OrderedMap.find?_erase] at found
    split_ifs at found
    exact kept.named found
  | setRole role =>
    unfold Replicator.perform setRole
    simp only
    split_ifs
    · exact kept
    · refine ⟨fun {id backup} found => ?_, kept.fromOne⟩
      replace found : (rep.backups.mapValues BackupState.forget).find? id = some backup := found
      rw [OrderedMap.find?_mapValues] at found
      obtain ⟨before, isFiled, rfl⟩ := Option.map_eq_some_iff.mp found
      show before.id = id
      exact kept.named isFiled
  | setTerm term => exact ⟨kept.named, kept.fromOne⟩
  | onMessage source msg link =>
    cases msg with
    | appendEntries append =>
      refine ⟨?_, handleAppendEntries_fromOne kept.fromOne { link } source append⟩
      obtain ⟨_, _, _, _, _, _, touched⟩ := rep.handleAppendEntries_touches { link } source append
      show (rep.handleAppendEntries { link } source append).1.Named
      rw [touched]
      exact kept.named
    | appendResponse answer =>
      rcases handleAppendResponse_serves 0 kept.named { link } source answer with
        ignored | ⟨stats, noted⟩
      · exact kept.serves ignored
      · have kept' : ({ rep.noteResponse source answer with stats } : Replicator).Kept :=
          ⟨(kept.noteResponse source answer).named, (kept.noteResponse source answer).fromOne⟩
        exact kept'.serves noted
    | _ => exact kept

theorem kept_run {start : Replicator} (kept : start.Kept) {calls : List Call}
    (ran : run step start calls = some rep) : rep.Kept :=
  run_invariant Kept (fun {state} call next kept _ enabled => by
    obtain rfl := Option.some.inj enabled
    exact kept.perform call) kept (guarded_true _ _) ran

end Replicator

/-! ### A connection to one backup -/

/-- A primary, and the `AppendEntries` it has sent over a connection to one backup. -/
structure Connection where
  rep : Replicator
  sent : List AppendEntries

namespace Connection

open Replicator

/-- The connection comes up; the probe is no message with entries. -/
def opened (rep : Replicator) (id : NodeId) (link : Link) : Connection where
  rep := (rep.onPeerUp { link } id).1
  sent := appendsTo id (rep.onPeerUp { link } id).2.sent

def step (id : NodeId) (conn : Connection) (call : Call) : Option Connection :=
  some { rep := (conn.rep.perform call).1
         sent := conn.sent ++ appendsTo id (conn.rep.perform call).2.sent }

/-- The connection stays up, the node stays what it is, and the backup answers the probe as it likes but
everything after it with `ok`. -/
def Answered (id : NodeId) (conn : Connection) : Call → Prop
  | .onPeerUp peer _ => peer ≠ id
  | .onPeerDown peer => peer ≠ id
  | .setRole role => role = conn.rep.role
  | .onMessage source (.appendResponse msg) _ =>
    source = id → (conn.rep.backups.find? id).all (·.probing) = true ∨ msg.ok = true
  | _ => True

instance (id : NodeId) (conn : Connection) : ∀ call, Decidable (conn.Answered id call)
  | .onPeerUp peer _ => inferInstanceAs (Decidable (peer ≠ id))
  | .onPeerDown peer => inferInstanceAs (Decidable (peer ≠ id))
  | .setRole role => inferInstanceAs (Decidable (role = conn.rep.role))
  | .onMessage source (.appendResponse msg) _ => inferInstanceAs (Decidable
      (source = id → (conn.rep.backups.find? id).all (·.probing) = true ∨ msg.ok = true))
  | .onMessage _ (.hello _) _ | .onMessage _ (.heartbeat _) _ | .onMessage _ (.commandForward _) _
  | .onMessage _ (.eventAck _) _ | .onMessage _ (.appendEntries _) _ | .onMessage _ (.requestVote _) _
  | .onMessage _ (.voteResponse _) _ | .submit _ _ | .tick _ | .compactLog | .setTerm _ => isTrue trivial

/-- How many of the messages contain an entry of this sequence number. -/
def carrying (conn : Connection) (seq : Nat) : Nat :=
  conn.sent.countP fun msg => msg.entries.any fun record => record.seq = seq

/-- **The invariant**: what was sent is ascending from message to message and within `lastSent`, and
nothing was sent while the backup was being probed. -/
structure Once (id : NodeId) (conn : Connection) : Prop where
  kept : conn.rep.Kept
  filed : ∃ backup, conn.rep.backups.find? id = some backup ∧
    (∀ msg ∈ conn.sent, ∀ record ∈ msg.entries, record.seq ≤ backup.lastSent ∧ backup.probing = false)
  ascending : conn.sent.Pairwise fun earlier later =>
    ∀ first ∈ earlier.entries, ∀ second ∈ later.entries, first.seq < second.seq

variable {id : NodeId} {conn : Connection}

/-- Sending keeps it. -/
theorem Once.serves {rep : Replicator} {net : Transport} (once : conn.Once id) {link : Link}
    (serves : Serves id conn.rep { link } rep net) :
    Once id { rep, sent := conn.sent ++ appendsTo id net.sent } := by
  obtain ⟨backup, found, within⟩ := once.filed
  rcases serves.served with ⟨same, silent⟩ | ⟨state, msg, found', ready, isFor, told, grown⟩
  · have nothing : appendsTo id net.sent = [] := silent
    rw [nothing, List.append_nil]
    exact ⟨once.kept.serves serves, ⟨backup, same.trans found, within⟩, once.ascending⟩
  · have one : appendsTo id net.sent = [msg] := grown
    rw [found] at found'
    obtain rfl := Option.some.inj found'
    obtain ⟨grows, records⟩ := appendFor_records once.kept.fromOne isFor
    rw [one]
    refine ⟨once.kept.serves serves, ⟨_, told, fun other member record inside => ?_⟩, ?_⟩
    · rcases List.mem_append.mp member with old | new
      · exact ⟨Nat.le_trans (within other old record inside).1 grows, ready⟩
      · obtain rfl := List.mem_singleton.mp new
        exact ⟨(records record inside).2, ready⟩
    · refine List.pairwise_append.mpr ⟨once.ascending, List.pairwise_singleton _ _, ?_⟩
      intro earlier member later new first inFirst second inSecond
      obtain rfl := List.mem_singleton.mp new
      exact Nat.lt_of_le_of_lt (within earlier member first inFirst).1 (records second inSecond).1

/-- What does not send, and files the backup as it was. -/
theorem Once.quiet {rep : Replicator} {sent : List (NodeId × Message)} (once : conn.Once id)
    (kept : rep.Kept) (same : rep.backups.find? id = conn.rep.backups.find? id)
    (silent : appendsTo id sent = []) : Once id { rep, sent := conn.sent ++ appendsTo id sent } := by
  rw [silent, List.append_nil]
  exact ⟨kept, same ▸ once.filed, once.ascending⟩

/-- **A response** of this backup to its probe, or a good one, keeps it. -/
theorem Once.noteResponse (once : conn.Once id) {msg : AppendResponse}
    (answered : (conn.rep.backups.find? id).all (·.probing) = true ∨ msg.ok = true) :
    Once id { conn with rep := conn.rep.noteResponse id msg } := by
  obtain ⟨backup, found, within⟩ := once.filed
  have filed : (conn.rep.noteResponse id msg).backups.find? id = some (backup.respond msg) := by
    obtain ⟨_, _, _, _, _, _, equation⟩ := (conn.rep.noted id msg).advanceCommitIndex_frame
    unfold Replicator.noteResponse
    rw [equation]
    refine (OrderedMap.find?_insert_self _ _ _).trans ?_
    rw [respondent, found, Option.getD_some]
  refine ⟨once.kept.noteResponse id msg, ⟨_, filed, fun earlier member record inside => ?_⟩,
    once.ascending⟩
  obtain ⟨below, ready⟩ := within earlier member record inside
  refine ⟨?_, rfl⟩
  rcases answered with probing | good
  · -- While the backup is being probed no entry has been sent.
    rw [found] at probing
    exact absurd (ready.symm.trans probing) nofun
  · simp only [BackupState.respond, good, not_true_eq_false, false_or]
    split_ifs
    · omega
    · exact below

theorem Once.step (once : conn.Once id) {call : Call} (answered : conn.Answered id call)
    {next : Connection} (enabled : conn.step id call = some next) : next.Once id := by
  obtain rfl := Option.some.inj enabled
  have kept := once.kept.perform call
  have elsewhere : ∀ {other : NodeId} (backup : BackupState), other ≠ id →
      (conn.rep.backups.insert other backup).find? id = conn.rep.backups.find? id :=
    fun backup apart => by rw [OrderedMap.find?_insert, if_neg apart.symm]
  cases call with
  | submit cmd link =>
    rcases submit_serves id once.kept.named { link } cmd with refused | accepted
    · exact once.serves refused
    · have once' : Once id { conn with rep := conn.rep.accept cmd } := by
        refine ⟨once.kept.accept cmd, ?_, once.ascending⟩
        obtain ⟨_, _, _, _, _, accepts⟩ := conn.rep.accept_frame cmd
        rw [accepts]
        exact once.filed
      exact once'.serves accepted
  | tick link => exact once.serves (tick_serves id once.kept.named { link })
  | compactLog =>
    refine once.quiet kept ?_ rfl
    unfold perform Replicator.compactLog
    simp only
    split_ifs <;> rfl
  | onPeerUp peer link =>
    by_cases leading : conn.rep.role = .primary
    · refine once.quiet kept ?_ ?_
      · show (conn.rep.onPeerUp { link } peer).1.backups.find? id = _
        unfold Replicator.onPeerUp
        rw [if_neg (not_not.mpr leading)]
        exact elsewhere _ answered
      · show appendsTo id (conn.rep.onPeerUp { link } peer).2.sent = []
        unfold Replicator.onPeerUp
        rw [if_neg (not_not.mpr leading)]
        exact appendsTo_send_other answered { link } _
    · have idle := onPeerUp_idle leading { link } peer
      refine once.quiet kept ?_ ?_
      · show (conn.rep.onPeerUp { link } peer).1.backups.find? id = _
        rw [idle]
      · show appendsTo id (conn.rep.onPeerUp { link } peer).2.sent = []
        rw [idle]
        rfl
  | onPeerDown peer =>
    refine once.quiet kept ?_ rfl
    show (conn.rep.backups.erase peer).find? id = _
    rw [OrderedMap.find?_erase, if_neg (Ne.symm answered)]
  | setRole role =>
    refine once.quiet kept ?_ rfl
    have stays : conn.rep.setRole role = conn.rep := if_pos answered
    show (conn.rep.setRole role).backups.find? id = _
    rw [stays]
  | setTerm term => exact once.quiet kept rfl rfl
  | onMessage source msg link =>
    cases msg with
    | appendEntries append =>
      refine once.quiet kept ?_ ?_
      · obtain ⟨_, _, _, _, _, _, touched⟩ :=
          conn.rep.handleAppendEntries_touches { link } source append
        show (conn.rep.handleAppendEntries { link } source append).1.backups.find? id = _
        rw [touched]
      · obtain ⟨answer, replied⟩ := conn.rep.handleAppendEntries_replies link source append
        show appendsTo id (conn.rep.handleAppendEntries { link } source append).2.sent = []
        rw [replied]
        rcases Transport.sent_send { link } source (.appendResponse answer) with ⟨_, grown⟩ | ⟨_, same⟩
        · rw [grown]
          rfl
        · rw [same]
          rfl
    | appendResponse answer =>
      rcases handleAppendResponse_serves id once.kept.named { link } source answer with
        ignored | ⟨stats, noted⟩
      · exact once.serves ignored
      · have once' : Once id { conn with rep := conn.rep.noteResponse source answer } := by
          by_cases same : source = id
          · subst same
            exact once.noteResponse (answered rfl)
          · refine ⟨once.kept.noteResponse source answer, ?_, once.ascending⟩
            obtain ⟨_, _, _, _, _, _, equation⟩ :=
              (conn.rep.noted source answer).advanceCommitIndex_frame
            have refiled : (conn.rep.noteResponse source answer).backups.find? id =
                conn.rep.backups.find? id := by
              unfold Replicator.noteResponse
              rw [equation]
              exact elsewhere _ same
            show ∃ backup, (conn.rep.noteResponse source answer).backups.find? id = some backup ∧ _
            rw [refiled]
            exact once.filed
        have once'' : Once id { conn with rep := { conn.rep.noteResponse source answer with stats } } :=
          ⟨⟨once'.kept.named, once'.kept.fromOne⟩, once'.filed, once'.ascending⟩
        exact once''.serves noted
    | _ => exact once.quiet kept rfl rfl

theorem once_opened {rep : Replicator} (kept : rep.Kept) (leading : rep.role = .primary) (id : NodeId)
    (link : Link) : (opened rep id link).Once id := by
  have greeted : rep.onPeerUp { link } id = ({ rep.greet id with
      stats := { rep.stats with probesSent := rep.stats.probesSent + 1 } },
      (({ link } : Transport).send id (.appendEntries (rep.greet id).headAppend)).1) := by
    unfold Replicator.onPeerUp
    rw [if_neg (not_not.mpr leading)]
    rfl
  have sent : ∀ msg ∈ (opened rep id link).sent, msg.entries = [] := by
    intro msg member
    simp only [opened, greeted] at member
    rcases Transport.sent_send { link } id (.appendEntries (rep.greet id).headAppend) with
      ⟨_, grown⟩ | ⟨_, same⟩
    · rw [grown] at member
      have isProbe : msg = (rep.greet id).headAppend := by simpa [appendsTo] using member
      rw [isProbe]
      rfl
    · rw [same] at member
      exact absurd member List.not_mem_nil
  refine ⟨kept.onPeerUp { link } id,
    ⟨{ (rep.backups.find? id).getD {} with id, probing := true, lastSent := 0 }, ?_,
      fun msg member record inside => ?_⟩, ?_⟩
  · show (rep.onPeerUp { link } id).1.backups.find? id = _
    rw [greeted]
    exact OrderedMap.find?_insert_self _ _ _
  · rw [sent msg member] at inside
    exact absurd inside List.not_mem_nil
  · refine List.pairwise_of_forall_mem_list fun earlier member later _ first inside => ?_
    rw [sent earlier member] at inside
    exact absurd inside List.not_mem_nil

/-- A sequence number is in at most one of some messages that ascend. -/
theorem Once.carrying_le (once : conn.Once id) (seq : Nat) : conn.carrying seq ≤ 1 := by
  have ascending := once.ascending
  unfold carrying
  generalize conn.sent = sent at ascending
  induction sent with
  | nil => exact Nat.zero_le _
  | cons msg rest ih =>
    obtain ⟨before, ascending'⟩ := List.pairwise_cons.mp ascending
    rw [List.countP_cons]
    split_ifs with here
    · -- Later messages only have later entries.
      have nothing : rest.countP (fun msg => msg.entries.any fun record => record.seq = seq) = 0 := by
        refine List.countP_eq_zero.mpr fun later member there => ?_
        obtain ⟨first, inFirst, isSeq⟩ := List.any_eq_true.mp here
        obtain ⟨second, inSecond, isSeq'⟩ := List.any_eq_true.mp there
        have less := before later member first inFirst second inSecond
        rw [of_decide_eq_true isSeq, of_decide_eq_true isSeq'] at less
        exact Nat.lt_irrefl seq less
      rw [nothing]
    · exact ih ascending'

/-- **No replication amplification.** Over a connection of a primary, in whatever state its calls have left
it, every entry is in at most one message that the transport took, as long as the backup answers everything
after the probe with `ok`. -/
theorem no_amplification {start rep : Replicator} (empty : start.backups = .empty)
    (numbered : start.log.Consecutive) (fromOne : 0 < start.log.firstSeq) {before : List Call}
    (reached : run Replicator.step start before = some rep) (leading : rep.role = .primary)
    (id : NodeId) (link : Link) {calls : List Call}
    (answered : Guarded (step id) (Answered id) (opened rep id link) calls) :
    Always (step id) (fun conn => ∀ seq, conn.carrying seq ≤ 1) (opened rep id link) calls := by
  have kept : start.Kept := by
    refine ⟨fun {id backup} found => ?_, numbered.fromOne fromOne⟩
    rw [empty] at found
    cases found
  exact always_of_guarded (Once id) (fun once answered enabled => once.step answered enabled)
    (fun once => once.carrying_le) (once_opened (kept_run kept reached) leading id link) answered

/-- A primary with two entries, one of which the backup has. -/
def primaryTwo : Replicator where
  self := 1
  role := .primary
  mode := .asynchronous
  engine := { instrument := 1 }
  log := (({} : CommandLog).append (.cancelOrder { id := 1 }) 0).1.append (.cancelOrder { id := 2 }) 0 |>.1

/-- The probe is refused; two entries are sent, a third, and the response to the first two comes twice. -/
def delayed : List Call :=
  [.onMessage 2 (.appendResponse { nodeId := 2, lastLogSeq := 1, ok := false }) {},
    .submit (.cancelOrder { id := 3 }) {},
    .onMessage 2 (.appendResponse { nodeId := 2, lastLogSeq := 2, ok := true }) {},
    .onMessage 2 (.appendResponse { nodeId := 2, lastLogSeq := 2, ok := true }) {}, .tick {}]

theorem no_amplification_delayed :
    Always (step 2) (fun conn => ∀ seq, conn.carrying seq ≤ 1) (opened primaryTwo 2 {}) delayed ∧
      (run (step 2) (opened primaryTwo 2 {}) delayed).map (fun conn => conn.sent.map (·.entries.length)) =
        some [0, 2, 1, 0] := by
  have numbered : primaryTwo.log.Consecutive :=
    (CommandLog.EndAt.nil.concat rfl).concat rfl
  have reached : run Replicator.step primaryTwo [] = some primaryTwo := rfl
  have answered : Guarded (step 2) (Answered 2) (opened primaryTwo 2 {}) delayed := by decide +kernel
  exact ⟨no_amplification rfl numbered (by decide) reached rfl 2 {} answered, by decide +kernel⟩

end Connection

end Sententia
