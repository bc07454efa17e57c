/-
**Use of a forgotten backup.** The loops of `submit` and `tick` stand at an entry of `backups_` while they
send to it, and `handleAppendResponse` ends in a send.

* `SendLoop` — a loop over the backups that sends to those that are ready.
* `SendLoop.stop` — how many sends have been tried when it is over.
* `forBackupsWired_whole`, `forBackupsWired_cut` — a loop is the plain loop if no send in it drops its peer,
  and has no result otherwise.
* `forgotten_backup_iff` — when each method finds all that it uses.
-/

import Sententia.Replication.WiredTransport

namespace Sententia

open Library

namespace Replicator

variable {rep : Replicator} {wires : Wires} {key : NodeId} {backup : BackupState}

/-! ### A loop that sends -/

theorem forBackupsWired_cons
    {body : Replicator → Wires → NodeId → BackupState → Option (Replicator × Wires)}
    {rep rep' : Replicator} {wires wires' : Wires} {key : NodeId} {rest : List NodeId}
    {state filed : BackupState} (found : rep.backups.find? key = some state)
    (done : body rep wires key state = some (rep', wires'))
    (still : rep'.backups.find? key = some filed) :
    forBackupsWired body (key :: rest) rep wires = forBackupsWired body rest rep' wires' := by
  simp only [forBackupsWired, found, done, still, Option.bind_eq_bind, Option.bind_some]

/-- The body does not finish, or it has erased the entry the loop stands at. -/
theorem forBackupsWired_lost
    {body : Replicator → Wires → NodeId → BackupState → Option (Replicator × Wires)}
    {rep : Replicator} {wires : Wires} {key : NodeId} {rest : List NodeId} {state : BackupState}
    (found : rep.backups.find? key = some state)
    (lost : ∀ {rep' wires'}, body rep wires key state = some (rep', wires') →
      rep'.backups.find? key = none) :
    forBackupsWired body (key :: rest) rep wires = none := by
  simp only [forBackupsWired, found, Option.bind_eq_bind, Option.bind_some]
  cases done : body rep wires key state with
  | none => rfl
  | some result =>
    obtain ⟨rep', wires'⟩ := result
    show (rep'.backups.find? key).bind _ = _
    rw [lost done]
    rfl

/-- A loop over `backups_` that sends to those that are ready for it, given which peers are saturated. -/
structure SendLoop where
  ready : Replicator → (NodeId → Bool) → NodeId → BackupState → Bool
  of_core : ∀ {rep rep' : Replicator}, rep'.core = rep.core → ready rep' = ready rep

namespace SendLoop

variable (loop : SendLoop)

def body (rep : Replicator) (net : Transport) (id : NodeId) (state : BackupState) :
    Replicator × Transport × BackupState :=
  if loop.ready rep net.isSaturated id state then rep.sendAppend net state else (rep, net, state)

def bodyWired (rep : Replicator) (wires : Wires) (id : NodeId) (state : BackupState) :
    Option (Replicator × Wires) :=
  if loop.ready rep wires.isSaturated id state then rep.sendAppendWired wires id false
  else some (rep, wires)

/-- One round of the plain loop. -/
def round (now : Replicator × Transport) (entry : NodeId × BackupState) : Replicator × Transport :=
  let (rep, net, state) := loop.body now.1 now.2 entry.1 entry.2
  ({ rep with backups := rep.backups.insert entry.1 state }, net)

/-- The backup is sent something after so many sends. -/
def Targets (rep : Replicator) (saturated : Nat → NodeId → Bool) (n : Nat) (id : NodeId)
    (state : BackupState) : Prop :=
  loop.ready rep (saturated n) id state = true ∧ rep.appendFor state ≠ none

instance (rep : Replicator) (saturated : Nat → NodeId → Bool) (n : Nat) (id : NodeId)
    (state : BackupState) : Decidable (loop.Targets rep saturated n id state) :=
  inferInstanceAs (Decidable (_ ∧ _))

/-- The number of sends tried when the loop is over, from the number of those before it. -/
def stop (rep : Replicator) (saturated : Nat → NodeId → Bool) : List (NodeId × BackupState) → Nat → Nat
  | [], n => n
  | (id, state) :: rest, n =>
    stop rep saturated rest (if loop.Targets rep saturated n id state then n + 1 else n)

theorem le_stop (rep : Replicator) (saturated : Nat → NodeId → Bool)
    (entries : List (NodeId × BackupState)) (n : Nat) : n ≤ loop.stop rep saturated entries n := by
  induction entries generalizing n with
  | nil => exact Nat.le_refl n
  | cons entry rest ih =>
    refine Nat.le_trans ?_ (ih _)
    split_ifs
    · exact Nat.le_succ n
    · exact Nat.le_refl n

variable {loop} {rep : Replicator} {wires : Wires} {id : NodeId} {state : BackupState}

/-- The body when it sends nothing. -/
theorem body_nothing (found : rep.backups.find? id = some state) (isNamed : state.id = id)
    (nothing : ¬ loop.Targets rep wires.saturated wires.attempts id state) :
    loop.round (rep, wires.transport) (id, state) = (rep, wires.transport) ∧
      loop.bodyWired rep wires id state = some (rep, wires) := by
  have both : loop.body rep wires.transport id state = (rep, wires.transport, state) ∧
      loop.bodyWired rep wires id state = some (rep, wires) := by
    unfold body bodyWired
    by_cases ready : loop.ready rep wires.isSaturated id state = true
    · rw [if_pos ready]
      have none : rep.appendFor state = none := by
        by_contra isFor
        exact nothing ⟨ready, isFor⟩
      obtain ⟨plain, wired⟩ := sendAppendWired_nothing found isNamed none wires
      exact ⟨(if_pos ready).trans plain, wired⟩
    · rw [if_neg ready]
      exact ⟨if_neg ready, rfl⟩
  refine ⟨?_, both.2⟩
  unfold round
  rw [both.1]
  show ({ rep with backups := rep.backups.insert id state }, wires.transport) = _
  rw [OrderedMap.insert_eq_self found]

/-- The body when its send keeps the peer. -/
theorem body_kept (found : rep.backups.find? id = some state) (isNamed : state.id = id)
    (targets : loop.Targets rep wires.saturated wires.attempts id state) (kept : wires.next.2 = false) :
    ∃ msg, (loop.round (rep, wires.transport) (id, state)).2 = (wires.send id msg).1.transport ∧
      loop.bodyWired rep wires id state =
        some ((loop.round (rep, wires.transport) (id, state)).1, (wires.send id msg).1) := by
  obtain ⟨msg, net, wired⟩ := sendAppendWired_kept found isNamed targets.2 kept
  have plain : loop.body rep wires.transport id state = rep.sendAppend wires.transport state :=
    if_pos targets.1
  refine ⟨msg, ?_, ?_⟩
  · unfold round
    rw [plain]
    exact net
  · unfold bodyWired round
    rw [plain]
    exact (if_pos targets.1).trans wired

/-- One round leaves the rest of the replicator and the other backups alone. -/
theorem round_frame (loop : SendLoop) (rep : Replicator) (net : Transport) (id : NodeId)
    (state : BackupState) :
    (loop.round (rep, net) (id, state)).1.core = rep.core ∧
      (∃ filed, (loop.round (rep, net) (id, state)).1.backups.find? id = some filed) ∧
      ∀ other, other ≠ id → (loop.round (rep, net) (id, state)).1.backups.find? other =
        rep.backups.find? other := by
  have sends : SendsTo rep net state (loop.body rep net id state) := by
    unfold body
    split_ifs
    · exact sendAppend_sendsTo rep net state
    · exact sendsTo_nothing rep net state
  refine ⟨sends.frame, ⟨_, OrderedMap.find?_insert_self _ _ _⟩, fun other apart => ?_⟩
  show ((loop.body rep net id state).1.backups.insert id _).find? other = _
  rw [OrderedMap.find?_insert, if_neg apart, sends.backups]

/-- What a loop needs of the entries it still has to visit. -/
structure Ahead (rep : Replicator) (entries : List (NodeId × BackupState)) : Prop where
  filed : ∀ entry ∈ entries, rep.backups.find? entry.1 = some entry.2
  named : ∀ entry ∈ entries, entry.2.id = entry.1
  distinct : (entries.map Prod.fst).Nodup

theorem Ahead.of_named (named : rep.Named) : Ahead rep rep.backups.entries where
  filed _ member := rep.backups.find?_eq_some_iff.mpr member
  named _ member := named (rep.backups.find?_eq_some_iff.mpr member)
  distinct := rep.backups.keys_nodup

theorem Ahead.round {rest : List (NodeId × BackupState)} (ahead : Ahead rep ((id, state) :: rest))
    (loop : SendLoop) (net : Transport) : Ahead (loop.round (rep, net) (id, state)).1 rest where
  filed entry member := by
    have apart : entry.1 ≠ id := fun same =>
      (List.nodup_cons.mp ahead.distinct).1 (List.mem_map.mpr ⟨entry, member, same⟩)
    rw [(loop.round_frame rep net id state).2.2 entry.1 apart]
    exact ahead.filed entry (List.mem_cons_of_mem _ member)
  named entry member := ahead.named entry (List.mem_cons_of_mem _ member)
  distinct := (List.nodup_cons.mp ahead.distinct).2

theorem targets_of_core {base : Replicator} (same : rep.core = base.core)
    (saturated : Nat → NodeId → Bool) (n : Nat) (id : NodeId) (state : BackupState) :
    loop.Targets rep saturated n id state ↔ loop.Targets base saturated n id state := by
  unfold Targets
  rw [loop.of_core same, appendFor_of_core same]

/-- **A loop in which no send drops its peer** is the plain loop. -/
theorem forBackupsWired_whole (loop : SendLoop) {base : Replicator}
    (entries : List (NodeId × BackupState)) (rep : Replicator) (wires : Wires)
    (same : rep.core = base.core) (ahead : Ahead rep entries)
    (keeps : wires.Keeps (loop.stop base wires.saturated entries wires.attempts)) :
    ∃ after, after.transport = (entries.foldl loop.round (rep, wires.transport)).2 ∧
      forBackupsWired loop.bodyWired (entries.map Prod.fst) rep wires =
        some ((entries.foldl loop.round (rep, wires.transport)).1, after) := by
  induction entries generalizing rep wires with
  | nil => exact ⟨wires, rfl, rfl⟩
  | cons entry rest ih =>
    obtain ⟨id, state⟩ := entry
    have found := ahead.filed _ List.mem_cons_self
    have isNamed := ahead.named _ List.mem_cons_self
    have frame := loop.round_frame rep wires.transport id state
    have ahead' := ahead.round loop wires.transport
    unfold stop at keeps
    rw [List.foldl_cons, List.map_cons]
    by_cases targets : loop.Targets rep wires.saturated wires.attempts id state
    · rw [if_pos ((targets_of_core same _ _ _ _).mp targets)] at keeps
      have here : wires.next.2 = false :=
        keeps wires.attempts (Nat.le_refl _) (Nat.lt_of_succ_le (loop.le_stop _ _ _ _))
      obtain ⟨msg, net, wired⟩ := body_kept found isNamed targets here
      obtain ⟨filed, still⟩ := frame.2.1
      obtain ⟨after, agrees, rest'⟩ := ih _ (wires.send id msg).1 (frame.1.trans same) ahead'
        fun n later => keeps n (Nat.le_of_succ_le later)
      rw [← net] at agrees rest'
      exact ⟨after, agrees, (forBackupsWired_cons found wired still).trans rest'⟩
    · rw [if_neg fun other => targets ((targets_of_core same _ _ _ _).mpr other)] at keeps
      obtain ⟨plain, wired⟩ := body_nothing found isNamed targets
      rw [plain] at ahead' ⊢
      obtain ⟨after, agrees, rest'⟩ := ih rep wires same ahead' keeps
      exact ⟨after, agrees, (forBackupsWired_cons found wired found).trans rest'⟩

/-- **A loop in which a send drops its peer** stands at an entry that is gone. -/
theorem forBackupsWired_cut (loop : SendLoop) {base : Replicator}
    (entries : List (NodeId × BackupState)) (rep : Replicator) (wires : Wires)
    (same : rep.core = base.core) (ahead : Ahead rep entries)
    (drops : ¬ wires.Keeps (loop.stop base wires.saturated entries wires.attempts)) :
    forBackupsWired loop.bodyWired (entries.map Prod.fst) rep wires = none := by
  induction entries generalizing rep wires with
  | nil => exact absurd (fun n later before => absurd before (Nat.not_lt.mpr later)) drops
  | cons entry rest ih =>
    obtain ⟨id, state⟩ := entry
    have found := ahead.filed _ List.mem_cons_self
    have isNamed := ahead.named _ List.mem_cons_self
    have frame := loop.round_frame rep wires.transport id state
    have ahead' := ahead.round loop wires.transport
    unfold stop at drops
    rw [List.map_cons]
    by_cases targets : loop.Targets rep wires.saturated wires.attempts id state
    · rw [if_pos ((targets_of_core same _ _ _ _).mp targets)] at drops
      cases here : wires.next.2 with
      | false =>
        obtain ⟨msg, _, wired⟩ := body_kept found isNamed targets here
        obtain ⟨filed, still⟩ := frame.2.1
        refine (forBackupsWired_cons found wired still).trans ?_
        refine ih _ (wires.send id msg).1 (frame.1.trans same) ahead' fun keeps => drops ?_
        intro n later before
        rcases Nat.eq_or_lt_of_le later with first | after
        · rw [← first]
          exact here
        · exact keeps n after before
      | true =>
        have wired : loop.bodyWired rep wires id state = rep.sendAppendWired wires id false :=
          if_pos targets.1
        refine forBackupsWired_lost found fun done => ?_
        replace done := wired.symm.trans done
        rcases sendAppendWired_dropped found isNamed targets.2 here with
          ⟨_, none⟩ | ⟨_, _, _, some, gone⟩
        · exact absurd (none.symm.trans done) nofun
        · cases some.symm.trans done
          exact gone
    · rw [if_neg fun other => targets ((targets_of_core same _ _ _ _).mpr other)] at drops
      obtain ⟨plain, wired⟩ := body_nothing found isNamed targets
      rw [plain] at ahead'
      exact (forBackupsWired_cons found wired found).trans (ih rep wires same ahead' drops)

/-- **A loop finds every backup it uses** exactly when no send in it drops its peer. -/
theorem isSome_iff (loop : SendLoop) (named : rep.Named) (wires : Wires) :
    (forBackupsWired loop.bodyWired rep.backups.keys rep wires).isSome = true ↔
      wires.Keeps (loop.stop rep wires.saturated rep.backups.entries wires.attempts) := by
  constructor
  · intro done
    by_contra drops
    have none := forBackupsWired_cut loop _ rep wires rfl (.of_named named) drops
    exact absurd (none ▸ done) nofun
  · intro keeps
    obtain ⟨_, _, whole⟩ := forBackupsWired_whole loop _ rep wires rfl (.of_named named) keeps
    exact whole ▸ rfl

end SendLoop

/-! ### The methods -/

/-- The loop of `submit`. -/
def submitLoop : SendLoop where
  ready _ _ _ state := !state.probing
  of_core _ := rfl

/-- The loop of `tick`. -/
def tickLoop : SendLoop where
  ready rep saturated id state := !(state.probing || saturated id) && rep.needsAppend state
  of_core {rep rep'} same := by
    have needs : rep'.needsAppend = rep.needsAppend := by
      show rep'.core.needsAppend = rep.core.needsAppend
      rw [same]
    rw [needs]

/-- `submit` appends the command. -/
def Admits (rep : Replicator) (wires : Wires) : Prop :=
  rep.role = .primary ∧ ¬ (rep.mode = .synchronous ∧ rep.backups.isEmpty) ∧
    ¬ (rep.mode = .synchronous ∧ rep.inFlightCount ≥ rep.syncWindow) ∧
    ¬ rep.backups.keys.any wires.isSaturated

/-- The number of sends tried when the loop of `submit` is over. -/
def submitStop (rep : Replicator) (wires : Wires) (cmd : Command) : Nat :=
  submitLoop.stop (rep.accept cmd) wires.saturated (rep.accept cmd).backups.entries wires.attempts

/-- The number of sends tried when the loop of `tick` is over. -/
def tickStop (rep : Replicator) (wires : Wires) : Nat :=
  tickLoop.stop rep wires.saturated rep.backups.entries wires.attempts

theorem submitWired_of_admits (admits : rep.Admits wires) (cmd : Command) :
    rep.submitWired wires cmd =
      (forBackupsWired submitLoop.bodyWired (rep.accept cmd).backups.keys (rep.accept cmd) wires).map
        fun result => (result.1, result.2,
          { status := .accepted, seq := (rep.log.append cmd rep.term).2 }) := by
  obtain ⟨leading, notEmpty, room, free⟩ := admits
  have bodies : submitLoop.bodyWired = fun rep wires id state =>
      if state.probing then some (rep, wires) else rep.sendAppendWired wires id false := by
    funext rep wires id state
    unfold SendLoop.bodyWired
    show (if (!state.probing) = true then _ else _) = _
    cases state.probing <;> rfl
  unfold submitWired
  rw [if_neg (not_not.mpr leading), if_neg notEmpty, if_neg room, if_neg free, bodies,
    Option.map_eq_bind]
  rfl

theorem submit_of_admits (admits : rep.Admits wires) (cmd : Command) :
    rep.submit wires.transport cmd =
      (((rep.accept cmd).forBackups submitLoop.body wires.transport).1,
        ((rep.accept cmd).forBackups submitLoop.body wires.transport).2,
        { status := .accepted, seq := (rep.log.append cmd rep.term).2 }) := by
  obtain ⟨leading, notEmpty, room, free⟩ := admits
  have bodies : submitLoop.body = fun rep net _ state =>
      if state.probing then (rep, net, state) else rep.sendAppend net state := by
    funext rep net id state
    unfold SendLoop.body
    show (if (!state.probing) = true then _ else _) = _
    cases state.probing <;> rfl
  unfold submit
  rw [if_neg (not_not.mpr leading), if_neg notEmpty, if_neg room, bodies]
  exact if_neg free

theorem tickWired_of_primary (leading : rep.role = .primary) :
    rep.tickWired wires = forBackupsWired tickLoop.bodyWired rep.backups.keys rep wires := by
  have bodies : tickLoop.bodyWired = fun rep wires id state =>
      if state.probing ∨ wires.isSaturated id then some (rep, wires)
      else if rep.needsAppend state then rep.sendAppendWired wires id false
      else some (rep, wires) := by
    funext rep wires id state
    unfold SendLoop.bodyWired
    show (if (!(state.probing || wires.isSaturated id) && rep.needsAppend state) = true then _
      else _) = _
    cases state.probing <;> cases wires.isSaturated id <;> simp
  unfold tickWired
  rw [if_neg (not_not.mpr leading), bodies]

theorem tick_of_primary (leading : rep.role = .primary) (net : Transport) :
    rep.tick net = rep.forBackups tickLoop.body net := by
  have bodies : tickLoop.body = fun rep net id state =>
      if state.probing ∨ net.isSaturated id then (rep, net, state)
      else if rep.needsAppend state then rep.sendAppend net state
      else (rep, net, state) := by
    funext rep net id state
    unfold SendLoop.body
    show (if (!(state.probing || net.isSaturated id) && rep.needsAppend state) = true then _
      else _) = _
    cases state.probing <;> cases net.isSaturated id <;> simp
  unfold tick
  rw [if_neg (not_not.mpr leading), bodies]

theorem tickWired_isSome_iff (named : rep.Named) (wires : Wires) :
    (rep.tickWired wires).isSome = true ↔ (rep.role = .primary → wires.Keeps (rep.tickStop wires)) := by
  by_cases leading : rep.role = .primary
  · rw [tickWired_of_primary leading, tickLoop.isSome_iff named]
    exact ⟨fun keeps _ => keeps, fun keeps => keeps leading⟩
  · unfold tickWired
    rw [if_pos leading]
    exact iff_of_true rfl fun leads => absurd leads leading

/-- A `tick` in which no send drops its peer is the plain `tick`. -/
theorem tickWired_whole (named : rep.Named) (leading : rep.role = .primary)
    (keeps : wires.Keeps (rep.tickStop wires)) :
    ∃ after, after.transport = (rep.tick wires.transport).2 ∧
      rep.tickWired wires = some ((rep.tick wires.transport).1, after) := by
  rw [tickWired_of_primary leading, tick_of_primary leading]
  exact tickLoop.forBackupsWired_whole _ rep wires rfl (.of_named named) keeps

/-- A refused `submit` touches no backup. -/
theorem submitWired_refused (refused : ¬ rep.Admits wires) (cmd : Command) :
    (rep.submitWired wires cmd).isSome = true := by
  unfold submitWired
  dsimp only
  split_ifs with following alone full busy
  · rfl
  · rfl
  · rfl
  · rfl
  · exact absurd ⟨not_not.mp following, alone, full, busy⟩ refused

theorem submitWired_isSome_iff (named : rep.Named) (wires : Wires) (cmd : Command) :
    (rep.submitWired wires cmd).isSome = true ↔
      (rep.Admits wires → wires.Keeps (rep.submitStop wires cmd)) := by
  by_cases admits : rep.Admits wires
  · rw [submitWired_of_admits admits, Option.isSome_map, submitLoop.isSome_iff (named_accept named cmd)]
    exact ⟨fun keeps _ => keeps, fun keeps => keeps admits⟩
  · exact iff_of_true (submitWired_refused admits cmd) fun admitted => absurd admitted admits

/-- A `submit` in which no send drops its peer is the plain `submit`. -/
theorem submitWired_whole (named : rep.Named) (admits : rep.Admits wires) {cmd : Command}
    (keeps : wires.Keeps (rep.submitStop wires cmd)) :
    ∃ after, after.transport = (rep.submit wires.transport cmd).2.1 ∧
      rep.submitWired wires cmd =
        some ((rep.submit wires.transport cmd).1, after, (rep.submit wires.transport cmd).2.2) := by
  obtain ⟨after, agrees, whole⟩ := submitLoop.forBackupsWired_whole _ (rep.accept cmd) wires rfl
    (.of_named (named_accept named cmd)) keeps
  rw [submitWired_of_admits admits, submit_of_admits admits]
  refine ⟨after, agrees, ?_⟩
  show (forBackupsWired _ ((rep.accept cmd).backups.entries.map Prod.fst) _ _).map _ = _
  rw [whole]
  rfl

/-- The append at the end of `handleAppendResponse`, if it makes one. -/
def followUpFor (rep : Replicator) (source : NodeId) (msg : AppendResponse) : Option AppendEntries :=
  if msg.term ≤ rep.term ∧ (rep.noteResponse source msg).needsAppend (rep.respondent source msg) then
    (rep.noteResponse source msg).appendFor (rep.respondent source msg)
  else none

/-- A response of this term is noted, and more is sent if there is more. -/
theorem handleAppendResponseWired_noted (rep : Replicator) (wires : Wires) (source : NodeId)
    {msg : AppendResponse} (now : ¬ msg.term > rep.term) :
    ∃ stats, rep.handleAppendResponseWired wires source msg =
      if (rep.noteResponse source msg).needsAppend (rep.respondent source msg) then
        ({ rep.noteResponse source msg with stats } : Replicator).sendAppendWired wires source false
      else some ({ rep.noteResponse source msg with stats }, wires) := by
  have folded : ({ rep with
      backups := rep.backups.insert source (rep.respondent source msg) } :
        Replicator).advanceCommitIndex = rep.noteResponse source msg := rfl
  unfold handleAppendResponseWired
  simp only [folded]
  rw [if_neg now]
  by_cases diverged : (rep.respondent source msg).lastApplied =
      (rep.noteResponse source msg).lastApplied ∧ (rep.respondent source msg).lastChecksum ≠
        (rep.noteResponse source msg).engine.stateChecksum
  · rw [if_pos diverged]
    exact ⟨_, rfl⟩
  · rw [if_neg diverged]
    exact ⟨(rep.noteResponse source msg).stats, rfl⟩

theorem handleAppendResponseWired_isSome_iff (named : rep.Named) (wires : Wires) (source : NodeId)
    (msg : AppendResponse) :
    (rep.handleAppendResponseWired wires source msg).isSome = true ↔
      (rep.followUpFor source msg ≠ none → wires.next ≠ (.ok, true)) := by
  have isNamed := (named_noted named source msg).1
  have filed := rep.find?_noteResponse source msg
  unfold followUpFor
  by_cases later : msg.term > rep.term
  · have ignored : (rep.handleAppendResponseWired wires source msg).isSome = true := by
      unfold handleAppendResponseWired
      rw [if_pos later]
      rfl
    rw [if_neg fun both => absurd both.1 (Nat.not_le.mpr later)]
    exact iff_of_true ignored fun never => absurd rfl never
  · obtain ⟨stats, equation⟩ := handleAppendResponseWired_noted rep wires source later
    rw [equation]
    by_cases needed : (rep.noteResponse source msg).needsAppend (rep.respondent source msg) = true
    · have filed' : ({ rep.noteResponse source msg with stats } : Replicator).backups.find? source =
          some (rep.respondent source msg) := filed
      rw [if_pos needed, if_pos ⟨Nat.not_lt.mp later, needed⟩]
      exact sendAppendWired_isSome filed' isNamed
    · rw [if_neg needed, if_neg fun both => needed both.2]
      exact iff_of_true rfl fun never => absurd rfl never

/-! ### The methods keep the backups filed under their ids -/

theorem named_forBackupsWired
    {body : Replicator → Wires → NodeId → BackupState → Option (Replicator × Wires)}
    (keep : ∀ {rep rep' : Replicator} {wires wires' : Wires} {id state}, rep.Named →
      body rep wires id state = some (rep', wires') → rep'.Named)
    (keys : List NodeId) {rep rep' : Replicator} {wires wires' : Wires} (named : rep.Named)
    (done : forBackupsWired body keys rep wires = some (rep', wires')) : rep'.Named := by
  induction keys generalizing rep wires with
  | nil =>
    cases done
    exact named
  | cons key rest ih =>
    unfold forBackupsWired at done
    obtain ⟨state, _, done⟩ := Option.bind_eq_some_iff.mp done
    obtain ⟨⟨rep₁, wires₁⟩, once, done⟩ := Option.bind_eq_some_iff.mp done
    obtain ⟨_, _, done⟩ := Option.bind_eq_some_iff.mp done
    intro id filed found
    have named₁ : rep₁.Named := keep named once
    exact ih named₁ done found

theorem SendLoop.named_bodyWired (loop : SendLoop) {rep' : Replicator} {wires' : Wires} {id : NodeId}
    {state : BackupState} (named : rep.Named)
    (done : loop.bodyWired rep wires id state = some (rep', wires')) : rep'.Named := by
  unfold bodyWired at done
  by_cases ready : loop.ready rep wires.isSaturated id state = true
  · exact named_sendAppendWired named ((if_pos ready).symm.trans done)
  · cases (if_neg ready).symm.trans done
    exact named

theorem named_tickWired (named : rep.Named) {rep' : Replicator} {wires' : Wires}
    (done : rep.tickWired wires = some (rep', wires')) : rep'.Named := by
  by_cases leading : rep.role = .primary
  · rw [tickWired_of_primary leading] at done
    exact named_forBackupsWired (fun named => tickLoop.named_bodyWired named) _ named done
  · unfold tickWired at done
    cases (if_pos leading).symm.trans done
    exact named

theorem named_submitWired (named : rep.Named) {cmd : Command} {rep' : Replicator} {wires' : Wires}
    {result : SubmitResult} (done : rep.submitWired wires cmd = some (rep', wires', result)) :
    rep'.Named := by
  by_cases admits : rep.Admits wires
  · rw [submitWired_of_admits admits] at done
    obtain ⟨_, looped, same⟩ := Option.map_eq_some_iff.mp done
    cases same
    exact named_forBackupsWired (fun named => submitLoop.named_bodyWired named) _
      (named_accept named cmd) looped
  · intro found
    have same : rep'.backups = rep.backups := by
      unfold submitWired at done
      dsimp only at done
      split_ifs at done with following alone full busy
      · cases done
        rfl
      · cases done
        rfl
      · cases done
        rfl
      · cases done
        rfl
      · exact absurd ⟨not_not.mp following, alone, full, busy⟩ admits
    exact named (same ▸ found)

theorem named_handleAppendResponseWired (named : rep.Named) {source : NodeId} {msg : AppendResponse}
    {rep' : Replicator} {wires' : Wires}
    (done : rep.handleAppendResponseWired wires source msg = some (rep', wires')) : rep'.Named := by
  intro id filed found
  by_cases later : msg.term > rep.term
  · unfold handleAppendResponseWired at done
    cases (if_pos later).symm.trans done
    exact named found
  · obtain ⟨stats, equation⟩ := handleAppendResponseWired_noted rep wires source later
    have named' : (rep.noteResponse source msg).Named := (named_noted named source msg).2
    rw [equation] at done
    by_cases needed : (rep.noteResponse source msg).needsAppend (rep.respondent source msg) = true
    · have named'' : ({ rep.noteResponse source msg with stats } : Replicator).Named := named'
      exact named_sendAppendWired named'' ((if_pos needed).symm.trans done) found
    · cases (if_neg needed).symm.trans done
      exact named' found

/-- What the methods do that find every backup they use: `submit` and `tick` what they do on a transport whose
drops reach nobody, and all of them keep the backups filed under their ids. -/
structure Finished (rep : Replicator) (wires : Wires) : Prop where
  submit : ∀ cmd, rep.Admits wires → wires.Keeps (rep.submitStop wires cmd) →
    ∃ after, after.transport = (rep.submit wires.transport cmd).2.1 ∧
      rep.submitWired wires cmd =
        some ((rep.submit wires.transport cmd).1, after, (rep.submit wires.transport cmd).2.2)
  tick : rep.role = .primary → wires.Keeps (rep.tickStop wires) →
    ∃ after, after.transport = (rep.tick wires.transport).2 ∧
      rep.tickWired wires = some ((rep.tick wires.transport).1, after)
  sendAppend_named : ∀ key probe rep' wires',
    rep.sendAppendWired wires key probe = some (rep', wires') → rep'.Named
  submit_named : ∀ cmd rep' wires' result,
    rep.submitWired wires cmd = some (rep', wires', result) → rep'.Named
  tick_named : ∀ rep' wires', rep.tickWired wires = some (rep', wires') → rep'.Named
  handleAppendResponse_named : ∀ source msg rep' wires',
    rep.handleAppendResponseWired wires source msg = some (rep', wires') → rep'.Named

theorem finished (named : rep.Named) (wires : Wires) : rep.Finished wires where
  submit _ admits keeps := submitWired_whole named admits keeps
  tick leading keeps := tickWired_whole named leading keeps
  sendAppend_named _ _ _ _ done := named_sendAppendWired named done
  submit_named _ _ _ _ done := named_submitWired named done
  tick_named _ _ done := named_tickWired named done
  handleAppendResponse_named _ _ _ _ done := named_handleAppendResponseWired named done

/-- **When nothing forgotten is used**: `sendAppend` and `handleAppendResponse` find their backup after their
send unless that was accepted and then dropped its peer; `submit` and `tick` find every backup exactly when
no send of their loop drops its peer. -/
theorem forgotten_backup_iff {rep : Replicator} (named : rep.Named) (wires : Wires) :
    (∀ key backup probe, rep.backups.find? key = some backup →
        ((rep.sendAppendWired wires key probe).isSome = true ↔
          (probe = false → rep.appendFor backup ≠ none → wires.next ≠ (.ok, true)))) ∧
      (∀ cmd, (rep.submitWired wires cmd).isSome = true ↔
        (rep.Admits wires → wires.Keeps (rep.submitStop wires cmd))) ∧
      ((rep.tickWired wires).isSome = true ↔
        (rep.role = .primary → wires.Keeps (rep.tickStop wires))) ∧
      (∀ source msg, (rep.handleAppendResponseWired wires source msg).isSome = true ↔
        (rep.followUpFor source msg ≠ none → wires.next ≠ (.ok, true))) ∧
      rep.Finished wires :=
  ⟨fun _ _ probe found => sendAppendWired_isSome_iff named found probe,
    submitWired_isSome_iff named wires, tickWired_isSome_iff named wires,
    handleAppendResponseWired_isSome_iff named wires, finished named wires⟩

/-! ### A submit that loses its backup -/

/-- A primary that nothing has reached yet. -/
def alone : Replicator where
  self := 1
  role := .primary
  mode := .asynchronous
  engine := { instrument := 1 }

/-- Its only backup is up and has answered the probe. -/
def probed : Replicator :=
  ((alone.perform (.onPeerUp 2 {})).1.perform (.onMessage 2 (.appendResponse { nodeId := 2, ok := true }) {})).1

theorem probed_kept : probed.Kept :=
  have start : alone.Kept := ⟨nofun, CommandLog.EndAt.nil, nofun⟩
  (start.perform _).perform _

/-- Every queue is empty, and every write finds the connection closed. -/
def severed : Wires where
  attempt _ := { writing := [{ status := .closed }] }

theorem forgotten_backup_iff_probed :
    ((probed.submitWired severed (.cancelOrder { id := 1 })).isSome = true ↔
        (probed.Admits severed →
          severed.Keeps (probed.submitStop severed (.cancelOrder { id := 1 })))) ∧
      (probed.tickWired severed).isSome = true :=
  have both := forgotten_backup_iff probed_kept.named severed
  ⟨both.2.1 _, both.2.2.1.mpr fun _ n later before => absurd (Nat.lt_of_le_of_lt later before)
    (by decide +kernel)⟩

/-- The message is accepted, its own write fails, and `submit` is left with an entry that is erased. -/
theorem submit_forgets_backup :
    probed.Named ∧ (probed.submitWired severed (.cancelOrder { id := 1 })).isSome = false :=
  ⟨probed_kept.named, by decide +kernel⟩

end Replicator

end Sententia
