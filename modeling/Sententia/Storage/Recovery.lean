/-
**Recovery from the files.** What a node finds on its disk is a snapshot at some point of its history, or
none, and a stretch of the history's entries in the log. `restart_eq`: recovery gets as far as the two
reach together, and yields the engine and the log of exactly that much of the history.
-/

import Sententia.Engine.Growth
import Sententia.Replication.LogSpec
import Sententia.Storage.DurableState

namespace Sententia

open Library WireReader Reader

/-! ### Entries -/

/-- **An entry decodes from its encoding.** -/
theorem decodeLogEntry_encodeLogEntry {entry : LogEntry} (seq : entry.seq < 2 ^ 64)
    (term : entry.term < 2 ^ 64) : decodeLogEntry (encodeLogEntry entry) = some entry := by
  obtain ⟨tag, bytes, tagged, reads⟩ := reads_command entry.command
  refine decode_of_reads ?_
  unfold encodeLogEntry readLogEntry
  rw [encodeEntryCommand_eq, tagged]
  simp only [List.append_assoc]
  refine (reads_u64 _).bind ((reads_u64 _).bind ((reads_u8 tag).bind (reads.map ?_)))
  rw [toNat_ofNat_of_lt seq, toNat_ofNat_of_lt term]
  exact Reads.pure entry

/-- The record that `appendEntry` writes. -/
def entryRecord (entry : LogEntry) : WalRecord where
  seq := UInt32.ofNat entry.seq
  payload := encodeLogEntry entry

theorem fits_entryRecord (entry : LogEntry) : (entryRecord entry).Fits := by
  have short : (encodeLogEntry entry).length ≤ 48 := by
    have command := length_encodeCommand entry.command
    simp only [encodeLogEntry, encodeEntryCommand_eq, WireWriter.u64, List.length_append, length_littleEndian]
    omega
  exact short.trans (by decide)

/-! ### Replaying entries -/

namespace DurableState

/-- Entries that the snapshot covers are passed over. -/
theorem replayRecords_skip {start : Nat} {entries : List LogEntry}
    (fit : ∀ entry ∈ entries, entry.seq < 2 ^ 64 ∧ entry.term < 2 ^ 64)
    (covered : ∀ entry ∈ entries, entry.seq ≤ start) (rest : List WalRecord) (engine : MatchingEngine)
    (log : CommandLog) (replayed : Nat) :
    replayRecords start (entries.map entryRecord ++ rest) engine log replayed =
      replayRecords start rest engine log replayed := by
  induction entries with
  | nil => rfl
  | cons entry others ih =>
    obtain ⟨seq, term⟩ := fit entry List.mem_cons_self
    rw [List.map_cons, List.cons_append, replayRecords]
    simp only [entryRecord, decodeLogEntry_encodeLogEntry seq term,
      if_pos (covered entry List.mem_cons_self)]
    exact ih (fun later member => fit later (List.mem_cons_of_mem _ member))
      fun later member => covered later (List.mem_cons_of_mem _ member)

/-- Entries that continue the log are appended and applied. -/
theorem replayRecords_apply {start : Nat} {entries : List LogEntry} {log : CommandLog}
    (fit : ∀ entry ∈ entries, entry.seq < 2 ^ 64 ∧ entry.term < 2 ^ 64) (above : start ≤ log.lastSeq)
    (consecutive : ∀ i (inside : i < entries.length), entries[i].seq = log.lastSeq + 1 + i)
    (engine : MatchingEngine) (replayed : Nat) :
    replayRecords start (entries.map entryRecord) engine log replayed =
      ((engine.applyAll (entries.map (·.command))).1,
        { log with entries := log.entries ++ entries, lastSeq := log.lastSeq + entries.length },
        replayed + entries.length) := by
  induction entries generalizing log engine replayed with
  | nil => simp [replayRecords, MatchingEngine.applyAll]
  | cons entry others ih =>
    obtain ⟨seq, term⟩ := fit entry List.mem_cons_self
    have next : entry.seq = log.lastSeq + 1 := consecutive 0 (Nat.succ_pos _)
    have appended : log.appendAt entry.seq entry.term entry.command =
        some { log with entries := log.entries ++ [entry], lastSeq := entry.seq } := by
      unfold CommandLog.appendAt
      rw [if_neg (not_not.mpr next)]
    have fit' : ∀ later ∈ others, later.seq < 2 ^ 64 ∧ later.term < 2 ^ 64 :=
      fun later member => fit later (List.mem_cons_of_mem _ member)
    have above' : start ≤ entry.seq := by omega
    have consecutive' : ∀ i (inside : i < others.length), others[i].seq = entry.seq + 1 + i := by
      intro i inside
      have shifted := consecutive (i + 1) (Nat.succ_lt_succ inside)
      rw [List.getElem_cons_succ] at shifted
      omega
    rw [List.map_cons, replayRecords]
    simp only [entryRecord, decodeLogEntry_encodeLogEntry seq term, if_neg (show ¬ entry.seq ≤ start by omega),
      appended]
    refine (ih fit' above' consecutive' (engine.apply entry.command).1 (replayed + 1)).trans ?_
    simp only [List.append_assoc, List.singleton_append, List.length_cons, List.map_cons, next]
    refine Prod.ext ?_ (Prod.ext ?_ ?_)
    · rfl
    · simp only [Nat.add_assoc, Nat.add_comm 1]
    · simp only [Nat.add_assoc, Nat.add_comm 1]

/-- Replay stops at an entry that does not continue the log. -/
theorem replayRecords_gap {start : Nat} {entry : LogEntry} {log : CommandLog}
    (fit : entry.seq < 2 ^ 64 ∧ entry.term < 2 ^ 64) (above : start < entry.seq)
    (gap : entry.seq ≠ log.lastSeq + 1) (rest : List WalRecord) (engine : MatchingEngine)
    (replayed : Nat) :
    replayRecords start (entryRecord entry :: rest) engine log replayed = (engine, log, replayed) := by
  have refused : log.appendAt entry.seq entry.term entry.command = none := if_pos gap
  rw [replayRecords]
  simp only [entryRecord, decodeLogEntry_encodeLogEntry fit.1 fit.2, if_neg (Nat.not_le.mpr above), refused]

end DurableState

/-! ### Histories -/

/-- The engine a history leads to. -/
def engineAfter (instrument : InstrumentId) (history : List LogEntry) : MatchingEngine :=
  MatchingEngine.replay instrument (history.map (·.command))

/-- A numbered history whose sequence numbers and terms do not wrap. -/
structure Storable (history : List LogEntry) : Prop where
  numbered : Numbered history
  terms : ∀ entry ∈ history, entry.term < 2 ^ 64
  length : history.length + 1 < 2 ^ 32

/-- The entries of a numbered history fit their fields. -/
theorem Numbered.fit {history : List LogEntry} (numbered : Numbered history)
    (terms : ∀ entry ∈ history, entry.term < 2 ^ 64) (length : history.length < 2 ^ 64) :
    ∀ entry ∈ history, entry.seq < 2 ^ 64 ∧ entry.term < 2 ^ 64 := by
  intro entry member
  refine ⟨?_, terms entry member⟩
  obtain ⟨i, found⟩ := List.mem_iff_getElem?.mp member
  have inside := (List.getElem?_eq_some_iff.mp found).1
  rw [numbered.seq_of_getElem? found]
  omega

theorem Storable.fit {history : List LogEntry} (storable : Storable history) :
    ∀ entry ∈ history, entry.seq < 2 ^ 64 ∧ entry.term < 2 ^ 64 := by
  have length := storable.length
  exact storable.numbered.fit storable.terms (by omega)

/-- A point of the history at which the book has no more orders than a snapshot may have. -/
structure Readable (instrument : InstrumentId) (history : List LogEntry) (count : Nat) : Prop where
  inside : count ≤ history.length
  orders : (engineAfter instrument (history.take count)).allOrders.length ≤ kMaxOrders

/-- No more orders rest than commands were applied. -/
theorem length_allOrders_engineAfter (instrument : InstrumentId) (history : List LogEntry) :
    (engineAfter instrument history).allOrders.length ≤ history.length := by
  have grown := MatchingEngine.replay_grown instrument (history.map (·.command))
  rw [List.length_map] at grown
  exact (MatchingEngine.length_allOrders_le (MatchingEngine.replay_consistent _ _) grown.arrived).trans
    grown.arrivalCounter

theorem orders_le_of_length_le {instrument : InstrumentId} {history : List LogEntry}
    (few : history.length ≤ kMaxOrders) (count : Nat) :
    (engineAfter instrument (history.take count)).allOrders.length ≤ kMaxOrders :=
  (length_allOrders_engineAfter instrument _).trans ((List.length_take_le' count history).trans few)

/-! ### Snapshots of a history -/

/-- The snapshot of the engine after the first `count` entries. -/
def snapshotAt (instrument : InstrumentId) (history : List LogEntry) (count : Nat) : SnapshotRecord :=
  DurableState.snapshotRecord (engineAfter instrument (history.take count)) count
    (lastTerm LogEntry.term (history.take count))

section

variable {instrument : InstrumentId} {history : List LogEntry} {count : Nat}

theorem snapshotAt_append (inside : count ≤ history.length) (more : List LogEntry) :
    snapshotAt instrument (history ++ more) count = snapshotAt instrument history count := by
  unfold snapshotAt
  rw [List.take_append_of_le_length inside]

theorem lastTerm_lt (terms : ∀ entry ∈ history, entry.term < 2 ^ 64) :
    lastTerm LogEntry.term (history.take count) < 2 ^ 64 := by
  unfold lastTerm
  cases last : (history.take count).getLast? with
  | none => decide
  | some entry => exact terms entry (List.mem_of_mem_take (List.mem_of_getLast? last))

theorem fits_snapshotAt (storable : Storable history) (readable : Readable instrument history count) :
    (snapshotAt instrument history count).Fits := by
  have consistent := MatchingEngine.replay_consistent instrument ((history.take count).map (·.command))
  have grown := MatchingEngine.replay_grown instrument ((history.take count).map (·.command))
  have commands : ((history.take count).map (·.command)).length = count := by
    rw [List.length_map, List.length_take, Nat.min_eq_left readable.inside]
  rw [commands] at grown
  have small : count + 1 < 2 ^ 32 := Nat.lt_of_le_of_lt (Nat.succ_le_succ readable.inside) storable.length
  have arrivals := grown.arrivalCounter
  refine ⟨?_, lastTerm_lt storable.terms, ?_, ?_, ?_, fun order member => ?_, readable.orders⟩
  · show count < 2 ^ 64
    omega
  · exact grown.commandSeq.trans_lt (by omega)
  · refine Nat.lt_of_le_of_lt grown.eventSeq ?_
    calc count * (count + 4) ≤ (2 ^ 32 - 2) * (2 ^ 32 - 2 + 4) := Nat.mul_le_mul (by omega) (by omega)
      _ < 2 ^ 64 := by decide
  · exact Nat.lt_of_le_of_lt arrivals (by omega)
  · obtain ⟨side, resting⟩ := MatchingEngine.mem_allOrders.mp
      (show order ∈ (engineAfter instrument (history.take count)).allOrders from member)
    obtain ⟨price, node, nodeMember, rfl⟩ := MatchingEngine.exists_node_of_mem resting
    have bound := consistent.book.arrived nodeMember
    exact Nat.lt_of_le_of_lt (bound.trans arrivals) (by omega)

/-- The snapshot of a history restores into a fresh engine. -/
theorem restore_snapshotAt (instrument : InstrumentId) (history : List LogEntry) (count : Nat) :
    ∃ restored, ({ instrument } : MatchingEngine).restore (snapshotAt instrument history count).engine =
        (restored, true) ∧ restored.Consistent ∧
      restored.Mirrors (engineAfter instrument (history.take count)) := by
  refine MatchingEngine.restore_mirrors (MatchingEngine.replay_consistent _ _) ?_
  exact (MatchingEngine.instrument_replay _ _).symm

/-- **The file of a snapshot of a history is read back.** -/
theorem readSnapshotFile_snapshotAt (storable : Storable history)
    (readable : Readable instrument history count) :
    readSnapshotFile (some (snapshotFile (snapshotAt instrument history count))) =
      .ok (some (snapshotAt instrument history count)) := by
  obtain ⟨probe, restored, consistent, mirrors⟩ :=
    restore_snapshotAt instrument history count
  have same : (snapshotAt instrument history count).engine.instrument = instrument :=
    MatchingEngine.instrument_replay _ _
  refine readSnapshotFile_snapshotFile (fits_snapshotAt storable readable) (by rwa [same]) ?_
  exact mirrors.stateChecksumOn consistent (MatchingEngine.replay_consistent _ _) .little

end

/-! ### Replaying a stretch of a history -/

/-- How far a snapshot at `start` and the entries after `dropped`, up to `count`, reach together. -/
def reached (start dropped count : Nat) : Nat := if dropped ≤ start then max start count else start

/-- The log that recovery rebuilds. -/
def recoveredLog (history : List LogEntry) (start reached : Nat) : CommandLog where
  entries := (history.take reached).drop start
  lastSeq := reached
  snapshotSeq := start
  snapshotTerm := lastTerm LogEntry.term (history.take start)
  truncatedThrough := start

section

variable {instrument : InstrumentId} {history : List LogEntry} {start dropped count : Nat}

theorem seq_of_mem_take (numbered : Numbered history) {entry : LogEntry}
    (member : entry ∈ history.take count) : entry.seq ≤ count := by
  obtain ⟨i, found⟩ := List.mem_iff_getElem?.mp member
  have inside := (List.getElem?_eq_some_iff.mp found).1
  rw [List.length_take] at inside
  rw [(numbered.take count).seq_of_getElem? found]
  omega

/-- The log before replay, extended by what is replayed. -/
theorem recoveredLog_extend (inside : start ≤ history.length) (further : start ≤ count)
    (short : count ≤ history.length) :
    { recoveredLog history start start with
        entries := (recoveredLog history start start).entries ++ (history.take count).drop start
        lastSeq := start + ((history.take count).drop start).length } =
      recoveredLog history start count := by
  have nothing : (history.take start).drop start = [] := by
    rw [List.drop_eq_nil_iff, List.length_take]
    omega
  have length : start + ((history.take count).drop start).length = count := by
    rw [List.length_drop, List.length_take]
    omega
  unfold recoveredLog
  rw [nothing, length, List.nil_append]

/-- **Replay of a stretch.** Entries that the snapshot covers are passed over, entries that continue it are
applied; a stretch that begins after a gap is not touched. -/
theorem replayRecords_stretch (storable : Storable history) (inside : start ≤ history.length)
    (short : count ≤ history.length) (engine : MatchingEngine) :
    ∃ replayed, DurableState.replayRecords start
        (((history.take count).drop dropped).map entryRecord) engine (recoveredLog history start start) 0 =
      ((engine.applyAll
          (((history.take (reached start dropped count)).drop start).map (·.command))).1,
        recoveredLog history start (reached start dropped count), replayed) := by
  have fit : ∀ dropped, ∀ entry ∈ (history.take count).drop dropped,
      entry.seq < 2 ^ 64 ∧ entry.term < 2 ^ 64 :=
    fun dropped entry member => storable.fit entry (List.mem_of_mem_take (List.mem_of_mem_drop member))
  have nothing : (history.take start).drop start = [] := by
    rw [List.drop_eq_nil_iff, List.length_take]
    omega
  unfold reached
  by_cases joined : dropped ≤ start
  · rw [if_pos joined]
    rcases Nat.le_total count start with covered | further
    · rw [Nat.max_eq_left covered, nothing]
      have passed : ∀ entry ∈ (history.take count).drop dropped, entry.seq ≤ start :=
        fun entry member => (seq_of_mem_take storable.numbered (List.mem_of_mem_drop member)).trans covered
      have skipped := DurableState.replayRecords_skip (fit dropped) passed [] engine
        (recoveredLog history start start) 0
      rw [List.append_nil] at skipped
      exact ⟨0, skipped⟩
    · rw [Nat.max_eq_right further]
      have split : (history.take count).drop dropped =
          (history.take start).drop dropped ++ (history.take count).drop start := by
        rw [← List.drop_append_of_le_length (by rw [List.length_take]; omega)]
        congr 1
        rw [← Nat.min_eq_left further, ← List.take_take, Nat.min_eq_left further, List.take_append_drop]
      have passed : ∀ entry ∈ (history.take start).drop dropped, entry.seq ≤ start :=
        fun entry member => seq_of_mem_take storable.numbered (List.mem_of_mem_drop member)
      have consecutive : ∀ i (inside : i < ((history.take count).drop start).length),
          ((history.take count).drop start)[i].seq = (recoveredLog history start start).lastSeq + 1 + i := by
        intro i inside
        rw [List.getElem_drop, (storable.numbered.take count) (start + i)]
        show start + i + 1 = start + 1 + i
        omega
      rw [split, List.map_append, DurableState.replayRecords_skip
        (fun entry member => storable.fit entry (List.mem_of_mem_take (List.mem_of_mem_drop member))) passed]
      have applied := DurableState.replayRecords_apply (fit start) (Nat.le_refl start) consecutive engine 0
      exact ⟨_, applied.trans (by rw [← recoveredLog_extend inside further short]; rfl)⟩
  · rw [if_neg joined, nothing]
    refine ⟨0, ?_⟩
    cases stretch : (history.take count).drop dropped with
    | nil => rfl
    | cons entry rest =>
      have found : (history.take count)[dropped]? = some entry := by
        have head := congrArg (fun entries => entries[0]?) stretch
        simpa using head
      have seq := (storable.numbered.take count).seq_of_getElem? found
      have fits := fit dropped entry (stretch ▸ List.mem_cons_self)
      refine DurableState.replayRecords_gap fits (by omega) ?_ _ _ _
      show entry.seq ≠ start + 1
      omega

end

/-! ### Restarting -/

/-- A process that opens the directory and recovers into a fresh engine and an empty log: the disk it
leaves, and what it has recovered. -/
def restart (instrument : InstrumentId) (policy : SyncPolicy) (disk : Disk) :
    Disk × Option (MatchingEngine × CommandLog × RecoveryReport) :=
  match ({} : DurableState).openDir { disk } policy with
  | (_, device, false) => (device.disk, none)
  | (state, device, true) =>
    match state.recover { instrument } {} with
    | (_, some _) => (device.disk, none)
    | (recovered, none) => (device.disk, some recovered)

/-- The snapshot at a point of the history, or none, and the entries after `dropped`, up to `count`, are on
disk. The log may end in a torn frame. -/
structure OnDisk (instrument : InstrumentId) (history : List LogEntry) (point : Option Nat)
    (dropped count : Nat) (disk : Disk) : Prop where
  snapshot : disk .snapshot = point.map fun count => snapshotFile (snapshotAt instrument history count)
  log : ∃ tail, (disk .log).getD [] =
    frames (((history.take count).drop dropped).map entryRecord) ++ tail ∧ readRecord tail = none

/-- The engine that recovery starts from. -/
def restoredEngine (instrument : InstrumentId) (history : List LogEntry) : Option Nat → MatchingEngine
  | none => { instrument }
  | some count => (({ instrument } : MatchingEngine).restore (snapshotAt instrument history count).engine).1

/-- The engine that recovery ends with. -/
def recoveredEngine (instrument : InstrumentId) (history : List LogEntry) (point : Option Nat)
    (reached : Nat) : MatchingEngine :=
  ((restoredEngine instrument history point).applyAll
    (((history.take reached).drop (point.getD 0)).map (·.command))).1

section

variable {instrument : InstrumentId} {history : List LogEntry} {point : Option Nat}
  {dropped count : Nat}

theorem restoredEngine_mirrors (instrument : InstrumentId) (history : List LogEntry)
    (point : Option Nat) :
    (restoredEngine instrument history point).Consistent ∧
      (restoredEngine instrument history point).Mirrors
        (engineAfter instrument (history.take (point.getD 0))) := by
  cases point with
  | none => exact ⟨MatchingEngine.consistent_fresh instrument, ⟨rfl, rfl, rfl, rfl, rfl, fun _ _ => rfl⟩⟩
  | some count =>
    obtain ⟨restored, accepted, consistent, mirrors⟩ := restore_snapshotAt instrument history count
    unfold restoredEngine
    simp only [accepted]
    exact ⟨consistent, mirrors⟩

/-- **The recovered engine** is in the state that the history reached leads to. -/
theorem recoveredEngine_sameState {reached : Nat} (beyond : point.getD 0 ≤ reached) :
    (recoveredEngine instrument history point reached).SameState
      (engineAfter instrument (history.take reached)) := by
  obtain ⟨consistent, mirrors⟩ := restoredEngine_mirrors instrument history point
  have split : history.take reached =
      history.take (point.getD 0) ++ (history.take reached).drop (point.getD 0) := by
    rw [← Nat.min_eq_left beyond, ← List.take_take, Nat.min_eq_left beyond, List.take_append_drop]
  have whole : engineAfter instrument (history.take reached) =
      ((engineAfter instrument (history.take (point.getD 0))).applyAll
        (((history.take reached).drop (point.getD 0)).map (·.command))).1 := by
    unfold engineAfter MatchingEngine.replay
    rw [← MatchingEngine.applyAll_append, ← List.map_append, ← split]
  rw [whole]
  exact (mirrors.applyAll consistent (MatchingEngine.replay_consistent _ _) _).2.sameState
    (MatchingEngine.applyAll_consistent consistent _)
    (MatchingEngine.applyAll_consistent (MatchingEngine.replay_consistent _ _) _)

/-- Every snapshot there is can be read. -/
def AllReadable (instrument : InstrumentId) (history : List LogEntry) (point : Option Nat) : Prop :=
  ∀ taken ∈ point, Readable instrument history taken

theorem AllReadable.inside (readable : AllReadable instrument history point) :
    point.getD 0 ≤ history.length := by
  cases point with
  | none => exact Nat.zero_le _
  | some taken => exact (readable taken rfl).inside

/-- What opening the directory finds. -/
theorem openDir_eq (storable : Storable history) (readable : AllReadable instrument history point)
    (policy : SyncPolicy) {disk : Disk} (onDisk : OnDisk instrument history point dropped count disk) :
    ∃ state device, ({} : DurableState).openDir { disk } policy = (state, device, true) ∧
      state.wal.records = ((history.take count).drop dropped).map entryRecord ∧
        state.snapshot = point.map (snapshotAt instrument history) ∧
          device.disk = Function.update disk .log
            (some (frames (((history.take count).drop dropped).map entryRecord))) := by
  obtain ⟨tail, file, stops⟩ := onDisk.log
  have fit : ∀ record ∈ ((history.take count).drop dropped).map entryRecord, record.Fits := by
    intro record member
    obtain ⟨entry, _, rfl⟩ := List.mem_map.mp member
    exact fits_entryRecord entry
  have obliging : Device.Obliging { disk } := fun _ => rfl
  obtain ⟨device, opened, _, after⟩ := WriteAheadLog.openLog_eq {} obliging policy file fit stops
  have read : readSnapshotFile (device.disk .snapshot) = .ok (point.map (snapshotAt instrument history)) := by
    rw [after, Function.update_of_ne (by decide)]
    refine (congrArg readSnapshotFile onDisk.snapshot).trans ?_
    cases point with
    | none => rfl
    | some taken => exact readSnapshotFile_snapshotAt storable (readable taken rfl)
  unfold DurableState.openDir
  simp only [opened, read]
  exact ⟨_, _, rfl, rfl, rfl, after⟩

/-- What recovery makes of it. -/
theorem recover_eq (storable : Storable history) (readable : AllReadable instrument history point)
    (short : count ≤ history.length) {state : DurableState}
    (records : state.wal.records = ((history.take count).drop dropped).map entryRecord)
    (snapshot : state.snapshot = point.map (snapshotAt instrument history)) :
    ∃ report, state.recover { instrument } {} =
      ((recoveredEngine instrument history point (reached (point.getD 0) dropped count),
        recoveredLog history (point.getD 0) (reached (point.getD 0) dropped count), report), none) := by
  obtain ⟨replayed, stretch⟩ : ∃ replayed, DurableState.replayRecords (point.getD 0)
      (((history.take count).drop dropped).map entryRecord) (restoredEngine instrument history point)
      (recoveredLog history (point.getD 0) (point.getD 0)) 0 = _ :=
    replayRecords_stretch storable readable.inside short _
  rw [← records] at stretch
  unfold DurableState.recover DurableState.replayLog
  rw [snapshot]
  cases point with
  | none =>
    have empty : recoveredLog history 0 0 = {} := rfl
    simp only [Option.getD_none, restoredEngine, empty] at stretch
    simp only [Option.map_none, stretch]
    exact ⟨_, rfl⟩
  | some taken =>
    obtain ⟨restored, accepted, _⟩ := restore_snapshotAt instrument history taken
    have boundary : ({} : CommandLog).setSnapshotBoundary taken
        (lastTerm LogEntry.term (history.take taken)) = recoveredLog history taken taken := by
      unfold recoveredLog CommandLog.setSnapshotBoundary
      have nothing : (history.take taken).drop taken = [] := by
        rw [List.drop_eq_nil_iff, List.length_take]
        omega
      rw [nothing]
      cases taken <;> rfl
    have base : restoredEngine instrument history (some taken) = restored := congrArg Prod.fst accepted
    unfold recoveredEngine
    simp only [Option.getD_some, base] at stretch ⊢
    have sequence : (snapshotAt instrument history taken).lastIncludedSeq = taken := rfl
    have term : (snapshotAt instrument history taken).lastIncludedTerm =
      lastTerm LogEntry.term (history.take taken) := rfl
    simp only [Option.map_some, accepted, sequence, term, boundary, stretch]
    exact ⟨_, rfl⟩

/-- **Recovery gets as far as the snapshot and the log reach together**, and leaves the log without its
torn end. -/
theorem restart_eq (storable : Storable history) (readable : AllReadable instrument history point)
    (policy : SyncPolicy) (short : count ≤ history.length) {disk : Disk} (onDisk : OnDisk instrument history point dropped count disk) :
    ∃ report, restart instrument policy disk =
      (Function.update disk .log
          (some (frames (((history.take count).drop dropped).map entryRecord))),
        some (recoveredEngine instrument history point (reached (point.getD 0) dropped count),
          recoveredLog history (point.getD 0) (reached (point.getD 0) dropped count), report)) := by
  obtain ⟨state, device, opened, records, snapshot, after⟩ := openDir_eq storable readable policy onDisk
  obtain ⟨report, recovered⟩ := recover_eq storable readable short records snapshot
  unfold restart
  simp only [opened, recovered, after]
  exact ⟨report, rfl⟩

/-- What a restart leaves is what it found, less a torn end. -/
theorem OnDisk.restarted {disk : Disk} (onDisk : OnDisk instrument history point dropped count disk) :
    OnDisk instrument history point dropped count (Function.update disk .log
      (some (frames (((history.take count).drop dropped).map entryRecord)))) where
  snapshot := by
    rw [Function.update_of_ne (by decide)]
    exact onDisk.snapshot
  log := ⟨[], by simp, readRecord_nil⟩

/-- The same files, as those of a longer history. -/
theorem OnDisk.extend {disk : Disk} (onDisk : OnDisk instrument history point dropped count disk)
    (inside : point.getD 0 ≤ history.length) (short : count ≤ history.length) (more : List LogEntry) :
    OnDisk instrument (history ++ more) point dropped count disk where
  snapshot := by
    refine onDisk.snapshot.trans (Option.map_congr fun taken member => ?_)
    have covered : taken ≤ history.length := by
      rw [member] at inside
      exact inside
    rw [snapshotAt_append covered]
  log := by
    rw [List.take_append_of_le_length short]
    exact onDisk.log

/-! ### Recovering a whole history -/

/-- An engine and a log in the state that a history leads to. The log may have left out the entries that
its snapshot covers. -/
structure Rebuilt (instrument : InstrumentId) (history : List LogEntry) (engine : MatchingEngine)
    (log : CommandLog) : Prop where
  engine : engine.SameState (engineAfter instrument history)
  lastSeq : log.lastSeq = history.length
  entries : log.entries = history.drop log.snapshotSeq

/-- What is recovered is the whole history exactly if that is how far snapshot and log reach. -/
theorem rebuilt_iff {reached : Nat} (beyond : point.getD 0 ≤ reached) :
    Rebuilt instrument history (recoveredEngine instrument history point reached)
        (recoveredLog history (point.getD 0) reached) ↔ reached = history.length := by
  constructor
  · exact fun rebuilt => rebuilt.lastSeq
  · intro all
    have same : (recoveredEngine instrument history point reached).SameState
        (engineAfter instrument (history.take reached)) := recoveredEngine_sameState beyond
    rw [all, List.take_length] at same
    refine ⟨all.symm ▸ same, all, ?_⟩
    unfold recoveredLog
    simp only [all, List.take_length]

theorem le_reached (start dropped count : Nat) : start ≤ reached start dropped count := by
  unfold reached
  split_ifs <;> omega

end

end Sententia
