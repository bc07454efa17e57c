/-
**The log when the power fails** (`wal.hpp`, `wal.cpp`). What a process has written outlives the process, but
only what has been flushed outlives a power cut. How much that is depends on the policy of the log.

* `PowerLog` — a log, how many bytes at the front of its file are on the platter, and whether its name is: the
  log creates its file and never flushes the directory. Every call is the one of `LogHandle`, with what it does to
  the platter.
* `PowerLog.crash`, `PowerLog.powerCut`, `PowerLog.lose` — the process dies, inside an append perhaps; the machine
  loses power, and behind the bytes on the platter the file may hold anything afterwards; or there is no file.
* `PowerRun.promised` — what the log held when all of it was last on the platter, once its name is there.
* `powerCut_keeps` — **durability**: along every run, a power cut takes nothing that was promised, and with
  flushing on what was not promised is less than one batch for each process since.
-/

import Sententia.Storage.LogRecovery

namespace Sententia

open Library

structure PowerLog where
  handle : LogHandle := {}
  /-- So many bytes at the front of the file are on the platter. -/
  kept : Nat := 0
  /-- The entry of the file in its directory is on the platter. -/
  named : Bool := false

namespace PowerLog

/-- `fdatasync`, or `fsync`. -/
def flush (log : PowerLog) : PowerLog := { log with kept := log.handle.file.contents.length }

/-- A flush of the directory. The log itself makes none; to save a vote or a snapshot beside it makes one. -/
def flushDirectory (log : PowerLog) : PowerLog := { log with named := true }

/-- `open` cuts a torn tail off, and flushes nothing. -/
def openLog (log : PowerLog) (policy : SyncPolicy) : PowerLog × Bool :=
  let (handle, ok) := log.handle.openLog policy
  ({ log with handle, kept := min log.kept handle.file.contents.length }, ok)

def sync (log : PowerLog) : PowerLog × Bool :=
  let (handle, ok) := log.handle.sync
  if log.handle.wal.isOpen ∧ log.handle.wal.policy ≠ .never then ({ log with handle }.flush, ok)
  else ({ log with handle }, ok)

def append (log : PowerLog) (seq : UInt32) (data : Buffer) : PowerLog × Bool :=
  match log.handle.append seq data with
  | (handle, false) => ({ log with handle }, false)
  | (handle, true) =>
    -- The platter keeps what lies before the write.
    let written : PowerLog := { log with handle, kept := min log.kept log.handle.file.position }
    if (log.handle.wal.mirror { seq, payload := data }).syncDue then (written.flush, true)
    else (written, true)

def reset (log : PowerLog) : PowerLog × Bool :=
  match log.handle.reset with
  | (handle, false) => ({ log with handle }, false)
  | (handle, true) => ({ log with handle, kept := 0 }, true)

/-- The loop of `truncateThrough`. -/
def appendAll (log : PowerLog) : List WalRecord → PowerLog × Bool
  | [] => (log, true)
  | record :: rest =>
    match log.append record.seq record.payload with
    | (log, false) => (log, false)
    | (log, true) => log.appendAll rest

def truncateThrough (log : PowerLog) (seq : UInt32) : PowerLog × Bool :=
  if ¬ log.handle.wal.isOpen then (log, false)
  else
    let keep := log.handle.wal.records.filter fun record => record.seq > seq
    match log.reset with
    | (log, false) => (log, false)
    | (log, true) =>
      match log.appendAll keep with
      | (log, false) => (log, false)
      | (log, true) => log.sync

/-- The process dies inside an append, with so many bytes of the frame written; with none, between two calls.
The operating system keeps the file. -/
def crash (log : PowerLog) (seq : UInt32) (data : Buffer) (amount : Nat) : PowerLog :=
  let record : WalRecord := { seq, payload := data }
  let fresh : WriteAheadLog := { batchSize := log.handle.wal.batchSize }
  if data.length > kMaxRecordSize then { log with handle := { log.handle with wal := fresh } }
  else
    { log with
      handle := { wal := fresh, file := log.handle.file.write (record.frame.take amount) }
      kept := min log.kept log.handle.file.position }

/-- The machine loses power: the file has what is on the platter, and whatever is found behind it. -/
def powerCut (log : PowerLog) (left : Buffer) : PowerLog :=
  let contents := log.handle.file.contents.take log.kept ++ left
  { handle := { wal := { batchSize := log.handle.wal.batchSize }, file := { contents } }
    kept := contents.length
    named := true }

/-- The machine loses power, and nothing on the platter says that there was a file. -/
def lose (log : PowerLog) : PowerLog :=
  { handle := { wal := { batchSize := log.handle.wal.batchSize } } }

/-- The whole file is on the platter. -/
def Whole (log : PowerLog) : Prop := log.handle.file.contents.length ≤ log.kept

instance (log : PowerLog) : Decidable log.Whole := inferInstanceAs (Decidable (_ ≤ _))

/-! ### The platter makes no difference to the calls -/

variable (log : PowerLog)

theorem handle_sync : (log.sync.1.handle, log.sync.2) = log.handle.sync := by
  unfold sync
  dsimp only
  split_ifs <;> rfl

theorem handle_append (seq : UInt32) (data : Buffer) :
    ((log.append seq data).1.handle, (log.append seq data).2) = log.handle.append seq data := by
  unfold append
  rcases log.handle.append seq data with ⟨handle, _ | _⟩
  · rfl
  · dsimp only
    split_ifs <;> rfl

theorem handle_reset : (log.reset.1.handle, log.reset.2) = log.handle.reset := by
  unfold reset
  rcases log.handle.reset with ⟨handle, _ | _⟩ <;> rfl

theorem handle_appendAll (records : List WalRecord) :
    ((log.appendAll records).1.handle, (log.appendAll records).2) = log.handle.appendAll records := by
  induction records generalizing log with
  | nil => rfl
  | cons record rest ih =>
    rw [appendAll, LogHandle.appendAll, ← log.handle_append]
    rcases log.append record.seq record.payload with ⟨log', _ | _⟩
    · rfl
    · exact ih log'

theorem handle_truncateThrough (seq : UInt32) :
    ((log.truncateThrough seq).1.handle, (log.truncateThrough seq).2) = log.handle.truncateThrough seq := by
  unfold truncateThrough LogHandle.truncateThrough
  split_ifs
  · dsimp only
    rw [← log.handle_reset]
    rcases log.reset with ⟨log', _ | _⟩
    · rfl
    · dsimp only
      rw [← log'.handle_appendAll]
      rcases log'.appendAll _ with ⟨log'', _ | _⟩
      · rfl
      · exact log''.handle_sync
  · rfl

/-! ### The calls leave the name as it is -/

theorem named_openLog (policy : SyncPolicy) : (log.openLog policy).1.named = log.named := rfl

theorem named_sync : log.sync.1.named = log.named := by
  unfold sync
  dsimp only
  split_ifs <;> rfl

theorem named_append (seq : UInt32) (data : Buffer) : (log.append seq data).1.named = log.named := by
  unfold append
  rcases log.handle.append seq data with ⟨handle, _ | _⟩
  · rfl
  · dsimp only
    split_ifs <;> rfl

theorem named_reset : log.reset.1.named = log.named := by
  unfold reset
  rcases log.handle.reset with ⟨handle, _ | _⟩ <;> rfl

theorem named_appendAll (records : List WalRecord) : (log.appendAll records).1.named = log.named := by
  induction records generalizing log with
  | nil => rfl
  | cons record rest ih =>
    have first := log.named_append record.seq record.payload
    rw [appendAll]
    generalize log.append record.seq record.payload = result at first ⊢
    obtain ⟨log', _ | _⟩ := result
    · exact first
    · exact (ih log').trans first

theorem named_truncateThrough (seq : UInt32) : (log.truncateThrough seq).1.named = log.named := by
  unfold truncateThrough
  split_ifs
  · have emptied := log.named_reset
    dsimp only
    generalize log.reset = result at emptied ⊢
    obtain ⟨log', _ | _⟩ := result
    · exact emptied
    · have rebuilt := log'.named_appendAll (log.handle.wal.records.filter fun record => record.seq > seq)
      dsimp only
      generalize log'.appendAll _ = result at rebuilt ⊢
      obtain ⟨log'', _ | _⟩ := result
      · exact rebuilt.trans emptied
      · exact log''.named_sync.trans (rebuilt.trans emptied)
  · rfl

theorem named_crash (seq : UInt32) (data : Buffer) (amount : Nat) :
    (log.crash seq data amount).named = log.named := by
  unfold crash
  dsimp only
  split_ifs <;> rfl

end PowerLog

/-! ### Runs -/

/-- A log in use, and what is expected of the platter. -/
structure PowerRun where
  log : PowerLog
  /-- What the log held when all of its file was last on the platter. -/
  flushed : List WalRecord := []
  /-- The processes that have died since then. -/
  deaths : Nat := 0

inductive PowerStep
  | append (seq : UInt32) (data : Buffer)
  | sync
  | reset
  | truncateThrough (seq : UInt32)
  /-- The process dies as in `PowerLog.crash`, and another one opens the log. -/
  | crash (seq : UInt32) (data : Buffer) (amount : Nat)
  /-- A vote or a snapshot is saved in the directory of the log. -/
  | flushDirectory
  /-- The machine loses power and starts again, and a process opens the log. -/
  | powerCut (left : Buffer)
  /-- The same, but the file is gone, as it may be before its name is on the platter. -/
  | lose
deriving Repr, DecidableEq

namespace PowerRun

/-- What a power cut must leave. -/
def promised (run : PowerRun) : List WalRecord := if run.log.named then run.flushed else []

/-- The log after a step, `kept` being what was flushed before and is still there. -/
def settle (run : PowerRun) (log : PowerLog) (kept : List WalRecord) (died : Nat) : PowerRun :=
  if log.Whole then { log, flushed := log.handle.wal.records }
  else { log, flushed := kept, deaths := run.deaths + died }

theorem settle_log (run : PowerRun) (log : PowerLog) (kept : List WalRecord) (died : Nat) :
    (run.settle log kept died).log = log := by
  unfold settle
  split_ifs <;> rfl

theorem promised_settle (run : PowerRun) {log : PowerLog} (whole : log.Whole) (named : log.named = true)
    (kept : List WalRecord) (died : Nat) : (run.settle log kept died).promised = log.handle.wal.records := by
  unfold promised
  rw [settle_log, if_pos named]
  unfold settle
  rw [if_pos whole]

/-- A new log in a new file. -/
def start (policy : SyncPolicy) (batchSize : Nat) : PowerRun where
  log := (PowerLog.openLog { handle := { wal := { batchSize } } } policy).1

def step (policy : SyncPolicy) (run : PowerRun) : PowerStep → Option PowerRun
  | .append seq data => some (run.settle (run.log.append seq data).1 run.flushed 0)
  | .sync => some (run.settle run.log.sync.1 run.flushed 0)
  | .reset => some (run.settle run.log.reset.1 [] 0)
  | .truncateThrough seq => some (run.settle (run.log.truncateThrough seq).1 [] 0)
  | .crash seq data amount =>
    some (run.settle ((run.log.crash seq data amount).openLog policy).1 run.flushed 1)
  | .flushDirectory => some (run.settle run.log.flushDirectory run.flushed 0)
  | .powerCut left => some (run.settle ((run.log.powerCut left).openLog policy).1 run.flushed 0)
  | .lose => if run.log.named then none else some (run.settle (run.log.lose.openLog policy).1 [] 0)

end PowerRun

/-- How many appends make a batch. -/
def SyncPolicy.batch (policy : SyncPolicy) (batchSize : Nat) : Nat :=
  match policy with
  | .everyWrite => 1
  | .batched | .never => max 1 batchSize

/-! ### What a call does to the log -/

namespace LogHandle

variable {handle : LogHandle} {records : List WalRecord}

/-- No call but `open` changes what an append looks at to decide whether it flushes. -/
def SamePolicy (before after : LogHandle) : Prop :=
  after.wal.policy = before.wal.policy ∧ after.wal.batchSize = before.wal.batchSize

theorem SamePolicy.trans {first second third : LogHandle} (same : SamePolicy first second)
    (same' : SamePolicy second third) : SamePolicy first third :=
  ⟨same'.1.trans same.1, same'.2.trans same.2⟩

theorem samePolicy_sync (handle : LogHandle) : SamePolicy handle handle.sync.1 := by
  unfold sync
  split_ifs <;> exact ⟨rfl, rfl⟩

theorem samePolicy_append (handle : LogHandle) (seq : UInt32) (data : Buffer) :
    SamePolicy handle (handle.append seq data).1 := by
  unfold append
  dsimp only
  split_ifs
  · exact ⟨rfl, rfl⟩
  · exact samePolicy_sync { wal := handle.wal.mirror { seq, payload := data }, file := _ }
  · exact ⟨rfl, rfl⟩
  · exact ⟨rfl, rfl⟩

theorem samePolicy_reset (handle : LogHandle) : SamePolicy handle handle.reset.1 := by
  unfold reset
  split_ifs
  · exact samePolicy_sync
      { wal := { handle.wal with records := [], bytesOnDisk := 0, sinceSync := 0 }, file := _ }
  · exact ⟨rfl, rfl⟩

theorem samePolicy_appendAll (handle : LogHandle) (records : List WalRecord) :
    SamePolicy handle (handle.appendAll records).1 := by
  induction records generalizing handle with
  | nil => exact ⟨rfl, rfl⟩
  | cons record rest ih =>
    have first := handle.samePolicy_append record.seq record.payload
    rw [appendAll]
    generalize handle.append record.seq record.payload = result at first ⊢
    obtain ⟨handle', _ | _⟩ := result
    · exact first
    · exact first.trans (ih handle')

theorem samePolicy_truncateThrough (handle : LogHandle) (seq : UInt32) :
    SamePolicy handle (handle.truncateThrough seq).1 := by
  unfold truncateThrough
  split_ifs
  · have emptied := handle.samePolicy_reset
    dsimp only
    generalize handle.reset = result at emptied ⊢
    obtain ⟨handle', _ | _⟩ := result
    · exact emptied
    · have rebuilt := handle'.samePolicy_appendAll
        (handle.wal.records.filter fun record => record.seq > seq)
      dsimp only
      generalize handle'.appendAll _ = result at rebuilt ⊢
      obtain ⟨handle'', _ | _⟩ := result
      · exact emptied.trans rebuilt
      · exact (emptied.trans rebuilt).trans handle''.samePolicy_sync
  · exact ⟨rfl, rfl⟩

theorem sinceSync_sync (isOpen : handle.wal.isOpen = true) : handle.sync.1.wal.sinceSync = 0 := by
  unfold sync
  rw [if_neg (not_not.mpr isOpen)]
  split_ifs <;> rfl

theorem sinceSync_append (isOpen : handle.wal.isOpen = true) {record : WalRecord} (fits : record.Fits) :
    (handle.append record.seq record.payload).1.wal.sinceSync =
      if (handle.wal.mirror record).syncDue then 0 else handle.wal.sinceSync + 1 := by
  unfold append
  rw [if_neg (not_not.mpr isOpen), if_neg (Nat.not_lt.mpr fits)]
  dsimp only
  split_ifs
  · exact @sinceSync_sync { wal := handle.wal.mirror record, file := _ } isOpen
  · rfl

theorem sinceSync_truncateThrough (holds : handle.Holds records) (isOpen : handle.wal.isOpen = true)
    (seq : UInt32) : (handle.truncateThrough seq).1.wal.sinceSync = 0 := by
  have kept : ∀ record ∈ handle.wal.records.filter (fun record => record.seq > seq), record.Fits :=
    fun record member => holds.fit record (holds.mirror ▸ (List.mem_filter.mp member).1)
  obtain ⟨emptied, done, isOpen'⟩ := holds_reset isOpen
  unfold truncateThrough
  rw [if_neg (not_not.mpr isOpen)]
  dsimp only
  generalize handle.reset = result at emptied done isOpen'
  obtain ⟨handle', ok⟩ := result
  obtain rfl : ok = true := done
  dsimp only
  obtain ⟨_, done', isOpen''⟩ := emptied.appendAll isOpen' kept
  generalize handle'.appendAll _ = result at done' isOpen''
  obtain ⟨handle'', ok⟩ := result
  obtain rfl : ok = true := done'
  exact sinceSync_sync isOpen''

end LogHandle

namespace PowerLog

variable {log : PowerLog} {records : List WalRecord}

/-- **Opening** reads the records at the front of the file, and the platter still has what it had of them. -/
theorem openLog_eq (policy : SyncPolicy) {tail : Buffer}
    (file : log.handle.file.contents = frames records ++ tail) (fit : ∀ record ∈ records, record.Fits)
    (stops : readRecord tail = none) :
    (log.openLog policy).1 =
      { log with
        handle := (log.handle.openLog policy).1
        kept := min log.kept (frames records).length } := by
  unfold openLog
  rw [log.handle.openLog_eq policy file fit stops]

/-- With flushing on, nothing is left to flush after `sync`. -/
theorem whole_sync (isOpen : log.handle.wal.isOpen = true) (flushing : log.handle.wal.policy ≠ .never) :
    log.sync.1.Whole := by
  unfold sync
  dsimp only
  rw [if_pos ⟨isOpen, flushing⟩]
  exact Nat.le_refl _

theorem kept_sync (log : PowerLog) : log.kept ≤ log.sync.1.kept ∨ log.sync.1.Whole := by
  unfold sync
  dsimp only
  split_ifs
  · exact Or.inr (Nat.le_refl _)
  · exact Or.inl (Nat.le_refl _)

/-- **An append** leaves what lies before it on the platter, and if it flushes the whole file. -/
theorem append_eq (holds : log.handle.Holds records) (isOpen : log.handle.wal.isOpen = true)
    {record : WalRecord} (fits : record.Fits) :
    let handle := (log.handle.append record.seq record.payload).1
    (log.append record.seq record.payload).1 =
      { log with
        handle
        kept := if (log.handle.wal.mirror record).syncDue then handle.file.contents.length
          else min log.kept log.handle.file.position } := by
  obtain ⟨_, done, _⟩ := holds.append isOpen fits
  unfold append
  generalize log.handle.append record.seq record.payload = result at done ⊢
  obtain ⟨handle, ok⟩ := result
  obtain rfl : ok = true := done
  dsimp only
  split_ifs <;> rfl

/-- With flushing on, nothing is left to flush after `truncateThrough`. -/
theorem whole_truncateThrough (holds : log.handle.Holds records) (isOpen : log.handle.wal.isOpen = true)
    (flushing : log.handle.wal.policy ≠ .never) (seq : UInt32) : (log.truncateThrough seq).1.Whole := by
  have kept : ∀ record ∈ log.handle.wal.records.filter (fun record => record.seq > seq), record.Fits :=
    fun record member => holds.fit record (holds.mirror ▸ (List.mem_filter.mp member).1)
  obtain ⟨emptied, done, isOpen'⟩ := LogHandle.holds_reset isOpen
  have policy := log.handle.samePolicy_reset.1
  unfold truncateThrough
  rw [if_neg (not_not.mpr isOpen)]
  dsimp only
  rw [← log.handle_reset] at emptied done isOpen' policy
  generalize log.reset = result at emptied done isOpen' policy ⊢
  obtain ⟨log', ok⟩ := result
  obtain rfl : ok = true := done
  dsimp only
  obtain ⟨_, done', isOpen''⟩ := emptied.appendAll isOpen' kept
  have policy' := log'.handle.samePolicy_appendAll
    (log.handle.wal.records.filter fun record => record.seq > seq)
  have flushing' : (log'.handle.appendAll
      (log.handle.wal.records.filter fun record => record.seq > seq)).1.wal.policy ≠ .never := by
    rw [policy'.1, policy]
    exact flushing
  rw [← log'.handle_appendAll] at done' isOpen'' flushing'
  generalize log'.appendAll _ = result at done' isOpen'' flushing' ⊢
  obtain ⟨log'', ok⟩ := result
  obtain rfl : ok = true := done'
  exact whole_sync isOpen'' flushing'

end PowerLog

/-! ### The invariant -/

section Durability

variable {policy : SyncPolicy} {batchSize : Nat}

/-- A log in use under a policy, of which `flushed` is on the platter; `deaths` counts the processes that have
died since. -/
structure Durable (policy : SyncPolicy) (batchSize : Nat) (log : PowerLog) (flushed : List WalRecord)
    (deaths : Nat) : Prop where
  holds : log.handle.Holds log.handle.wal.records
  isOpen : log.handle.wal.isOpen = true
  samePolicy : log.handle.wal.policy = policy
  sameBatch : log.handle.wal.batchSize = batchSize
  front : flushed <+: log.handle.wal.records
  kept : (frames flushed).length ≤ log.kept
  pending : policy ≠ .never → log.handle.wal.sinceSync < policy.batch batchSize
  /-- What is not flushed is a batch for each process that has died, and what this one has not flushed. -/
  rest : policy ≠ .never → log.Whole ∨ log.handle.wal.records.length ≤
    flushed.length + deaths * policy.batch batchSize + log.handle.wal.sinceSync

theorem SyncPolicy.batch_pos (policy : SyncPolicy) (batchSize : Nat) : 0 < policy.batch batchSize := by
  cases policy
  · exact Nat.one_pos
  · exact Nat.lt_of_lt_of_le Nat.one_pos (Nat.le_max_left _ _)
  · exact Nat.lt_of_lt_of_le Nat.one_pos (Nat.le_max_left _ _)

/-- The invariant of a run. -/
def PowerRun.Sound (policy : SyncPolicy) (batchSize : Nat) (run : PowerRun) : Prop :=
  Durable policy batchSize run.log run.flushed run.deaths ∧
    (run.log.Whole → run.flushed = run.log.handle.wal.records)

namespace Durable

variable {log : PowerLog} {flushed : List WalRecord} {deaths : Nat}

/-- Of a file that is on the platter, all is flushed. -/
theorem settle (run : PowerRun) {died : Nat}
    (durable : Durable policy batchSize log flushed (run.deaths + died)) :
    (run.settle log flushed died).Sound policy batchSize := by
  unfold PowerRun.settle
  split_ifs with whole
  · refine ⟨{ durable with
      front := List.prefix_refl _
      kept := durable.holds.contents ▸ whole
      rest := fun _ => Or.inl whole }, fun _ => rfl⟩
  · exact ⟨durable, fun whole' => absurd whole' whole⟩

/-- The bound on what is not flushed, whether or not the whole file is on the platter. -/
theorem bound (durable : Durable policy batchSize log flushed deaths)
    (promise : log.Whole → flushed = log.handle.wal.records) (flushing : policy ≠ .never) :
    log.handle.wal.records.length ≤
      flushed.length + deaths * policy.batch batchSize + log.handle.wal.sinceSync := by
  rcases durable.rest flushing with whole | bound
  · rw [promise whole]
    omega
  · exact bound

/-- The flushed records lie before the end of the log. -/
theorem before_end (durable : Durable policy batchSize log flushed deaths) :
    (frames flushed).length ≤ log.handle.file.position := by
  obtain ⟨more, split⟩ := durable.front
  rw [durable.holds.position durable.isOpen, ← split, frames_append, List.length_append]
  exact Nat.le_add_right _ _

/-- Whether an append fills a batch. -/
theorem not_due (durable : Durable policy batchSize log flushed deaths) {record : WalRecord}
    (lazy : ¬ (log.handle.wal.mirror record).syncDue = true) (flushing : policy ≠ .never) :
    log.handle.wal.sinceSync + 1 < policy.batch batchSize := by
  unfold WriteAheadLog.syncDue WriteAheadLog.mirror at lazy
  simp only [durable.samePolicy, durable.sameBatch, decide_eq_true_eq, not_or, not_and, Nat.not_le] at lazy
  cases policy with
  | everyWrite => exact absurd rfl lazy.1
  | batched => exact Nat.lt_of_lt_of_le (lazy.2 rfl) (Nat.le_max_right _ _)
  | never => exact absurd rfl flushing

theorem append (durable : Durable policy batchSize log flushed deaths)
    (promise : log.Whole → flushed = log.handle.wal.records) (seq : UInt32) (data : Buffer) :
    Durable policy batchSize (log.append seq data).1 flushed deaths := by
  by_cases fits : data.length ≤ kMaxRecordSize
  · have same := log.handle.samePolicy_append seq data
    have fits' : WalRecord.Fits { seq, payload := data } := fits
    obtain ⟨holds, _, isOpen⟩ := durable.holds.append durable.isOpen fits'
    have counter := LogHandle.sinceSync_append durable.isOpen fits'
    rw [PowerLog.append_eq durable.holds durable.isOpen fits']
    dsimp only at holds isOpen counter ⊢
    generalize (log.handle.append seq data).1 = handle at same holds isOpen counter ⊢
    have mirror := holds.mirror
    have grown : flushed <+: handle.wal.records := by
      rw [mirror]
      exact durable.front.trans (List.prefix_append _ _)
    have onPlatter : (frames flushed).length ≤ handle.file.contents.length := by
      obtain ⟨more, split⟩ := grown
      rw [holds.contents, ← mirror, ← split, frames_append, List.length_append]
      exact Nat.le_add_right _ _
    refine
      { holds := mirror ▸ holds
        isOpen
        samePolicy := same.1.trans durable.samePolicy
        sameBatch := same.2.trans durable.sameBatch
        front := grown
        kept := ?kept
        pending := fun flushing => ?pending
        rest := fun flushing => ?rest }
    case kept =>
      dsimp only
      split_ifs
      · exact onPlatter
      · exact Nat.le_min.mpr ⟨durable.kept, durable.before_end⟩
    case pending =>
      rw [counter]
      split_ifs with due
      · exact policy.batch_pos batchSize
      · exact durable.not_due due flushing
    case rest =>
      by_cases due : (log.handle.wal.mirror { seq, payload := data }).syncDue = true
      · rw [if_pos due]
        exact Or.inl (Nat.le_refl _)
      · rw [if_neg due] at counter
        have bound := durable.bound promise flushing
        rw [counter, mirror, List.length_append]
        exact Or.inr (Nat.succ_le_succ bound)
  · have refused : log.handle.append seq data = (log.handle, false) := by
      unfold LogHandle.append
      rw [if_neg (not_not.mpr durable.isOpen), if_pos (Nat.lt_of_not_le fits)]
    unfold PowerLog.append
    rw [refused]
    exact durable

theorem sync (durable : Durable policy batchSize log flushed deaths) :
    Durable policy batchSize log.sync.1 flushed deaths := by
  obtain ⟨holds, _, isOpen⟩ := durable.holds.sync
  have same := log.handle.samePolicy_sync
  have counter := LogHandle.sinceSync_sync durable.isOpen
  have handle : log.sync.1.handle = log.handle.sync.1 := congrArg Prod.fst log.handle_sync
  have platter : (frames flushed).length ≤ log.sync.1.kept := by
    rcases log.kept_sync with kept | whole
    · exact durable.kept.trans kept
    · obtain ⟨more, split⟩ := durable.front
      refine Nat.le_trans ?_ whole
      rw [handle, holds.contents, ← split, frames_append, List.length_append]
      exact Nat.le_add_right _ _
  have mirror := holds.mirror
  rw [← handle] at holds isOpen same counter mirror
  exact
    { holds := mirror.symm ▸ holds
      isOpen := isOpen.trans durable.isOpen
      samePolicy := same.1.trans durable.samePolicy
      sameBatch := same.2.trans durable.sameBatch
      front := mirror.symm ▸ durable.front
      kept := platter
      pending := fun _ => counter ▸ policy.batch_pos batchSize
      rest := fun flushing => Or.inl (PowerLog.whole_sync durable.isOpen (durable.samePolicy ▸ flushing)) }

/-- An emptied log promises nothing, and its file is on the platter whatever that has. -/
theorem reset (durable : Durable policy batchSize log flushed deaths) :
    Durable policy batchSize log.reset.1 [] deaths := by
  obtain ⟨holds, done, isOpen⟩ := LogHandle.holds_reset durable.isOpen
  have same := log.handle.samePolicy_reset
  have counter : log.handle.reset.1.wal.sinceSync = 0 := by
    unfold LogHandle.reset
    rw [if_neg (not_not.mpr durable.isOpen)]
    exact @LogHandle.sinceSync_sync { wal := _, file := _ } durable.isOpen
  unfold PowerLog.reset
  generalize log.handle.reset = result at holds done isOpen same counter ⊢
  obtain ⟨handle, ok⟩ := result
  obtain rfl : ok = true := done
  exact
    { holds := holds.mirror.symm ▸ holds
      isOpen
      samePolicy := same.1.trans durable.samePolicy
      sameBatch := same.2.trans durable.sameBatch
      front := List.nil_prefix
      kept := Nat.zero_le _
      pending := fun _ => counter ▸ policy.batch_pos batchSize
      rest := fun _ => Or.inl (Nat.le_of_eq (congrArg List.length holds.contents)) }

theorem truncateThrough (durable : Durable policy batchSize log flushed deaths) (seq : UInt32) :
    Durable policy batchSize (log.truncateThrough seq).1 [] deaths := by
  obtain ⟨holds, _, isOpen⟩ := durable.holds.truncateThrough durable.isOpen seq
  have same := log.handle.samePolicy_truncateThrough seq
  have counter := LogHandle.sinceSync_truncateThrough durable.holds durable.isOpen seq
  have handle : (log.truncateThrough seq).1.handle = (log.handle.truncateThrough seq).1 :=
    congrArg Prod.fst (log.handle_truncateThrough seq)
  rw [← handle] at holds isOpen same counter
  exact
    { holds := holds.mirror.symm ▸ holds
      isOpen
      samePolicy := same.1.trans durable.samePolicy
      sameBatch := same.2.trans durable.sameBatch
      front := List.nil_prefix
      kept := Nat.zero_le _
      pending := fun _ => counter ▸ policy.batch_pos batchSize
      rest := fun flushing => Or.inl (PowerLog.whole_truncateThrough durable.holds durable.isOpen
        (durable.samePolicy ▸ flushing) seq) }

/-- **Opening the log** after the process, or the machine, has stopped. -/
theorem openLog {records : List WalRecord} {tail : Buffer}
    (file : log.handle.file.contents = frames records ++ tail) (fit : ∀ record ∈ records, record.Fits)
    (stops : readRecord tail = none) (sameBatch : log.handle.wal.batchSize = batchSize)
    (front : flushed <+: records) (kept : (frames flushed).length ≤ log.kept)
    (rest : policy ≠ .never → (log.openLog policy).1.Whole ∨
      records.length ≤ flushed.length + deaths * policy.batch batchSize) :
    Durable policy batchSize (log.openLog policy).1 flushed deaths := by
  obtain ⟨more, split⟩ := front
  have platter : (frames flushed).length ≤ min log.kept (frames records).length := by
    refine Nat.le_min.mpr ⟨kept, ?_⟩
    rw [← split, frames_append, List.length_append]
    exact Nat.le_add_right _ _
  rw [PowerLog.openLog_eq policy file fit stops] at rest ⊢
  rw [log.handle.openLog_eq policy file fit stops] at rest ⊢
  exact
    { holds := ⟨rfl, fit, rfl, rfl, fun _ => rfl⟩
      isOpen := rfl
      samePolicy := rfl
      sameBatch
      front := ⟨more, split⟩
      kept := platter
      pending := fun _ => policy.batch_pos batchSize
      rest }

/-- What the file is once the process has died: the log, and what there is of one more frame. -/
theorem crash (durable : Durable policy batchSize log flushed deaths) (seq : UInt32) (data : Buffer)
    (amount : Nat) : ∃ records tail,
      (log.crash seq data amount).handle.file.contents = frames records ++ tail ∧
      readRecord tail = none ∧ (∀ record ∈ records, WalRecord.Fits record) ∧
      (records = log.handle.wal.records ∨ records = log.handle.wal.records ++ [{ seq, payload := data }]) ∧
      (frames flushed).length ≤ (log.crash seq data amount).kept := by
  have holds := durable.holds
  unfold PowerLog.crash
  dsimp only
  split_ifs with large
  · exact ⟨_, [], by rw [List.append_nil]; exact holds.contents, readRecord_nil, holds.fit, Or.inl rfl,
      durable.kept⟩
  · have fits : WalRecord.Fits { seq, payload := data } := Nat.not_lt.mp large
    have atEnd : log.handle.file.position = log.handle.file.contents.length := by
      rw [holds.position durable.isOpen, holds.contents]
    rw [LogHandle.write_end atEnd, holds.contents]
    have platter := Nat.le_min.mpr ⟨durable.kept, durable.before_end⟩
    by_cases short : amount < (WalRecord.frame { seq, payload := data }).length
    · exact ⟨_, _, rfl, readRecord_take fits short, holds.fit, Or.inl rfl, platter⟩
    · refine ⟨_, [], ?_, readRecord_nil, fun record member => ?_, Or.inr rfl, platter⟩
      · rw [List.take_of_length_le (Nat.not_lt.mp short), frames_append, frames_singleton, List.append_nil]
      · rcases List.mem_append.mp member with old | new
        · exact holds.fit record old
        · rw [List.mem_singleton.mp new]
          exact fits

/-- What the file is once the power has failed: everything flushed, and more. -/
theorem powerCut (durable : Durable policy batchSize log flushed deaths) (left : Buffer) :
    ∃ records tail, (log.powerCut left).handle.file.contents = frames records ++ tail ∧
      readRecord tail = none ∧ (∀ record ∈ records, WalRecord.Fits record) ∧ flushed <+: records := by
  have holds := durable.holds
  obtain ⟨more, split⟩ := durable.front
  have front : frames flushed <+: log.handle.file.contents.take log.kept := by
    rw [List.prefix_take_iff]
    refine ⟨?_, durable.kept⟩
    rw [holds.contents, ← split, frames_append]
    exact List.prefix_append _ _
  obtain ⟨behind, same⟩ := front
  obtain ⟨others, tail, found, fit, stops, _⟩ := scan_file (behind ++ left)
  refine ⟨flushed ++ others, tail, ?_, stops, fun record member => ?_, List.prefix_append _ _⟩
  · unfold PowerLog.powerCut
    dsimp only
    rw [← same, List.append_assoc, found, frames_append, List.append_assoc]
  · rcases List.mem_append.mp member with old | new
    · exact holds.fit record (split ▸ List.mem_append_left _ old)
    · exact fit record new

end Durable

/-- A new log in a new file promises nothing. -/
theorem PowerRun.sound_start (policy : SyncPolicy) (batchSize : Nat) :
    (PowerRun.start policy batchSize).Sound policy batchSize := by
  have opened : Durable policy batchSize (PowerRun.start policy batchSize).log [] 0 :=
    @Durable.openLog policy batchSize { handle := { wal := { batchSize } } } [] 0 [] [] rfl nofun
      readRecord_nil rfl (List.prefix_refl _) (Nat.le_refl _) fun _ => Or.inr (Nat.zero_le _)
  exact ⟨opened, fun _ => rfl⟩

/-- The steps that drop records on purpose. -/
def PowerStep.Drops : PowerStep → Prop
  | .reset | .truncateThrough _ => True
  | _ => False

/-- **Every step** leaves a log with what was flushed on the platter. -/
theorem PowerRun.Sound.step_durable {run next : PowerRun} (sound : run.Sound policy batchSize)
    {label : PowerStep} (enabled : run.step policy label = some next) :
    ∃ log kept died, next = run.settle log kept died ∧
      (kept = run.flushed ∨ label.Drops ∨ run.log.named = false) ∧
      (run.log.named = true → log.named = true) ∧ Durable policy batchSize log kept (run.deaths + died) := by
  obtain ⟨durable, promise⟩ := sound
  cases label with
  | append seq data =>
    cases enabled
    exact ⟨_, _, _, rfl, Or.inl rfl, (run.log.named_append seq data).trans, durable.append promise seq data⟩
  | sync =>
    cases enabled
    exact ⟨_, _, _, rfl, Or.inl rfl, run.log.named_sync.trans, durable.sync⟩
  | reset =>
    cases enabled
    exact ⟨_, _, _, rfl, Or.inr (Or.inl trivial), run.log.named_reset.trans, durable.reset⟩
  | truncateThrough seq =>
    cases enabled
    exact ⟨_, _, _, rfl, Or.inr (Or.inl trivial), (run.log.named_truncateThrough seq).trans,
      durable.truncateThrough seq⟩
  | crash seq data amount =>
    cases enabled
    obtain ⟨records, tail, file, stops, fit, found, kept⟩ := durable.crash seq data amount
    have front : run.flushed <+: records := by
      rcases found with rfl | rfl
      · exact durable.front
      · exact durable.front.trans (List.prefix_append _ _)
    refine ⟨_, _, _, rfl, Or.inl rfl, ?_, Durable.openLog file fit stops ?_ front kept fun flushing => Or.inr ?_⟩
    · exact ((PowerLog.named_openLog _ policy).trans (run.log.named_crash seq data amount)).trans
    · unfold PowerLog.crash
      dsimp only
      split_ifs <;> exact durable.sameBatch
    · -- What the process had not flushed, and perhaps the record it died with, make one batch.
      have bound := durable.bound promise flushing
      have pending := durable.pending flushing
      have longer : records.length ≤ run.log.handle.wal.records.length + 1 := by
        rcases found with rfl | rfl
        · exact Nat.le_succ _
        · exact Nat.le_of_eq List.length_append
      rw [Nat.succ_mul]
      omega
  | flushDirectory =>
    cases enabled
    exact ⟨_, _, _, rfl, Or.inl rfl, fun _ => rfl, ⟨durable.holds, durable.isOpen, durable.samePolicy,
      durable.sameBatch, durable.front, durable.kept, durable.pending, durable.rest⟩⟩
  | lose =>
    unfold PowerRun.step at enabled
    dsimp only at enabled
    split_ifs at enabled with named
    cases enabled
    refine ⟨_, _, _, rfl, Or.inr (Or.inr (Bool.not_eq_true _ ▸ named)), fun isNamed => absurd isNamed named, ?_⟩
    exact @Durable.openLog policy batchSize run.log.lose [] _ [] [] rfl nofun readRecord_nil durable.sameBatch
      (List.prefix_refl _) (Nat.le_refl _) fun _ => Or.inr (Nat.zero_le _)
  | powerCut left =>
    cases enabled
    obtain ⟨records, tail, file, stops, fit, front⟩ := durable.powerCut left
    obtain ⟨more, split⟩ := front
    have onPlatter : (frames records).length ≤ (run.log.powerCut left).kept := by
      show _ ≤ (run.log.powerCut left).handle.file.contents.length
      rw [file, List.length_append]
      exact Nat.le_add_right _ _
    refine ⟨_, _, _, rfl, Or.inl rfl, fun _ => PowerLog.named_openLog _ policy,
      Durable.openLog file fit stops durable.sameBatch ⟨more, split⟩ ?_ fun _ => Or.inl ?_⟩
    · refine Nat.le_trans ?_ onPlatter
      rw [← split, frames_append, List.length_append]
      exact Nat.le_add_right _ _
    · rw [PowerLog.openLog_eq policy file fit stops,
        (run.log.powerCut left).handle.openLog_eq policy file fit stops]
      exact Nat.le_min.mpr ⟨onPlatter, Nat.le_refl _⟩

theorem PowerRun.Sound.step {run next : PowerRun} (sound : run.Sound policy batchSize)
    {label : PowerStep} (enabled : run.step policy label = some next) : next.Sound policy batchSize := by
  obtain ⟨log, kept, died, rfl, _, _, durable⟩ := sound.step_durable enabled
  exact durable.settle run

/-- A name on the platter stays there. -/
theorem PowerRun.Sound.named_step {run next : PowerRun} (sound : run.Sound policy batchSize)
    {label : PowerStep} (enabled : run.step policy label = some next) (named : run.log.named = true) :
    next.log.named = true := by
  obtain ⟨log, kept, died, rfl, _, stays, _⟩ := sound.step_durable enabled
  rw [run.settle_log]
  exact stays named

/-- A promise is only ever extended, unless records are dropped on purpose. -/
theorem PowerRun.Sound.promised_step {run next : PowerRun} (sound : run.Sound policy batchSize)
    {label : PowerStep} (enabled : run.step policy label = some next) (keeps : ¬ label.Drops) :
    run.promised <+: next.promised := by
  by_cases named : run.log.named = true
  · have named' := sound.named_step enabled named
    obtain ⟨log, kept, died, rfl, same | drops | unnamed, _, durable⟩ := sound.step_durable enabled
    · unfold promised
      rw [if_pos named, if_pos named', ← same]
      unfold PowerRun.settle
      split_ifs
      · exact durable.front
      · exact List.prefix_refl _
    · exact absurd drops keeps
    · exact absurd (unnamed.symm.trans named) nofun
  · unfold promised
    rw [if_neg named]
    exact List.nil_prefix

/-- What is promised is in the log. -/
theorem PowerRun.Sound.promised_front {run : PowerRun} (sound : run.Sound policy batchSize) :
    run.promised <+: run.log.handle.wal.records := by
  unfold promised
  split_ifs
  · exact sound.1.front
  · exact List.nil_prefix

end Durability

/-! ### What survives -/

/-- The steps in which the machine loses power. -/
def PowerStep.Cuts : PowerStep → Prop
  | .powerCut _ | .lose => True
  | _ => False

/-- What a log in use has to show for itself. -/
structure PowerRun.Survives (policy : SyncPolicy) (batchSize : Nat) (run : PowerRun) : Prop where
  /-- A power cut takes nothing that was promised. -/
  cuts : ∀ label next, label.Cuts → run.step policy label = some next →
    run.promised <+: next.log.handle.wal.records
  /-- If it leaves a front part of the file, nothing is found that was not in the log. -/
  invents : ∀ amount, ((run.log.powerCut ((run.log.handle.file.contents.drop run.log.kept).take
    amount)).openLog policy).1.handle.wal.records <+: run.log.handle.wal.records
  /-- A dying process takes nothing at all, and leaves at most the record it was appending. -/
  crash : ∀ seq data amount, ∃ torn, torn <+: [{ seq, payload := data : WalRecord }] ∧
    ((run.log.crash seq data amount).openLog policy).1.handle.wal.records =
      run.log.handle.wal.records ++ torn
  /-- Promises hold across crashes and power cuts, until records are dropped on purpose. -/
  keeps : ∀ label next, ¬ label.Drops → run.step policy label = some next → run.promised <+: next.promised
  /-- One flush of the directory is enough for all the run. -/
  named : ∀ label next, run.step policy label = some next → run.log.named = true → next.log.named = true
  /-- A log that flushes at every write promises what it acknowledges. -/
  acknowledged : policy = .everyWrite → run.log.named = true → ∀ seq data next,
    (run.log.append seq data).2 = true → run.step policy (.append seq data) = some next →
      next.promised = run.log.handle.wal.records ++ [{ seq, payload := data }]
  /-- With flushing on, an explicit `sync` promises all there is. -/
  synced : policy ≠ .never → run.log.named = true → ∀ next, run.step policy .sync = some next →
    next.promised = run.log.handle.wal.records
  /-- So does a flush of the directory, if nothing is left to flush of the file. -/
  directory : run.log.Whole → ∀ next, run.step policy .flushDirectory = some next →
    next.promised = run.log.handle.wal.records
  /-- What is not promised is at most a batch for each process that has died since, and less than a batch
  of this one. -/
  batch : policy ≠ .never → run.log.named = true → run.promised <+: run.log.handle.wal.records ∧
    run.log.handle.wal.records.length ≤
      run.promised.length + run.deaths * policy.batch batchSize + run.log.handle.wal.sinceSync ∧
        run.log.handle.wal.sinceSync < policy.batch batchSize

theorem PowerRun.Sound.survives {policy : SyncPolicy} {batchSize : Nat} {run : PowerRun}
    (sound : run.Sound policy batchSize) : run.Survives policy batchSize := by
  obtain ⟨durable, promise⟩ := id sound
  refine
    { cuts := fun label next cuts enabled => ?cuts
      invents := fun amount => ?invents
      crash := fun seq data amount => ?crash
      keeps := fun label next keeps enabled => sound.promised_step enabled keeps
      named := fun label next enabled named => sound.named_step enabled named
      acknowledged := fun everyWrite named seq data next accepted enabled => ?acknowledged
      synced := fun flushing named next enabled => ?synced
      directory := fun whole next enabled => ?directory
      batch := fun flushing named => ?batch }
  case cuts =>
    have keeps : ¬ label.Drops := by
      cases label with
      | powerCut | lose => exact id
      | _ => cases cuts
    exact (sound.promised_step enabled keeps).trans (sound.step enabled).promised_front
  case invents =>
    have cut : (run.log.powerCut
        ((run.log.handle.file.contents.drop run.log.kept).take amount)).handle.file.contents =
          (frames run.log.handle.wal.records).take (run.log.kept + amount) := by
      unfold PowerLog.powerCut
      rw [List.take_add, ← durable.holds.contents]
    obtain ⟨records, tail, file, fit, stops, _⟩ := scan_file (run.log.powerCut
      ((run.log.handle.file.contents.drop run.log.kept).take amount)).handle.file.contents
    rw [PowerLog.openLog_eq policy file fit stops, LogHandle.openLog_eq _ policy file fit stops]
    have longest := longestFront_of_stops file fit stops
    rw [cut] at longest
    exact (LongestFront.of_cut durable.holds.fit longest).1
  case crash =>
    obtain ⟨records, tail, file, stops, fit, found, _⟩ := durable.crash seq data amount
    rw [PowerLog.openLog_eq policy file fit stops,
      (run.log.crash seq data amount).handle.openLog_eq policy file fit stops]
    rcases found with rfl | rfl
    · exact ⟨[], List.nil_prefix, (List.append_nil _).symm⟩
    · exact ⟨_, List.prefix_refl _, rfl⟩
  case acknowledged =>
    have fits : data.length ≤ kMaxRecordSize := by
      by_contra large
      have refused : (run.log.append seq data).2 = (run.log.handle.append seq data).2 :=
        congrArg Prod.snd (run.log.handle_append seq data)
      unfold LogHandle.append at refused
      rw [if_neg (not_not.mpr durable.isOpen), if_pos (Nat.lt_of_not_le large), accepted] at refused
      cases refused
    have fits' : WalRecord.Fits { seq, payload := data } := fits
    obtain ⟨holds, _, _⟩ := durable.holds.append durable.isOpen fits'
    have due : (run.log.handle.wal.mirror { seq, payload := data }).syncDue = true := by
      unfold WriteAheadLog.syncDue WriteAheadLog.mirror
      simp [durable.samePolicy, everyWrite]
    have appended := PowerLog.append_eq durable.holds durable.isOpen fits'
    dsimp only at appended
    rw [if_pos due] at appended
    cases enabled
    have whole : (run.log.append seq data).1.Whole := by
      rw [appended]
      exact Nat.le_refl _
    have handle : (run.log.append seq data).1.handle = (run.log.handle.append seq data).1 :=
      congrArg Prod.fst (run.log.handle_append seq data)
    rw [run.promised_settle whole ((run.log.named_append seq data).trans named), handle]
    exact holds.mirror
  case synced =>
    have handle : run.log.sync.1.handle = run.log.handle.sync.1 := congrArg Prod.fst run.log.handle_sync
    cases enabled
    rw [run.promised_settle (PowerLog.whole_sync durable.isOpen (durable.samePolicy ▸ flushing))
      (run.log.named_sync.trans named), handle]
    exact durable.holds.sync.1.mirror
  case directory =>
    cases enabled
    exact @PowerRun.promised_settle run run.log.flushDirectory whole rfl run.flushed 0
  case batch =>
    have same : run.promised = run.flushed := if_pos named
    rw [same]
    exact ⟨durable.front, durable.bound promise flushing, durable.pending flushing⟩

/-- **Durability.** Whatever is appended, flushed, dropped, crashed and cut, under every policy and batch
size. -/
theorem powerCut_keeps (policy : SyncPolicy) (batchSize : Nat) (steps : List PowerStep) :
    Always (PowerRun.step policy) (PowerRun.Survives policy batchSize) (PowerRun.start policy batchSize)
      steps :=
  always_of_guarded (PowerRun.Sound policy batchSize) (fun sound _ enabled => sound.step enabled)
    (fun sound => sound.survives) (PowerRun.sound_start policy batchSize) (guarded_true _ _)

end Sententia
