/-
**Appends that fail.** A write can fail in the middle of a frame, and a flush can fail after the frame is
written. `append` then returns `false`, but takes nothing back: a flush that fails leaves the record in
the log, and a torn frame stays in front of whatever is appended next, which no replay gets past.

`append_all_or_nothing`: in every sequence of appends in which no flush fails and nothing is written
behind a torn frame, reopening the log yields exactly the records of the calls that returned `true`.
-/

import Sententia.Library.Transition
import Sententia.Storage.WalSpec

namespace Sententia

open Library

/-- A call of `append`, with what becomes of its system calls: first the write, then the flush. -/
structure AppendCall where
  seq : UInt32
  data : Buffer
  answers : Nat → Option Nat := fun _ => none

namespace AppendCall

def record (call : AppendCall) : WalRecord := { seq := call.seq, payload := call.data }

/-- The write fails before the frame is complete. -/
def writeFails (call : AppendCall) : Bool :=
  (call.answers 0).any fun amount => amount < call.record.frame.length

def flushFails (call : AppendCall) : Bool := (call.answers 1).isSome

end AppendCall

/-- A log in use, and the records it found when it was opened followed by those of the calls that
returned `true`. -/
structure WalSession where
  wal : WriteAheadLog
  disk : Disk
  acknowledged : List WalRecord

namespace WalSession

def file (session : WalSession) : Buffer := (session.disk .log).getD []

/-- Opens the log on whatever the disk holds. -/
def start (disk : Disk) (policy : SyncPolicy) (batchSize : Nat) : WalSession :=
  match ({ batchSize } : WriteAheadLog).openLog { disk } policy with
  | (wal, device, _) => { wal, disk := device.disk, acknowledged := wal.records }

def step (session : WalSession) (call : AppendCall) : Option WalSession :=
  match session.wal.append { disk := session.disk, answers := call.answers } call.seq call.data with
  | (wal, device, ok) =>
    some
      { wal
        disk := device.disk
        acknowledged := if ok then session.acknowledged ++ [call.record] else session.acknowledged }

/-- The records that closing and reopening the log yields. -/
def reopened (session : WalSession) : List WalRecord :=
  (session.wal.close.openLog { disk := session.disk } session.wal.policy).1.records

def AllOrNothing (session : WalSession) : Prop := session.reopened = session.acknowledged

/-- The call is refused for its size, or its write fails before the first byte, or the file has no torn
frame at its end and the call, once its frame is written, does not fail to flush it. -/
def Harmless (session : WalSession) (call : AppendCall) : Prop :=
  kMaxRecordSize < call.data.length ∨ call.answers 0 = some 0 ∨
    (session.file.length = session.wal.bytesOnDisk ∧
      (call.writeFails ∨ ¬ (session.wal.mirror call.record).syncDue ∨ ¬ call.flushFails))

instance (session : WalSession) (call : AppendCall) : Decidable (session.Harmless call) :=
  inferInstanceAs (Decidable (_ ∨ _ ∨ _))

/-! ### The file behind a session -/

/-- The file is the acknowledged records and a tail that reads as nothing; the log knows where it
begins. -/
structure Sound (session : WalSession) : Prop where
  isOpen : session.wal.isOpen = true
  fit : ∀ record ∈ session.acknowledged, record.Fits
  length : session.wal.bytesOnDisk = (frames session.acknowledged).length
  file : ∃ tail, session.file = frames session.acknowledged ++ tail ∧ readRecord tail = none

theorem Sound.allOrNothing {session : WalSession} (sound : session.Sound) : session.AllOrNothing := by
  obtain ⟨tail, file, stops⟩ := sound.file
  have obliging : Device.Obliging { disk := session.disk } := fun _ => rfl
  obtain ⟨device, opened, _⟩ :=
    session.wal.close.openLog_eq obliging session.wal.policy file sound.fit stops
  unfold AllOrNothing reopened
  rw [opened]

theorem sound_start (disk : Disk) (policy : SyncPolicy) (batchSize : Nat) :
    (start disk policy batchSize).Sound := by
  obtain ⟨records, tail, file, fit, stops, _⟩ := scan_file ((disk .log).getD [])
  have obliging : Device.Obliging { disk } := fun _ => rfl
  obtain ⟨device, opened, _, after⟩ :=
    WriteAheadLog.openLog_eq { batchSize } obliging policy file fit stops
  unfold start
  rw [opened]
  refine ⟨rfl, fit, rfl, [], ?_, readRecord_nil⟩
  simp [WalSession.file, after]

/-! ### One call -/

/-- A write leaves the other parts of the disk alone and goes to the end of the log. -/
theorem file_write (disk : Disk) (bytes : Buffer) :
    (DiskOp.perform disk (.write .log bytes) .log).getD [] = (disk .log).getD [] ++ bytes := by
  simp [DiskOp.perform]

/-- The frame of a call that is written completely behind the acknowledged records. -/
theorem Sound.written {session : WalSession} (sound : session.Sound) {call : AppendCall}
    (fits : call.record.Fits) (whole : session.file.length = session.wal.bytesOnDisk)
    (completes : call.writeFails = false)
    (flushes : ¬ (session.wal.mirror call.record).syncDue ∨ ¬ call.flushFails) {next : WalSession}
    (moved : session.step call = some next) : next.Sound := by
  obtain ⟨tail, file, _⟩ := sound.file
  have nothing : tail = [] := by
    rw [file, List.length_append, sound.length] at whole
    exact List.length_eq_zero_iff.mp (by omega)
  subst nothing
  rw [List.append_nil] at file
  have answer : ∀ amount ∈ call.answers 0, call.record.frame.length ≤ amount := by
    intro amount answered
    unfold AppendCall.writeFails at completes
    rw [answered] at completes
    simpa using completes
  have flushes' : ¬ (session.wal.mirror call.record).syncDue ∨ call.answers 1 = none :=
    flushes.imp_right fun quiet => Option.not_isSome_iff_eq_none.mp quiet
  obtain ⟨sinceSync, stats, calls, appended⟩ : ∃ sinceSync stats calls, session.wal.append
      { disk := session.disk, answers := call.answers } call.seq call.data = _ :=
    WriteAheadLog.append_succeeds sound.isOpen fits answer flushes'
  unfold step at moved
  rw [appended] at moved
  obtain rfl := Option.some.inj moved
  refine ⟨sound.isOpen, ?_, ?_, [], ?_, readRecord_nil⟩
  · intro record member
    rcases List.mem_append.mp member with old | new
    · exact sound.fit record old
    · rw [List.mem_singleton.mp new]
      exact fits
  · show session.wal.bytesOnDisk + call.record.frame.length =
      (frames (session.acknowledged ++ [call.record])).length
    rw [frames_append, List.length_append, frames_singleton, sound.length]
  · show (DiskOp.perform session.disk (.write .log call.record.frame) .log).getD [] =
      frames (session.acknowledged ++ [call.record]) ++ []
    rw [file_write, List.append_nil, frames_append, frames_singleton, ← file]
    rfl

/-- A write that fails leaves a torn frame, or nothing, behind the acknowledged records. -/
theorem Sound.torn {session : WalSession} (sound : session.Sound) {call : AppendCall}
    (fits : call.record.Fits) {amount : Nat} (answer : call.answers 0 = some amount)
    (short : amount < call.record.frame.length)
    (clean : amount = 0 ∨ session.file.length = session.wal.bytesOnDisk) {next : WalSession}
    (moved : session.step call = some next) : next.Sound := by
  obtain ⟨tail, file, stops⟩ := sound.file
  have appended : session.wal.append { disk := session.disk, answers := call.answers } call.seq
      call.data = _ := WriteAheadLog.append_torn sound.isOpen fits answer short
  unfold step at moved
  rw [appended] at moved
  obtain rfl := Option.some.inj moved
  refine ⟨sound.isOpen, sound.fit, sound.length, tail ++ call.record.frame.take amount, ?_, ?_⟩
  · show (DiskOp.perform session.disk (.write .log (call.record.frame.take amount)) .log).getD [] =
      frames session.acknowledged ++ (tail ++ call.record.frame.take amount)
    rw [file_write, ← List.append_assoc, ← file]
    rfl
  · rcases clean with rfl | whole
    · rw [List.take_zero, List.append_nil]
      exact stops
    · have nothing : tail = [] := by
        rw [file, List.length_append, sound.length] at whole
        exact List.length_eq_zero_iff.mp (by omega)
      rw [nothing, List.nil_append]
      exact readRecord_take fits short

theorem Sound.step {session next : WalSession} {call : AppendCall} (sound : session.Sound)
    (harmless : session.Harmless call) (moved : session.step call = some next) : next.Sound := by
  by_cases large : kMaxRecordSize < call.data.length
  · unfold WalSession.step at moved
    rw [WriteAheadLog.append_refused _ _ _ large] at moved
    obtain rfl := Option.some.inj moved
    exact sound
  · have fits : call.record.Fits := Nat.le_of_not_lt large
    cases answer : call.answers 0 with
    | none =>
      have completes : call.writeFails = false := by
        unfold AppendCall.writeFails
        rw [answer]
        rfl
      rcases harmless with tooLarge | nothing | ⟨whole, fails | flushes⟩
      · exact absurd tooLarge large
      · rw [answer] at nothing
        cases nothing
      · rw [completes] at fails
        cases fails
      · exact sound.written fits whole completes flushes moved
    | some amount =>
      by_cases short : amount < call.record.frame.length
      · refine sound.torn fits answer short ?_ moved
        rcases harmless with tooLarge | nothing | ⟨whole, _⟩
        · exact absurd tooLarge large
        · rw [answer] at nothing
          exact Or.inl (Option.some.inj nothing)
        · exact Or.inr whole
      · have completes : call.writeFails = false := by
          unfold AppendCall.writeFails
          rw [answer]
          simpa using short
        have positive := List.length_pos_iff.mpr (frame_ne_nil call.record)
        rcases harmless with tooLarge | nothing | ⟨whole, fails | flushes⟩
        · exact absurd tooLarge large
        · rw [answer] at nothing
          have zero := Option.some.inj nothing
          omega
        · rw [completes] at fails
          cases fails
        · exact sound.written fits whole completes flushes moved

/-! ### Every sequence of calls -/

/-- **Appends are all or nothing**, on a log opened over any file and under every policy, as long as no
flush fails and nothing is written behind a torn frame. -/
theorem append_all_or_nothing (disk : Disk) (policy : SyncPolicy) (batchSize : Nat)
    (calls : List AppendCall) (harmless : Guarded step Harmless (start disk policy batchSize) calls) :
    Always step AllOrNothing (start disk policy batchSize) calls :=
  always_of_guarded Sound Sound.step Sound.allOrNothing (sound_start disk policy batchSize) harmless

/-- A new log. -/
def fresh : WalSession := start (fun _ => none) .everyWrite 64

/-- An append, a write that fails before its first byte, another append, and a torn frame. -/
def tornAtTheEnd : List AppendCall :=
  [{ seq := 1, data := [1, 2] },
    { seq := 2, data := [3], answers := fun _ => some 0 },
    { seq := 2, data := [3] },
    { seq := 3, data := [4], answers := fun call => if call = 0 then some 5 else none }]

theorem append_all_or_nothing_tornAtTheEnd :
    Guarded step Harmless fresh tornAtTheEnd ∧ Always step AllOrNothing fresh tornAtTheEnd :=
  have harmless : Guarded step Harmless fresh tornAtTheEnd := by decide +kernel
  ⟨harmless, append_all_or_nothing (fun _ => none) .everyWrite 64 tornAtTheEnd harmless⟩

/-- A write that fails after one byte, then an append that succeeds. -/
def tornBeforeAppend : List AppendCall :=
  [{ seq := 1, data := [1], answers := fun call => if call = 0 then some 1 else none },
    { seq := 1, data := [1] }]

/-- An append whose frame is written and whose flush fails. -/
def flushFailure : List AppendCall :=
  [{ seq := 1, data := [1], answers := fun call => if call = 1 then some 0 else none }]

/-- The torn byte hides the record of the call that returned `true`; the failed flush leaves the record of
the call that returned `false`. -/
theorem torn_frame_hides_record :
    (∃ session, run step fresh tornBeforeAppend = some session ∧
        session.acknowledged = [{ seq := 1, payload := [1] }] ∧ session.reopened = [] ∧
          ¬ session.AllOrNothing) ∧
      ∃ session, run step fresh flushFailure = some session ∧ session.acknowledged = [] ∧
        session.reopened = [{ seq := 1, payload := [1] }] ∧ ¬ session.AllOrNothing := by
  refine ⟨⟨_, (Option.some_get (by decide +kernel)).symm, by decide +kernel, by decide +kernel, ?_⟩,
    ⟨_, (Option.some_get (by decide +kernel)).symm, by decide +kernel, by decide +kernel, ?_⟩⟩
  · unfold AllOrNothing
    decide +kernel
  · unfold AllOrNothing
    decide +kernel

end WalSession

end Sententia
