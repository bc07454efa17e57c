/-
**The vote and the snapshot when the power fails** (`stable_store.cpp`, `snapshot.cpp`). Both files are
replaced and never written in place: to a temporary file, flushed, renamed, and the directory flushed.

* `Device.replace` — the calls of `StableState.save` and `writeSnapshotFile` are the same; on any device they
  are a replacement, completed or cut short (`replace_shows`).
* `votes_survive`, `snapshots_survive` — after any run of replacements, failures, crashes and power cuts, a
  reader finds what was last saved to the end or what has been attempted since, and it verifies.
-/

import Sententia.Library.Replacement
import Sententia.Storage.InstallSnapshot

namespace Sententia

open Library

/-! ### The calls of a replacement -/

namespace Device

/-- Write to a temporary file, flush it, rename it over the target, flush the directory. -/
def replace (device : Device) (temp target : FileName) (bytes : Buffer) : Device × Bool :=
  match device.call (.create temp) with
  | (device, false) => (device, false)
  | (device, true) =>
    match device.call (.write temp bytes) with
    | (device, false) => (device, false)
    | (device, true) =>
      match device.flush with
      | (device, false) => (device, false)
      | (device, true) =>
        match device.call (.rename temp target) with
        | (device, false) => (device, false)
        | (device, true) => device.flush

end Device

/-- The vote file. -/
def StableState.file (state : StableState) : Buffer := state.body ++ putU32 (crc32 state.body)

theorem StableState.save_eq (device : Device) (state : StableState) :
    StableState.save device state = device.replace .stateTemp .state state.file := rfl

theorem writeSnapshotFile_eq (device : Device) (snap : SnapshotRecord) :
    writeSnapshotFile device snap = device.replace .snapshotTemp .snapshot (snapshotFile snap) := rfl

/-- What the operating system shows of the two names. -/
structure Shows (files : Replaced Byte) (disk : Disk) (temp target : FileName) : Prop where
  target : disk target = files.read
  temp : disk temp = files.directory.temp.map fun place => (files.inode place).contents

namespace Shows

variable {files : Replaced Byte} {okay : Option Buffer → Prop} {disk : Disk} {temp target : FileName}

/-- A change of the temporary file shows there and nowhere else. -/
theorem setTemp (shown : Shows files disk temp target) (different : temp ≠ target) (whole : Whole okay files)
    {place : Nat} (tempAt : files.directory.temp = some place) (change : Inode Byte → Inode Byte) :
    Shows (files.setTemp change)
      (Function.update disk temp (some (change (files.inode place)).contents)) temp target := by
  unfold Replaced.setTemp
  rw [tempAt]
  constructor
  · rw [Function.update_of_ne different.symm, shown.target]
    unfold Replaced.read
    cases named : files.directory.file with
    | none => rfl
    | some other =>
      have apart := (whole.apart _ whole.current other named).1
      have distinct : other ≠ place := fun same => apart (same ▸ tempAt)
      simp [Function.update_of_ne distinct]
  · rw [Function.update_self]
    simp [tempAt]

theorem create (shown : Shows files disk temp target) (different : temp ≠ target) (whole : Whole okay files) :
    Shows (files.perform .create) (DiskOp.perform disk (.create temp)) temp target := by
  unfold Replaced.perform
  cases tempAt : files.directory.temp with
  | some place => exact shown.setTemp different whole tempAt _
  | none =>
    constructor
    · show Function.update disk temp (some []) target = _
      rw [Function.update_of_ne different.symm, shown.target]
      unfold Replaced.read
      cases named : files.directory.file with
      | none => simp [Replaced.enter, named]
      | some other =>
        have older := Nat.ne_of_lt (whole.allocated _ whole.current other (Or.inl named))
        simp [Replaced.enter, named, Function.update_of_ne older]
    · show Function.update disk temp (some []) temp = _
      simp [Replaced.enter]

theorem write (shown : Shows files disk temp target) (different : temp ≠ target) (whole : Whole okay files)
    {place : Nat} (tempAt : files.directory.temp = some place) (bytes : Buffer) :
    Shows (files.perform (.write bytes)) (DiskOp.perform disk (.write temp bytes)) temp target := by
  have before : disk temp = some (files.inode place).contents := by
    rw [shown.temp, tempAt]
    rfl
  have written := shown.setTemp different whole tempAt fun inode =>
    { contents := inode.contents ++ bytes, flushed := false }
  rw [show (files.inode place).contents = (disk temp).getD [] from (congrArg (·.getD []) before).symm]
    at written
  exact written

theorem flush (shown : Shows files disk temp target) (different : temp ≠ target) (whole : Whole okay files)
    {place : Nat} (tempAt : files.directory.temp = some place) :
    Shows (files.perform .flush) disk temp target := by
  have before : disk temp = some (files.inode place).contents := by
    rw [shown.temp, tempAt]
    rfl
  have flushed := shown.setTemp different whole tempAt fun inode => { inode with flushed := true }
  rwa [← before, Function.update_eq_self] at flushed

theorem rename (shown : Shows files disk temp target) (different : temp ≠ target) :
    Shows (files.perform .rename) (DiskOp.perform disk (.rename temp target)) temp target := by
  constructor
  · show Function.update (Function.update disk target (disk temp)) temp none target = _
    rw [Function.update_of_ne different.symm, Function.update_self, shown.temp]
    rfl
  · exact Function.update_self _ _ _

end Shows

theorem Device.call_outcome (device : Device) (op : DiskOp) :
    device.call op = (device.after op, true) ∨
      ∃ amount, device.call op =
        ({ device with disk := op.performUpTo device.disk amount, calls := device.calls + 1 }, false) := by
  by_cases completes : device.Completes 0 op
  · exact Or.inl (device.call_completes completes)
  · exact Or.inr (call_of_not_completes completes)

/-- **What `save` and `writeSnapshotFile` do on any device** is a replacement, completed or cut short. -/
theorem replace_shows {files : Replaced Byte} {okay : Option Buffer → Prop} (whole : Whole okay files)
    {temp target : FileName} (different : temp ≠ target) {device : Device}
    (shown : Shows files device.disk temp target) (bytes : Buffer) :
    ((device.replace temp target bytes).2 = true ∧
        Shows (files.performAll (replacement bytes)) (device.replace temp target bytes).1.disk temp target) ∨
      (device.replace temp target bytes).2 = false ∧ ∃ done amount,
        Shows (files.performAll (cutShort bytes done amount)) (device.replace temp target bytes).1.disk temp
          target := by
  obtain ⟨place, tempAt, _⟩ := files.temp_create
  have created := shown.create different whole
  have written := created.write different whole.create tempAt bytes
  have tempAt' : ((files.perform .create).perform (.write bytes)).directory.temp = some place := by
    rw [show ((files.perform .create).perform (.write bytes)).directory =
      (files.perform .create).directory from Replaced.directory_setTemp _ _]
    exact tempAt
  have flushed := written.flush different (whole.create.write bytes) tempAt'
  have renamed := flushed.rename different
  unfold Device.replace
  rcases device.call_outcome (.create temp) with done | ⟨_, failed⟩
  · rw [done]
    dsimp only
    rcases (device.after (.create temp)).call_outcome (.write temp bytes) with done | ⟨amount, failed⟩
    · rw [done]
      dsimp only
      have disk : ((device.after (.create temp)).after (.write temp bytes)).flush.1.disk =
          DiskOp.perform (DiskOp.perform device.disk (.create temp)) (.write temp bytes) := rfl
      generalize ((device.after (.create temp)).after (.write temp bytes)).flush = result at disk ⊢
      obtain ⟨device', _ | _⟩ := result
      · exact Or.inr ⟨rfl, 2, 0, disk ▸ written⟩
      · dsimp only
        rw [← disk] at flushed renamed
        rcases device'.call_outcome (.rename temp target) with done | ⟨_, failed⟩
        · rw [done]
          dsimp only
          have disk' : (device'.after (.rename temp target)).flush.1.disk =
              DiskOp.perform device'.disk (.rename temp target) := rfl
          generalize (device'.after (.rename temp target)).flush = result at disk' ⊢
          obtain ⟨device'', _ | _⟩ := result
          · exact Or.inr ⟨rfl, 4, 0, disk' ▸ renamed⟩
          · exact Or.inl ⟨rfl, disk' ▸ renamed.target, disk' ▸ renamed.temp⟩
        · rw [failed]
          exact Or.inr ⟨rfl, 3, 0, flushed⟩
    · rw [failed]
      exact Or.inr ⟨rfl, 1, amount, created.write different whole.create tempAt (bytes.take amount)⟩
  · rw [failed]
    exact Or.inr ⟨rfl, 0, 0, shown⟩

/-! ### What a reader finds -/

section Survival

variable {σ ρ : Type*} {image : σ → Buffer} {read : Option Buffer → ρ} {view : Option σ → ρ}
  {temp target : FileName} {save : Device → σ → Device × Bool}

/-- A reader finds something expected, now and after a power cut, and saving on any device that shows the
file is the next step of the run. -/
structure Survives (image : σ → Buffer) (read : Option Buffer → ρ) (view : Option σ → ρ)
    (temp target : FileName) (save : Device → σ → Device × Bool) (run : ReplaceRun Byte σ) : Prop where
  reads : ∃ value ∈ run.expected, read run.files.read = view value
  powerCut : ∀ chosen ∈ run.files.held, ∀ junk,
    ∃ value ∈ run.expected, read (run.files.powerCut chosen junk).read = view value
  saves : ∀ device : Device, Shows run.files device.disk temp target → ∀ value, ∃ label next,
    run.step image label = some next ∧ Shows next.files (save device value).1.disk temp target ∧
      if (save device value).2 then label = .replace value
      else ∃ done amount, label = .cutShort value done amount

theorem survives (different : temp ≠ target) (reads : ∀ value, read (value.map image) = view value)
    (saves : ∀ device value, save device value = device.replace temp target (image value))
    (steps : List (ReplaceStep Byte σ)) :
    Always (ReplaceRun.step image) (Survives image read view temp target save) {} steps := by
  refine always_of_guarded (ReplaceRun.Sound image) (fun sound _ enabled => sound.step image enabled)
    (fun {run} sound => ?_) (ReplaceRun.sound_initial image) (guarded_true _ _)
  obtain ⟨⟨value, expected, found⟩, cut⟩ := sound.readable
  refine ⟨⟨value, expected, found ▸ reads value⟩, fun chosen held junk => ?_, fun device shown value => ?_⟩
  · obtain ⟨value, expected, found⟩ := cut chosen held junk
    exact ⟨value, expected, found ▸ reads value⟩
  · rw [saves]
    rcases replace_shows sound different shown (image value) with ⟨ok, after⟩ | ⟨ok, done, amount, after⟩
    · exact ⟨.replace value, _, rfl, after, by rw [ok]; exact rfl⟩
    · exact ⟨.cutShort value done amount, _, rfl, after, by rw [ok]; exact ⟨done, amount, rfl⟩⟩

end Survival

theorem StableState.length_body (state : StableState) : state.body.length = kFileSize - 4 := by
  unfold StableState.body WireWriter.u64
  rw [List.length_append, List.length_append, length_putU32, length_putU32, length_littleEndian]
  rfl

/-- **The vote file is read back.** -/
theorem StableState.load_file (state : StableState) : StableState.load (some state.file) = state := by
  have length : state.file.length = kFileSize := by
    unfold StableState.file
    rw [List.length_append, state.length_body, length_putU32]
    rfl
  have body : state.file.take (kFileSize - 4) = state.body := List.take_left' state.length_body
  have stored : getU32 (state.file.drop (kFileSize - 4)) = crc32 state.body := by
    unfold StableState.file
    rw [List.drop_left' state.length_body, ← List.append_nil (putU32 _)]
    exact getU32_putU32 _ _
  have termLength : (WireWriter.u64 state.currentTerm).length = 8 := length_littleEndian _ _
  have fields : state.file = putU32 kMagic ++ (WireWriter.u64 state.currentTerm ++
      (putU32 state.votedFor ++ putU32 (crc32 state.body))) := by
    unfold StableState.file
    rw [StableState.body]
    simp only [List.append_assoc]
  have magic : getU32 state.file = kMagic := by
    rw [fields]
    exact getU32_putU32 _ _
  have term : (state.file.drop 4).take 8 = WireWriter.u64 state.currentTerm := by
    rw [fields, List.drop_left' (length_putU32 _)]
    exact List.take_left' termLength
  have votedFor : getU32 (state.file.drop 12) = state.votedFor := by
    rw [fields, show 12 = 4 + 8 from rfl, ← List.drop_drop, List.drop_left' (length_putU32 _),
      List.drop_left' termLength]
    exact getU32_putU32 _ _
  have small : state.currentTerm.toNat < 256 ^ 8 := Nat.lt_of_lt_of_eq state.currentTerm.toNat_lt (by decide)
  have read : UInt64.ofNat (ofLittleEndian (WireWriter.u64 state.currentTerm)) = state.currentTerm := by
    unfold WireWriter.u64
    rw [ofLittleEndian_littleEndian small, UInt64.ofNat_toNat]
  unfold StableState.load
  have whole : state.file.take kFileSize = state.file := List.take_of_length_le (Nat.le_of_eq length)
  simp only [whole, length, magic, body, stored, term, votedFor, read, ne_eq, not_true_eq_false, or_self,
    if_false]

/-- **A vote is never lost, and never found in parts.** Whatever saves are completed, fail or die half-way,
and whatever power cuts come in between, the file holds what was last saved to the end, or what has been
attempted since. -/
theorem votes_survive (steps : List (ReplaceStep Byte StableState)) :
    Always (ReplaceRun.step StableState.file)
      (Survives StableState.file StableState.load (·.getD {}) .stateTemp .state StableState.save) {}
      steps := by
  refine survives (by decide) (fun value => ?_) StableState.save_eq steps
  cases value with
  | none => rfl
  | some state => exact state.load_file

/-- The points of a history at which a snapshot can be taken. -/
abbrev SnapshotPoint (instrument : InstrumentId) (history : List LogEntry) :=
  { count : Nat // Readable instrument history count }

/-- **A snapshot is never lost, and never found in parts.** The same for the snapshots of a history: what is
read back always verifies. -/
theorem snapshots_survive (instrument : InstrumentId) {history : List LogEntry} (storable : Storable history)
    (steps : List (ReplaceStep Byte (SnapshotPoint instrument history))) :
    Always (ReplaceRun.step fun point => snapshotFile (snapshotAt instrument history point.1))
      (Survives (fun point => snapshotFile (snapshotAt instrument history point.1)) readSnapshotFile
        (fun point => .ok (point.map fun point => snapshotAt instrument history point.1))
        .snapshotTemp .snapshot
        fun device point => writeSnapshotFile device (snapshotAt instrument history point.1)) {} steps := by
  refine survives (by decide) (fun value => ?_) (fun device point => ?_) steps
  · cases value with
    | none => rfl
    | some point => exact readSnapshotFile_snapshotAt storable point.2
  · generalize snapshotAt instrument history point.1 = snap
    exact writeSnapshotFile_eq device snap

/-- A history of one cancel. -/
def savedCancel : List LogEntry := [{ seq := 1, term := 1, command := .cancelOrder { id := 7 } }]

/-- Its snapshot is saved, the next attempt dies with half of its bytes written, and the power fails. -/
def savedTwice : List (ReplaceStep Byte (SnapshotPoint 1 savedCancel)) :=
  let point : SnapshotPoint 1 savedCancel := ⟨1, by decide, orders_le_of_length_le (by decide) 1⟩
  [.replace point, .cutShort point 1 40, .powerCut { file := some 0 } fun _ => []]

theorem snapshots_survive_savedTwice :
    Always (ReplaceRun.step fun point => snapshotFile (snapshotAt 1 savedCancel point.1))
      (Survives (fun point => snapshotFile (snapshotAt 1 savedCancel point.1)) readSnapshotFile
        (fun point => .ok (point.map fun point => snapshotAt 1 savedCancel point.1))
        .snapshotTemp .snapshot
        fun device point => writeSnapshotFile device (snapshotAt 1 savedCancel point.1)) {} savedTwice := by
  have numbered : Numbered savedCancel := fun i inside => by
    obtain rfl : i = 0 := Nat.lt_one_iff.mp inside
    rfl
  exact snapshots_survive 1 ⟨numbered, by decide, by decide⟩ savedTwice

end Sententia
