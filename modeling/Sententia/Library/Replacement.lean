/-
**A file that is only ever replaced.** A writer puts the new contents into a temporary file, flushes it,
renames it over the old one and flushes the directory. The machine may lose power at any moment. What was
flushed is then on the platter; a file that was not flushed may hold anything, and the directory may be any
of those it has been since it was last flushed.

* `Replaced` — the two names, the inodes behind them, and what the platter may have of either.
* `Whole` — the invariant: every directory that may be found names a flushed file with acceptable contents,
  which the next replacement will not write into.
* `ReplaceRun.Sound` — along every run of replacements, cut short anywhere, and of power cuts, a reader
  finds what was last replaced to the end, or what has been attempted since, and never a part of it.
-/

import Sententia.Library.Transition

namespace Sententia.Library

variable {β σ : Type*}

structure Inode (β : Type*) where
  contents : List β := []
  /-- The platter has the contents. -/
  flushed : Bool := true

/-- The temporary name and the name that is read. -/
structure Directory where
  temp : Option Nat := none
  file : Option Nat := none
deriving Repr, DecidableEq

structure Replaced (β : Type*) where
  inode : Nat → Inode β := fun _ => {}
  /-- The next inode to be allocated. -/
  next : Nat := 0
  directory : Directory := {}
  /-- What a power cut may leave of the directory. -/
  held : List Directory := [{}]

inductive ReplaceCall (β : Type*)
  /-- The temporary file is opened, and emptied if it is there. -/
  | create
  | write (bytes : List β)
  | flush
  | rename
  | flushDirectory

namespace Replaced

/-- A change of the directory, which reaches the platter later. -/
def enter (files : Replaced β) (directory : Directory) : Replaced β :=
  { files with directory, held := files.held ++ [directory] }

/-- A change of the temporary file. -/
def setTemp (files : Replaced β) (change : Inode β → Inode β) : Replaced β :=
  match files.directory.temp with
  | none => files
  | some place => { files with inode := Function.update files.inode place (change (files.inode place)) }

def perform (files : Replaced β) : ReplaceCall β → Replaced β
  | .create =>
    match files.directory.temp with
    | some _ => files.setTemp fun _ => { flushed := false }
    | none =>
      { files with
        inode := Function.update files.inode files.next { flushed := false }
        next := files.next + 1 }.enter { files.directory with temp := some files.next }
  | .write bytes => files.setTemp fun inode => { contents := inode.contents ++ bytes, flushed := false }
  | .flush => files.setTemp fun inode => { inode with flushed := true }
  | .rename => files.enter { temp := none, file := files.directory.temp }
  | .flushDirectory => { files with held := [files.directory] }

@[simp] theorem directory_setTemp (files : Replaced β) (change : Inode β → Inode β) :
    (files.setTemp change).directory = files.directory := by
  unfold setTemp
  split <;> rfl

def performAll (files : Replaced β) (calls : List (ReplaceCall β)) : Replaced β := calls.foldl perform files

/-- What a reader finds. -/
def read (files : Replaced β) : Option (List β) :=
  files.directory.file.map fun place => (files.inode place).contents

/-- The power fails: `chosen` is what is left of the directory, `junk` what is found in place of what was
not flushed. -/
def powerCut (files : Replaced β) (chosen : Directory) (junk : Nat → List β) : Replaced β :=
  { files with
    directory := chosen
    held := [chosen]
    inode := fun place =>
      if (files.inode place).flushed then files.inode place else { contents := junk place } }

end Replaced

/-- The calls of one replacement. -/
def replacement (bytes : List β) : List (ReplaceCall β) :=
  [.create, .write bytes, .flush, .rename, .flushDirectory]

/-- A replacement that stops: so many calls are done, and so much of the next one if it is the write. -/
def cutShort (bytes : List β) (done amount : Nat) : List (ReplaceCall β) :=
  (replacement bytes).take done ++ if done = 1 then [.write (bytes.take amount)] else []

/-! ### The invariant -/

/-- Whichever directory is found, a reader finds contents that are `okay`, and they are on the platter. -/
structure Whole (okay : Option (List β) → Prop) (files : Replaced β) : Prop where
  current : files.directory ∈ files.held
  missing : ∀ directory ∈ files.held, directory.file = none → okay none
  flushed : ∀ directory ∈ files.held, ∀ place, directory.file = some place →
    (files.inode place).flushed = true ∧ okay (some (files.inode place).contents)
  allocated : ∀ directory ∈ files.held, ∀ place,
    directory.file = some place ∨ directory.temp = some place → place < files.next
  /-- What the next replacement writes into is behind no name that is read. -/
  apart : ∀ directory ∈ files.held, ∀ place, directory.file = some place →
    directory.temp ≠ some place ∧ files.directory.temp ≠ some place

namespace Whole

variable {okay : Option (List β) → Prop} {files : Replaced β}

theorem initial (okayNone : okay none) : Whole okay ({} : Replaced β) := by
  refine ⟨List.mem_cons_self, fun _ _ _ => okayNone, ?_, ?_, ?_⟩ <;>
    · intro directory member place named
      obtain rfl := List.mem_singleton.mp member
      simp at named

theorem mono {okay' : Option (List β) → Prop} (whole : Whole okay files)
    (weaker : ∀ contents, okay contents → okay' contents) : Whole okay' files :=
  { whole with
    missing := fun directory member unnamed => weaker _ (whole.missing directory member unnamed)
    flushed := fun directory member place named =>
      And.imp_right (weaker _) (whole.flushed directory member place named) }

/-- What is read is acceptable. -/
theorem read (whole : Whole okay files) : okay files.read := by
  unfold Replaced.read
  cases named : files.directory.file with
  | none => exact whole.missing _ whole.current named
  | some place => exact (whole.flushed _ whole.current place named).2

/-- **A power cut** leaves a whole file. -/
theorem powerCut (whole : Whole okay files) {chosen : Directory} (held : chosen ∈ files.held)
    (junk : Nat → List β) : Whole okay (files.powerCut chosen junk) := by
  have isChosen : ∀ {directory : Directory}, directory ∈ [chosen] → directory = chosen :=
    fun member => List.mem_singleton.mp member
  refine ⟨List.mem_cons_self, fun directory member unnamed => ?_, fun directory member place named => ?_,
    fun directory member => ?_, fun directory member place named => ?_⟩ <;>
    obtain rfl := isChosen member
  · exact whole.missing _ held unnamed
  · have kept := whole.flushed _ held place named
    simp only [Replaced.powerCut, kept.1, if_true]
    exact ⟨trivial, kept.2⟩
  · exact whole.allocated _ held
  · exact ⟨(whole.apart _ held place named).1, (whole.apart _ held place named).1⟩

/-- The temporary file can be changed at will. -/
theorem setTemp (whole : Whole okay files) (change : Inode β → Inode β) :
    Whole okay (files.setTemp change) := by
  unfold Replaced.setTemp
  cases temp : files.directory.temp with
  | none => exact whole
  | some place =>
    refine { whole with flushed := fun directory member other named => ?_ }
    have different : other ≠ place := by
      rintro rfl
      exact (whole.apart directory member other named).2 temp
    simp only [Function.update_of_ne different]
    exact whole.flushed directory member other named

theorem write (whole : Whole okay files) (bytes : List β) : Whole okay (files.perform (.write bytes)) :=
  whole.setTemp fun inode => { contents := inode.contents ++ bytes, flushed := false }

theorem flush (whole : Whole okay files) : Whole okay (files.perform .flush) :=
  whole.setTemp fun inode => { inode with flushed := true }

theorem create (whole : Whole okay files) : Whole okay (files.perform .create) := by
  unfold Replaced.perform
  cases temp : files.directory.temp with
  | some place => exact whole.setTemp _
  | none =>
    have older : ∀ directory ∈ files.held, ∀ place, directory.file = some place → place ≠ files.next :=
      fun directory member place named => Nat.ne_of_lt (whole.allocated directory member place (Or.inl named))
    have kept : ∀ place, place ≠ files.next →
        Function.update files.inode files.next { flushed := false } place = files.inode place :=
      fun place different => Function.update_of_ne different _ _
    refine
      { current := List.mem_append_right _ List.mem_cons_self
        missing := fun directory member unnamed => ?_
        flushed := fun directory member place named => ?_
        allocated := fun directory member place named => ?_
        apart := fun directory member place named => ?_ } <;>
      rcases List.mem_append.mp member with held | entered
    · exact whole.missing directory held unnamed
    · obtain rfl := List.mem_singleton.mp entered
      exact whole.missing _ whole.current unnamed
    · simp only [Replaced.enter, kept place (older directory held place named)]
      exact whole.flushed directory held place named
    · obtain rfl := List.mem_singleton.mp entered
      simp only [Replaced.enter, kept place (older _ whole.current place named)]
      exact whole.flushed _ whole.current place named
    · exact Nat.lt_succ_of_lt (whole.allocated directory held place named)
    · obtain rfl := List.mem_singleton.mp entered
      rcases named with named | new
      · exact Nat.lt_succ_of_lt (whole.allocated _ whole.current place (Or.inl named))
      · obtain rfl := Option.some.inj new
        exact Nat.lt_succ_self _
    · exact ⟨(whole.apart directory held place named).1,
        fun same => older directory held place named (Option.some.inj same).symm⟩
    · obtain rfl := List.mem_singleton.mp entered
      exact ⟨fun same => older _ whole.current place named (Option.some.inj same).symm,
        fun same => older _ whole.current place named (Option.some.inj same).symm⟩

/-- **Renaming** a flushed file with acceptable contents. -/
theorem rename (whole : Whole okay files) {place : Nat} (temp : files.directory.temp = some place)
    (flushed : (files.inode place).flushed = true) (contents : okay (some (files.inode place).contents)) :
    Whole okay (files.perform .rename) := by
  refine
    { current := List.mem_append_right _ List.mem_cons_self
      missing := fun directory member unnamed => ?_
      flushed := fun directory member other named => ?_
      allocated := fun directory member other named => ?_
      apart := fun directory member other named => ⟨?_, nofun⟩ } <;>
    rcases List.mem_append.mp member with held | entered
  · exact whole.missing directory held unnamed
  · obtain rfl := List.mem_singleton.mp entered
    rw [temp] at unnamed
    cases unnamed
  · exact whole.flushed directory held other named
  · obtain rfl := List.mem_singleton.mp entered
    obtain rfl := Option.some.inj (temp.symm.trans named)
    exact ⟨flushed, contents⟩
  · exact whole.allocated directory held other named
  · obtain rfl := List.mem_singleton.mp entered
    rcases named with named | unnamed
    · exact whole.allocated _ whole.current other (Or.inr named)
    · cases unnamed
  · exact (whole.apart directory held other named).1
  · obtain rfl := List.mem_singleton.mp entered
    exact nofun

/-- Flushing the directory leaves one that may be found. -/
theorem flushDirectory (whole : Whole okay files) : Whole okay (files.perform .flushDirectory) := by
  have isCurrent : ∀ {directory : Directory}, directory ∈ [files.directory] → directory ∈ files.held := by
    intro directory member
    obtain rfl := List.mem_singleton.mp member
    exact whole.current
  exact
    { current := List.mem_cons_self
      missing := fun directory member => whole.missing directory (isCurrent member)
      flushed := fun directory member => whole.flushed directory (isCurrent member)
      allocated := fun directory member => whole.allocated directory (isCurrent member)
      apart := fun directory member => whole.apart directory (isCurrent member) }

end Whole

/-! ### One replacement -/

namespace Replaced

variable {files : Replaced β}

/-- The temporary file is open and has these contents. -/
def Temp (files : Replaced β) (inode : Inode β) : Prop :=
  ∃ place, files.directory.temp = some place ∧ files.inode place = inode

theorem temp_create (files : Replaced β) : (files.perform .create).Temp { flushed := false } := by
  unfold perform
  cases temp : files.directory.temp with
  | some place =>
    unfold setTemp
    simp only [temp]
    exact ⟨place, temp, Function.update_self _ _ _⟩
  | none => exact ⟨files.next, rfl, Function.update_self _ _ _⟩

theorem Temp.setTemp {inode : Inode β} (temp : files.Temp inode) (change : Inode β → Inode β) :
    (files.setTemp change).Temp (change inode) := by
  obtain ⟨place, named, rfl⟩ := temp
  unfold Replaced.setTemp
  simp only [named]
  exact ⟨place, named, Function.update_self _ _ _⟩

end Replaced

variable {okay : Option (List β) → Prop} {files : Replaced β}

/-- The first three calls: the old file is untouched, and the new one is ready. -/
theorem Whole.prepared (whole : Whole okay files) (bytes : List β) :
    Whole okay (((files.perform .create).perform (.write bytes)).perform .flush) ∧
      (((files.perform .create).perform (.write bytes)).perform .flush).Temp { contents := bytes } := by
  refine ⟨(whole.create.write bytes).flush, ?_⟩
  have written := (files.temp_create.setTemp fun inode =>
    { contents := inode.contents ++ bytes, flushed := false }).setTemp fun inode =>
      { inode with flushed := true }
  rw [List.nil_append] at written
  exact written

/-- The rename puts it in place. -/
theorem Whole.renamed (whole : Whole okay files) {bytes : List β} (new : okay (some bytes)) :
    Whole okay ((((files.perform .create).perform (.write bytes)).perform .flush).perform .rename) := by
  obtain ⟨ready, place, temp, inode⟩ := whole.prepared bytes
  exact ready.rename temp (congrArg Inode.flushed inode)
    ((congrArg (fun inode => okay (some inode.contents)) inode).mpr new)

/-- **A replacement that stops anywhere** leaves a whole file, the old one or the new one. -/
theorem Whole.cutShort (whole : Whole okay files) {bytes : List β} (new : okay (some bytes))
    (done amount : Nat) : Whole okay (files.performAll (cutShort bytes done amount)) := by
  match done with
  | 0 => exact whole
  | 1 => exact whole.create.write (bytes.take amount)
  | 2 => exact whole.create.write bytes
  | 3 => exact (whole.prepared bytes).1
  | 4 => exact whole.renamed new
  | done + 5 =>
    have all : Library.cutShort bytes (done + 5) amount = Library.replacement bytes := by
      unfold Library.cutShort
      rw [List.take_of_length_le (Nat.le_add_left 5 done), if_neg (by omega), List.append_nil]
    rw [all]
    exact (whole.renamed new).flushDirectory

/-- **A replacement that is completed** leaves the new file, whatever happens then. -/
theorem Whole.replacement (whole : Whole okay files) (bytes : List β) :
    Whole (· = some bytes) (files.performAll (replacement bytes)) := by
  have either : Whole (fun contents => okay contents ∨ contents = some bytes) files :=
    whole.mono fun _ => Or.inl
  have complete := (either.renamed (Or.inr rfl)).flushDirectory
  obtain ⟨_, place, temp, inode⟩ := whole.prepared bytes
  have named : ∀ directory ∈ (files.performAll (Library.replacement bytes)).held,
      directory.file = some place := by
    intro directory member
    obtain rfl := List.mem_singleton.mp member
    exact temp
  refine { complete with
    missing := fun directory member unnamed => ?_
    flushed := fun directory member other same => ?_ }
  · rw [named directory member] at unnamed
    cases unnamed
  · obtain rfl := Option.some.inj ((named directory member).symm.trans same)
    exact ⟨congrArg Inode.flushed inode, congrArg (fun inode => some inode.contents) inode⟩

/-! ### Runs -/

/-- The file, and what its writer may expect of it. -/
structure ReplaceRun (β σ : Type*) where
  files : Replaced β := {}
  /-- What was last replaced to the end. -/
  promised : Option σ := none
  /-- What has been attempted since. -/
  attempted : List σ := []

inductive ReplaceStep (β σ : Type*)
  | replace (value : σ)
  /-- The writer stops, or a call fails, with so many calls done. -/
  | cutShort (value : σ) (done amount : Nat)
  | powerCut (chosen : Directory) (junk : Nat → List β)

namespace ReplaceRun

variable (image : σ → List β)

/-- What a reader may find. -/
def expected (run : ReplaceRun β σ) : List (Option σ) := run.promised :: run.attempted.map some

def step (run : ReplaceRun β σ) : ReplaceStep β σ → Option (ReplaceRun β σ)
  | .replace value =>
    some { files := run.files.performAll (replacement (image value)), promised := some value }
  | .cutShort value done amount =>
    some { run with
      files := run.files.performAll (cutShort (image value) done amount)
      attempted := run.attempted ++ [value] }
  | .powerCut chosen junk =>
    if chosen ∈ run.files.held then some { run with files := run.files.powerCut chosen junk } else none

/-- Whatever is found is the image of something expected. -/
def Sound (run : ReplaceRun β σ) : Prop :=
  Whole (fun contents => ∃ value ∈ run.expected, contents = value.map image) run.files

theorem Sound.step {run next : ReplaceRun β σ} (sound : run.Sound image) {label : ReplaceStep β σ}
    (enabled : run.step image label = some next) : next.Sound image := by
  cases label with
  | replace value =>
    cases enabled
    exact (Whole.replacement sound _).mono fun contents same => ⟨some value, List.mem_cons_self, same⟩
  | cutShort value done amount =>
    cases enabled
    refine Whole.cutShort (sound.mono fun contents => ?_) ⟨some value, ?_, rfl⟩ done amount
    · rintro ⟨found, member, same⟩
      refine ⟨found, ?_, same⟩
      rcases List.mem_cons.mp member with rfl | later
      · exact List.mem_cons_self
      · exact List.mem_cons_of_mem _ (List.map_subset _ (List.subset_append_left _ _) later)
    · exact List.mem_cons_of_mem _ (List.mem_map_of_mem (List.mem_append_right _ List.mem_cons_self))
  | powerCut chosen junk =>
    replace enabled : (if chosen ∈ run.files.held then
      some { run with files := run.files.powerCut chosen junk } else none) = some next := enabled
    split_ifs at enabled with held
    cases enabled
    exact Whole.powerCut sound held junk

theorem sound_initial : Sound image ({} : ReplaceRun β σ) :=
  Whole.initial ⟨none, List.mem_cons_self, rfl⟩

/-- **What a reader finds is whole**, now and after a power cut. -/
theorem Sound.readable {run : ReplaceRun β σ} (sound : run.Sound image) :
    (∃ value ∈ run.expected, run.files.read = value.map image) ∧
      ∀ chosen ∈ run.files.held, ∀ junk,
        ∃ value ∈ run.expected, (run.files.powerCut chosen junk).read = value.map image :=
  ⟨Whole.read sound, fun _ held junk => (Whole.powerCut sound held junk).read⟩

end ReplaceRun

end Sententia.Library
