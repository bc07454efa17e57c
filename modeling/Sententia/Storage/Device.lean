/-
**Files, and the calls that change them.** The storage layer changes its files by a handful of system
calls. A `Device` answers them: a call completes, or it fails, a write after some of its bytes. What has
been done is recorded, so that a crash is a prefix of the record with its last write cut short
(`Disk.crash`).

Reading and seeking do not fail here, and whatever a completed call has written stays. Flushing can fail
but changes no file, and is not recorded.
-/

import Mathlib.Logic.Function.Basic
import Sententia.Net.Wire

namespace Sententia

/-- The files of a node. -/
inductive FileName
  | state
  | stateTemp
  | log
  | snapshot
  | snapshotTemp
deriving Repr, DecidableEq

abbrev Disk := FileName → Option Buffer

inductive DiskOp
  /-- Opened for writing; created when missing. -/
  | openOrCreate (file : FileName)
  /-- Opened for writing and emptied. -/
  | create (file : FileName)
  /-- Written at the end. -/
  | write (file : FileName) (bytes : Buffer)
  | truncate (file : FileName) (size : Nat)
  /-- Atomic. -/
  | rename (source target : FileName)
deriving Repr, DecidableEq

namespace DiskOp

def perform (disk : Disk) : DiskOp → Disk
  | .openOrCreate file => Function.update disk file (some ((disk file).getD []))
  | .create file => Function.update disk file (some [])
  | .write file bytes => Function.update disk file (some ((disk file).getD [] ++ bytes))
  | .truncate file size => Function.update disk file ((disk file).map (·.take size))
  | .rename source target => Function.update (Function.update disk target (disk source)) source none

/-- How much there is to do; everything but a write is done at once. -/
def size : DiskOp → Nat
  | .write _ bytes => bytes.length
  | _ => 1

/-- A call that does not complete; a write may have got so far. -/
def performUpTo (disk : Disk) (amount : Nat) : DiskOp → Disk
  | .write file bytes => perform disk (.write file (bytes.take amount))
  | _ => disk

end DiskOp

namespace Disk

def performAll (disk : Disk) (ops : List DiskOp) : Disk := ops.foldl DiskOp.perform disk

/-- The files after a crash: some calls are done, and so much of the next one, if it is a write. -/
def crash (disk : Disk) (ops : List DiskOp) (done amount : Nat) : Disk :=
  match ops[done]? with
  | none => disk.performAll ops
  | some op => op.performUpTo (disk.performAll (ops.take done)) amount

end Disk

/-- The files, and what becomes of the calls. -/
structure Device where
  disk : Disk := fun _ => none
  /-- How much of a call is done when it fails; `none` when it completes. -/
  answers : Nat → Option Nat := fun _ => none
  calls : Nat := 0
  /-- The calls that completed. -/
  done : List DiskOp := []

namespace Device

/-- The device once the call is done. -/
def after (device : Device) (op : DiskOp) : Device :=
  { device with
    disk := op.perform device.disk
    calls := device.calls + 1
    done := device.done ++ [op] }

/-- One system call, or the loop that repeats it until everything is written. -/
def call (device : Device) (op : DiskOp) : Device × Bool :=
  match device.answers device.calls with
  | some amount =>
    if amount < op.size then
      ({ device with
          disk := op.performUpTo device.disk amount
          calls := device.calls + 1 }, false)
    else (device.after op, true)
  | none => (device.after op, true)

/-- `fsync`. -/
def flush (device : Device) : Device × Bool :=
  ({ device with calls := device.calls + 1 }, (device.answers device.calls).isNone)

end Device

end Sententia
