/-
**The replicated command log** (`command_log.hpp`, `command_log.cpp`).

A deque of entries, the highest sequence ever appended, the snapshot boundary and the highest sequence
ever dropped from the front. `Retains log history` says what such a log stands for: the numbered
`history` of everything appended, less a compacted front.
-/

import Mathlib.Data.List.Basic
import Mathlib.Tactic.ApplyAt
import Sententia.Types

namespace Sententia

structure LogEntry where
  /-- Primary-assigned, gapless, starting at one. -/
  seq : Nat
  /-- The term of the leader that created the entry. -/
  term : Nat
  command : Command
deriving Repr, DecidableEq

structure CommandLog where
  entries : List LogEntry := []
  lastSeq : Nat := 0
  snapshotSeq : Nat := 0
  snapshotTerm : Nat := 0
  /-- Highest sequence ever truncated away from the front. -/
  truncatedThrough : Nat := 0
deriving Repr, DecidableEq

namespace CommandLog

def firstSeq (log : CommandLog) : Nat :=
  match log.entries with
  | [] => log.truncatedThrough + 1
  | first :: _ => first.seq

/-- Appends with the next sequence number. -/
def append (log : CommandLog) (cmd : Command) (term : Nat) : CommandLog × Nat :=
  let seq := log.lastSeq + 1
  ({ log with entries := log.entries ++ [{ seq, term, command := cmd }], lastSeq := seq }, seq)

/-- Appends at an explicit sequence number; refuses anything but the next one. -/
def appendAt (log : CommandLog) (seq term : Nat) (cmd : Command) : Option CommandLog :=
  if seq ≠ log.lastSeq + 1 then none
  else some { log with
    entries := log.entries ++ [{ seq, term, command := cmd }]
    lastSeq := seq }

def at? (log : CommandLog) (seq : Nat) : Option LogEntry :=
  if log.entries.isEmpty ∨ seq < log.firstSeq ∨ seq > log.lastSeq then none
  else log.entries[seq - log.firstSeq]?

/-- The term of the entry at `seq`, or of the snapshot the log continues from. -/
def termAt (log : CommandLog) (seq : Nat) : Option Nat :=
  if seq = 0 then some 0
  else if seq = log.snapshotSeq ∧ log.snapshotSeq ≠ 0 then some log.snapshotTerm
  else (log.at? seq).map (·.term)

/-- Drops entries from the back while they are at or after `seq`. -/
def popBackFrom (seq : Nat) (entries : List LogEntry) : List LogEntry :=
  (entries.reverse.dropWhile fun entry => seq ≤ entry.seq).reverse

/-- Discards everything from `seq` onward. -/
def truncateFrom (log : CommandLog) (seq : Nat) : CommandLog :=
  let entries := popBackFrom seq log.entries
  { log with
    entries
    lastSeq := match entries.getLast? with
      | none => if log.snapshotSeq > log.truncatedThrough then log.snapshotSeq
        else log.truncatedThrough
      | some last => last.seq }

def setSnapshotBoundary (log : CommandLog) (seq term : Nat) : CommandLog :=
  { log with
    snapshotSeq := seq
    snapshotTerm := term
    lastSeq := if log.lastSeq < seq then seq else log.lastSeq
    truncatedThrough := if log.truncatedThrough < seq then seq else log.truncatedThrough }

/-- The entries `[from, from + maxCount)`, clamped to what exists. -/
def range (log : CommandLog) (fromSeq maxCount : Nat) : List LogEntry :=
  if log.entries.isEmpty ∨ fromSeq > log.lastSeq ∨ maxCount = 0 then []
  else if fromSeq < log.firstSeq then []
  else (log.entries.drop (fromSeq - log.firstSeq)).take maxCount

/-- Whether the log can still serve a catch-up starting at `from`. -/
def canServeFrom (log : CommandLog) (fromSeq : Nat) : Bool :=
  fromSeq = log.lastSeq + 1 ∨ (fromSeq ≥ log.firstSeq ∧ fromSeq ≤ log.lastSeq)

/-- Drops entries at or below `seq` from the front. -/
def popFrontThrough (seq : Nat) : Nat → List LogEntry → Nat × List LogEntry
  | truncated, [] => (truncated, [])
  | truncated, first :: rest =>
    if first.seq ≤ seq then popFrontThrough seq first.seq rest else (truncated, first :: rest)

def truncateThrough (log : CommandLog) (seq : Nat) : CommandLog :=
  let (truncatedThrough, entries) := popFrontThrough seq log.truncatedThrough log.entries
  { log with entries, truncatedThrough }

/-- Forgets the entries, but neither the snapshot boundary nor its term. -/
def clear (log : CommandLog) : CommandLog :=
  { log with entries := [], lastSeq := 0, truncatedThrough := 0 }

end CommandLog

end Sententia
