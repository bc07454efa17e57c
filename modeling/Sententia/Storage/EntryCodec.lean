/-
**The codec of a log entry, on disk and on the wire.** `durable_state.cpp` writes an entry with code of its
own; `message.cpp` writes the record of an `AppendEntries`. Both write the same bytes, and each decoder
accepts what the other does.
-/

import Sententia.Net.MessageCodec
import Sententia.Replication.Replicator
import Sententia.Storage.Recovery

namespace Sententia

open Library WireReader Reader

/-- **Whatever is read as an entry is its encoding.** -/
theorem takes_logEntry : Takes readLogEntry fun entry bytes =>
    bytes = encodeLogEntry entry ∧ entry.record.Fits := by
  refine takes_u64.bind ?_
  rintro seq _ rfl
  refine takes_u64.bind ?_
  rintro term _ rfl
  -- The tag and what is behind it are a command.
  have command : Takes (do let tag ← u8; readEntryCommand tag) fun command bytes =>
      bytes = encodeCommand command := takes_decodeCommand
  intro input entry rest read
  obtain ⟨⟨tag, middle⟩, tagged, read'⟩ := Option.bind_eq_some_iff.mp read
  obtain ⟨⟨value, rest'⟩, branch, last⟩ := Option.bind_eq_some_iff.mp read'
  obtain ⟨rfl, rfl⟩ := Prod.mk.inj (Option.some.inj last)
  obtain ⟨bytes, split, rfl⟩ := command input value rest'
    (Option.bind_eq_some_iff.mpr ⟨(tag, middle), tagged, branch⟩)
  refine ⟨_, split, ?_, seq.toNat_lt, term.toNat_lt⟩
  simp only [encodeLogEntry, encodeEntryCommand_eq, UInt64.ofNat_toNat, List.append_assoc]

/-- The wire writes a record as the disk writes the entry. -/
theorem encodeLogRecord_record (entry : LogEntry) : encodeLogRecord entry.record = encodeLogEntry entry := by
  simp only [encodeLogRecord, WireWriter.counter, LogEntry.record, encodeLogEntry, encodeEntryCommand_eq,
    List.append_assoc]

/-- The wire reads a record where the disk reads an entry, and nowhere else. -/
theorem readLogRecord_eq (input : Buffer) :
    readLogRecord input = (readLogEntry input).map fun (entry, rest) => (entry.record, rest) := by
  unfold readLogRecord readLogEntry WireReader.counter decodeCommand
  simp only [Reader.bind_apply, Reader.pure_apply, Option.bind_assoc, Option.bind_some, Option.map_bind,
    Function.comp_def, Option.map_some, readEntryCommand_eq]
  rfl

/-- The entries of an `AppendEntries` lie behind the fields of the message as they lie on disk. -/
theorem encodeBody_appendEntries {msg : AppendEntries} {entries : List LogEntry}
    (carried : msg.entries = entries.map LogEntry.record) :
    ∃ fields, fields.length = 40 ∧
      encodeBody (.appendEntries msg) = fields ++ entries.flatMap encodeLogEntry := by
  refine ⟨WireWriter.counter msg.term ++ (WireWriter.u32 msg.leaderId ++ (WireWriter.counter msg.prevSeq ++
    (WireWriter.counter msg.prevTerm ++ (WireWriter.counter msg.commitSeq ++
      WireWriter.u32 (UInt32.ofNat msg.entries.length))))), ?_, ?_⟩
  · simp [WireWriter.counter, WireWriter.u64, WireWriter.u32]
  · have same : msg.entries.flatMap encodeLogRecord = entries.flatMap encodeLogEntry := by
      rw [carried, List.flatMap_map]
      exact List.flatMap_congr fun entry _ => encodeLogRecord_record entry
    simp only [encodeBody, same, List.append_assoc]

/-- **The entry codec is a bijection onto what it accepts, and the codec of the wire.** An entry decodes from
its encoding, and whatever bytes decode are the encoding of the entry they give. An `AppendEntries` carries
its entries in these bytes; the reader of its records accepts what the reader of entries accepts, and behind
every tag both accept the same commands. -/
theorem entryCodec_exact (entry : LogEntry) (fits : entry.record.Fits) (bytes : Buffer) :
    (decodeLogEntry (encodeLogEntry entry) = some entry ∧
        ∀ decoded, decodeLogEntry bytes = some decoded → encodeLogEntry decoded = bytes) ∧
      (encodeLogRecord entry.record = encodeLogEntry entry ∧
        ∀ (msg : AppendEntries) (entries : List LogEntry), msg.entries = entries.map LogEntry.record →
          ∃ fields, fields.length = 40 ∧
            encodeBody (.appendEntries msg) = fields ++ entries.flatMap encodeLogEntry) ∧
      readLogRecord bytes = (readLogEntry bytes).map (fun (read, rest) => (read.record, rest)) ∧
        ∀ tag, readEntryCommand tag bytes = readCommand tag bytes := by
  refine ⟨⟨decodeLogEntry_encodeLogEntry fits.1 fits.2, fun decoded isDecoded => ?_⟩,
    ⟨encodeLogRecord_record entry, fun _ _ => encodeBody_appendEntries⟩, readLogRecord_eq bytes,
    fun tag => by rw [readEntryCommand_eq]⟩
  exact (spec_of_decode takes_logEntry isDecoded).1.symm

/-- An entry that cancels, and a tag that is no command. -/
theorem entryCodec_exact_cancel :
    let entry : LogEntry := { seq := 4, term := 2, command := .cancelOrder { id := 7 } }
    entry.record.Fits ∧
      ((decodeLogEntry (encodeLogEntry entry) = some entry ∧
          ∀ decoded, decodeLogEntry [9] = some decoded → encodeLogEntry decoded = [9]) ∧
        (encodeLogRecord entry.record = encodeLogEntry entry ∧
          ∀ (msg : AppendEntries) (entries : List LogEntry), msg.entries = entries.map LogEntry.record →
            ∃ fields, fields.length = 40 ∧
              encodeBody (.appendEntries msg) = fields ++ entries.flatMap encodeLogEntry) ∧
        readLogRecord [9] = (readLogEntry [9]).map (fun (read, rest) => (read.record, rest)) ∧
          ∀ tag, readEntryCommand tag [9] = readCommand tag [9]) := by
  have fits : LogRecord.Fits { seq := 4, term := 2, command := .cancelOrder { id := 7 } } :=
    ⟨by decide, by decide⟩
  exact ⟨fits, entryCodec_exact { seq := 4, term := 2, command := .cancelOrder { id := 7 } } fits [9]⟩

end Sententia
