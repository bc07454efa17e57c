/-
**The snapshot codec accepts nothing but encodings.** What `decodeSnapshot` accepts is, field by field, what
`encodeSnapshot` writes: the checks between the fields (magic, version, flags, sides, the count of orders)
leave each field one encoding. Together with `decodeSnapshot_encodeSnapshot` the two are inverse to each
other.
-/

import Sententia.Storage.Snapshot

namespace Sententia

open Library WireReader Reader

theorem takes_order : Takes readOrder fun order bytes =>
    bytes = encodeOrder order ∧ order.arrival < 2 ^ 64 := by
  refine takes_u64.bind ?_
  rintro id _ rfl
  refine takes_u8.bind ?_
  rintro side _ rfl
  refine takes_i64.bind ?_
  rintro price _ rfl
  refine takes_u64.bind ?_
  rintro quantity _ rfl
  refine takes_u64.bind ?_
  rintro arrival _ rfl
  refine Takes.check fun passes => Takes.pure ⟨?_, arrival.toNat_lt⟩
  simp only [encodeOrder, Side.toByte_ofByte (of_decide_eq_true passes), UInt64.ofNat_toNat,
    List.append_assoc, List.append_nil]

/-- **Whatever is read as a snapshot is its encoding.** -/
theorem takes_snapshot : Takes readSnapshot fun snap bytes => bytes = encodeSnapshot snap ∧ snap.Fits := by
  -- The preamble, and where the snapshot sits in the log.
  refine takes_u32.bind ?_
  rintro magic _ rfl
  refine takes_u16.bind ?_
  rintro version _ rfl
  refine Takes.check fun preamble => ?_
  obtain ⟨rfl, rfl⟩ := of_decide_eq_true preamble
  refine takes_u64.bind ?_
  rintro lastIncludedSeq _ rfl
  refine takes_u64.bind ?_
  rintro lastIncludedTerm _ rfl
  refine takes_u64.bind ?_
  rintro stateChecksum _ rfl
  -- The counters of the engine.
  refine takes_u32.bind ?_
  rintro instrument _ rfl
  refine takes_u64.bind ?_
  rintro commandSeq _ rfl
  refine takes_u64.bind ?_
  rintro eventSeq _ rfl
  refine takes_u64.bind ?_
  rintro arrivalCounter _ rfl
  -- The top of the book.
  refine takes_u8.bind ?_
  rintro hasBid _ rfl
  refine takes_i64.bind ?_
  rintro bidPrice _ rfl
  refine takes_u64.bind ?_
  rintro bidQuantity _ rfl
  refine takes_u8.bind ?_
  rintro hasAsk _ rfl
  refine takes_i64.bind ?_
  rintro askPrice _ rfl
  refine takes_u64.bind ?_
  rintro askQuantity _ rfl
  refine Takes.check fun flags => ?_
  obtain ⟨bidFlag, askFlag⟩ := of_decide_eq_true flags
  -- The orders behind their count.
  refine takes_u32.bind ?_
  rintro count _ rfl
  refine Takes.check fun passes => ?_
  refine (Takes.many takes_order count.toNat).bind ?_
  rintro orders _ ⟨rfl, length, arrivals⟩
  have few : orders.length ≤ kMaxOrders := length ▸ of_decide_eq_true passes
  refine Takes.pure ⟨?_, lastIncludedSeq.toNat_lt, lastIncludedTerm.toNat_lt, commandSeq.toNat_lt,
    eventSeq.toNat_lt, arrivalCounter.toNat_lt, arrivals, few⟩
  unfold encodeSnapshot
  rw [boolByte_decide bidFlag, boolByte_decide askFlag, length]
  simp only [UInt64.ofNat_toNat, UInt32.ofNat_toNat, List.append_assoc, List.append_nil]

/-- **The snapshot codec is a bijection onto what it accepts.** A snapshot with at most `kMaxOrders` orders
decodes from its encoding, and whatever bytes decode are the encoding of the snapshot they give. -/
theorem snapshotCodec_exact (snap : SnapshotRecord) (fits : snap.Fits) (bytes : Buffer) :
    decodeSnapshot (encodeSnapshot snap) = some snap ∧
      ∀ decoded, decodeSnapshot bytes = some decoded → encodeSnapshot decoded = bytes ∧ decoded.Fits := by
  refine ⟨decodeSnapshot_encodeSnapshot fits, fun decoded isDecoded => ?_⟩
  obtain ⟨same, fits'⟩ := spec_of_decode takes_snapshot isDecoded
  exact ⟨same.symm, fits'⟩

/-- A snapshot of one resting order at a negative price, and its own bytes. -/
theorem snapshotCodec_exact_one :
    let snap : SnapshotRecord :=
      { lastIncludedSeq := 3
        lastIncludedTerm := 2
        engine :=
          { instrument := 1
            commandSeq := 3
            eventSeq := 6
            arrivalCounter := 1
            lastTop := { hasAsk := true, askPrice := -7, askQuantity := 4 }
            orders := [{ id := 9, side := .sell, price := -7, quantity := 4, arrival := 1 }] } }
    snap.Fits ∧ decodeSnapshot (encodeSnapshot snap) = some snap ∧
      ∀ decoded, decodeSnapshot (encodeSnapshot snap) = some decoded →
        encodeSnapshot decoded = encodeSnapshot snap ∧ decoded.Fits := by
  intro snap
  have fits : snap.Fits := by
    refine ⟨by decide, by decide, by decide, by decide, by decide, ?_, by decide⟩
    intro order member
    rw [List.mem_singleton.mp member]
    decide
  exact ⟨fits, snapshotCodec_exact snap fits (encodeSnapshot snap)⟩

end Sententia
