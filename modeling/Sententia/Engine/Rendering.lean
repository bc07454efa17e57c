/-
**The text of an event** (`event.cpp`, `types.cpp`), one line an event, as lists of characters.

A line is words between blanks: two for the header, a keyword, and one for each field. No word contains a
blank, the keyword tells the shape, and each field ends in the text of one value, so the text determines
everything that is printed. What is not printed is the price and the size of a side that a
`TopOfBookChanged` says is empty; the engine leaves these zero (`plain_applyAll`). So the lines of two runs
are the same exactly if the events are (`map_toString_eq_iff`).
-/

import Mathlib.Data.List.Basic
import Sententia.Engine

namespace Sententia

/-! ### Values -/

/-- The decimal text of an unsigned number. -/
def decimal (n : Nat) : List Char := Nat.toDigits 10 n

/-- The decimal text of a price. -/
def signed (price : Price) : List Char :=
  if price.toInt < 0 then '-' :: decimal price.toInt.natAbs else decimal price.toInt.natAbs

def Side.toString : Side → List Char
  | .buy => "BUY".toList
  | .sell => "SELL".toList

def OrderType.toString : OrderType → List Char
  | .limit => "LIMIT".toList
  | .market => "MARKET".toList

def TimeInForce.toString : TimeInForce → List Char
  | .goodTillCancel => "GTC".toList
  | .immediateOrCancel => "IOC".toList

def RejectReason.toString : RejectReason → List Char
  | .none => "NONE".toList
  | .duplicateOrderId => "DUPLICATE_ORDER_ID".toList
  | .unknownOrderId => "UNKNOWN_ORDER_ID".toList
  | .zeroQuantity => "ZERO_QUANTITY".toList
  | .nonPositivePrice => "NON_POSITIVE_PRICE".toList
  | .wrongInstrument => "WRONG_INSTRUMENT".toList
  | .marketOrderMustBeIoc => "MARKET_ORDER_MUST_BE_IOC".toList

/-- Who cancelled. -/
def initiator (engineInitiated : Bool) : List Char :=
  if engineInitiated then "ENGINE".toList else "CLIENT".toList

/-- One side of the top of the book. -/
def topSide (has : Bool) (price : Price) (quantity : Quantity) : List Char :=
  if has then signed price ++ 'x' :: decimal quantity.toNat else "none".toList

/-! ### Lines -/

def writeHeader (header : EventHeader) : List Char :=
  "seq=".toList ++ decimal header.eventSeq ++ " cmd=".toList ++ decimal header.commandSeq ++ [' ']

def OrderAccepted.render (e : OrderAccepted) : List Char :=
  writeHeader e.header ++ "ACCEPTED id=".toList ++ decimal e.id.toNat ++ " side=".toList ++ e.side.toString ++
    " type=".toList ++ e.type.toString ++ " tif=".toList ++ e.tif.toString ++ " px=".toList ++ signed e.price ++
      " qty=".toList ++ decimal e.quantity.toNat

def OrderRejected.render (e : OrderRejected) : List Char :=
  writeHeader e.header ++ "REJECTED id=".toList ++ decimal e.id.toNat ++ " reason=".toList ++ e.reason.toString

def Trade.render (e : Trade) : List Char :=
  writeHeader e.header ++ "TRADE aggressor=".toList ++ decimal e.aggressorId.toNat ++ " resting=".toList ++
    decimal e.restingId.toNat ++ " side=".toList ++ e.aggressorSide.toString ++ " px=".toList ++
      signed e.price ++ " qty=".toList ++ decimal e.quantity.toNat

def OrderResting.render (e : OrderResting) : List Char :=
  writeHeader e.header ++ "RESTING id=".toList ++ decimal e.id.toNat ++ " side=".toList ++ e.side.toString ++
    " px=".toList ++ signed e.price ++ " qty=".toList ++ decimal e.quantity.toNat

def OrderCancelled.render (e : OrderCancelled) : List Char :=
  writeHeader e.header ++ "CANCELLED id=".toList ++ decimal e.id.toNat ++ " side=".toList ++ e.side.toString ++
    " px=".toList ++ signed e.price ++ " qty=".toList ++ decimal e.remaining.toNat ++ " by=".toList ++
      initiator e.engineInitiated

def CancelRejected.render (e : CancelRejected) : List Char :=
  writeHeader e.header ++ "CANCEL_REJECTED id=".toList ++ decimal e.id.toNat ++ " reason=".toList ++
    e.reason.toString

def TopOfBookChanged.render (e : TopOfBookChanged) : List Char :=
  writeHeader e.header ++ "TOB bid=".toList ++ topSide e.hasBid e.bidPrice e.bidQuantity ++ " ask=".toList ++
    topSide e.hasAsk e.askPrice e.askQuantity

def Event.toString : Event → List Char
  | .orderAccepted e => e.render
  | .orderRejected e => e.render
  | .trade e => e.render
  | .orderResting e => e.render
  | .orderCancelled e => e.render
  | .cancelRejected e => e.render
  | .topOfBookChanged e => e.render

/-! ### Words -/

/-- The words of the header, and those after it. -/
def lineWords (header : EventHeader) (rest : List (List Char)) : List (List Char) :=
  ("seq=".toList ++ decimal header.eventSeq) :: ("cmd=".toList ++ decimal header.commandSeq) :: rest

def OrderAccepted.words (e : OrderAccepted) : List (List Char) :=
  ["ACCEPTED".toList, "id=".toList ++ decimal e.id.toNat, "side=".toList ++ e.side.toString,
    "type=".toList ++ e.type.toString, "tif=".toList ++ e.tif.toString, "px=".toList ++ signed e.price,
    "qty=".toList ++ decimal e.quantity.toNat]

def OrderRejected.words (e : OrderRejected) : List (List Char) :=
  ["REJECTED".toList, "id=".toList ++ decimal e.id.toNat, "reason=".toList ++ e.reason.toString]

def Trade.words (e : Trade) : List (List Char) :=
  ["TRADE".toList, "aggressor=".toList ++ decimal e.aggressorId.toNat,
    "resting=".toList ++ decimal e.restingId.toNat, "side=".toList ++ e.aggressorSide.toString,
    "px=".toList ++ signed e.price, "qty=".toList ++ decimal e.quantity.toNat]

def OrderResting.words (e : OrderResting) : List (List Char) :=
  ["RESTING".toList, "id=".toList ++ decimal e.id.toNat, "side=".toList ++ e.side.toString,
    "px=".toList ++ signed e.price, "qty=".toList ++ decimal e.quantity.toNat]

def OrderCancelled.words (e : OrderCancelled) : List (List Char) :=
  ["CANCELLED".toList, "id=".toList ++ decimal e.id.toNat, "side=".toList ++ e.side.toString,
    "px=".toList ++ signed e.price, "qty=".toList ++ decimal e.remaining.toNat,
    "by=".toList ++ initiator e.engineInitiated]

def CancelRejected.words (e : CancelRejected) : List (List Char) :=
  ["CANCEL_REJECTED".toList, "id=".toList ++ decimal e.id.toNat, "reason=".toList ++ e.reason.toString]

def TopOfBookChanged.words (e : TopOfBookChanged) : List (List Char) :=
  ["TOB".toList, "bid=".toList ++ topSide e.hasBid e.bidPrice e.bidQuantity,
    "ask=".toList ++ topSide e.hasAsk e.askPrice e.askQuantity]

/-- The words after the header; the first of them is the keyword. -/
def Event.words : Event → List (List Char)
  | .orderAccepted e => e.words
  | .orderRejected e => e.words
  | .trade e => e.words
  | .orderResting e => e.words
  | .orderCancelled e => e.words
  | .cancelRejected e => e.words
  | .topOfBookChanged e => e.words

/-- **A line is its words**, with blanks between them. -/
theorem Event.toString_eq (event : Event) :
    event.toString = [' '].intercalate (lineWords (header event) event.words) := by
  -- In each case both sides are one list of characters and texts of values.
  cases event with
  | orderAccepted e =>
    show e.render = [' '].intercalate (lineWords e.header e.words)
    unfold OrderAccepted.render OrderAccepted.words writeHeader lineWords
    simp only [List.intercalate_cons_cons, List.intercalate_singleton, String.reduceToList, List.append_assoc,
      List.cons_append, List.nil_append]
  | orderRejected e =>
    show e.render = [' '].intercalate (lineWords e.header e.words)
    unfold OrderRejected.render OrderRejected.words writeHeader lineWords
    simp only [List.intercalate_cons_cons, List.intercalate_singleton, String.reduceToList, List.append_assoc,
      List.cons_append, List.nil_append]
  | trade e =>
    show e.render = [' '].intercalate (lineWords e.header e.words)
    unfold Trade.render Trade.words writeHeader lineWords
    simp only [List.intercalate_cons_cons, List.intercalate_singleton, String.reduceToList, List.append_assoc,
      List.cons_append, List.nil_append]
  | orderResting e =>
    show e.render = [' '].intercalate (lineWords e.header e.words)
    unfold OrderResting.render OrderResting.words writeHeader lineWords
    simp only [List.intercalate_cons_cons, List.intercalate_singleton, String.reduceToList, List.append_assoc,
      List.cons_append, List.nil_append]
  | orderCancelled e =>
    show e.render = [' '].intercalate (lineWords e.header e.words)
    unfold OrderCancelled.render OrderCancelled.words writeHeader lineWords
    simp only [List.intercalate_cons_cons, List.intercalate_singleton, String.reduceToList, List.append_assoc,
      List.cons_append, List.nil_append]
  | cancelRejected e =>
    show e.render = [' '].intercalate (lineWords e.header e.words)
    unfold CancelRejected.render CancelRejected.words writeHeader lineWords
    simp only [List.intercalate_cons_cons, List.intercalate_singleton, String.reduceToList, List.append_assoc,
      List.cons_append, List.nil_append]
  | topOfBookChanged e =>
    show e.render = [' '].intercalate (lineWords e.header e.words)
    unfold TopOfBookChanged.render TopOfBookChanged.words writeHeader lineWords
    simp only [List.intercalate_cons_cons, List.intercalate_singleton, String.reduceToList, List.append_assoc,
      List.cons_append, List.nil_append]

/-! ### Reading values back -/

@[simp] theorem decimal_inj {n m : Nat} : decimal n = decimal m ↔ n = m := by
  refine ⟨fun same => ?_, congrArg decimal⟩
  have read := congrArg (Nat.ofDigitChars 10 · 0) same
  simpa only [decimal, Nat.ofDigitChars_ten_toDigits] using read

/-- Only digits. -/
theorem notMem_decimal {c : Char} (other : c.isDigit = false) (n : Nat) : c ∉ decimal n := by
  intro member
  rw [Nat.isDigit_of_mem_toDigits (by decide) (by decide) member] at other
  cases other

@[simp] theorem signed_inj {price price' : Price} : signed price = signed price' ↔ price = price' := by
  refine ⟨fun same => ?_, congrArg signed⟩
  have noSign : ∀ n m : Nat, decimal n ≠ '-' :: decimal m := fun n m equal =>
    notMem_decimal (by decide) n (equal ▸ List.mem_cons_self)
  unfold signed at same
  rw [← Int64.toInt_inj]
  split_ifs at same with negative negative' negative'
  · have magnitude := decimal_inj.mp (List.cons.inj same).2
    omega
  · exact absurd same.symm (noSign _ _)
  · exact absurd same (noSign _ _)
  · have magnitude := decimal_inj.mp same
    omega

@[simp] theorem Side.toString_inj {side side' : Side} : side.toString = side'.toString ↔ side = side' := by
  cases side <;> cases side' <;> decide

@[simp] theorem OrderType.toString_inj {type type' : OrderType} :
    type.toString = type'.toString ↔ type = type' := by
  cases type <;> cases type' <;> decide

@[simp] theorem TimeInForce.toString_inj {tif tif' : TimeInForce} :
    tif.toString = tif'.toString ↔ tif = tif' := by
  cases tif <;> cases tif' <;> decide

@[simp] theorem RejectReason.toString_inj {reason reason' : RejectReason} :
    reason.toString = reason'.toString ↔ reason = reason' := by
  cases reason <;> cases reason' <;> decide

@[simp] theorem initiator_inj {byEngine byEngine' : Bool} :
    initiator byEngine = initiator byEngine' ↔ byEngine = byEngine' := by
  cases byEngine <;> cases byEngine' <;> decide

/-- Only a sign and digits. -/
theorem notMem_signed {c : Char} (other : c.isDigit = false) (noSign : c ≠ '-') (price : Price) :
    c ∉ signed price := by
  unfold signed
  split_ifs
  · exact List.not_mem_cons_of_ne_of_not_mem noSign (notMem_decimal other _)
  · exact notMem_decimal other _

/-- Texts without a separator can be told apart in what they are joined to. -/
theorem intercalate_inj {c : Char} {words words' : List (List Char)} (clean : ∀ word ∈ words, c ∉ word)
    (clean' : ∀ word ∈ words', c ∉ word) (notEmpty : words ≠ []) (notEmpty' : words' ≠ [])
    (same : [c].intercalate words = [c].intercalate words') : words = words' := by
  rw [← List.splitOn_intercalate c clean notEmpty, same, List.splitOn_intercalate c clean' notEmpty']

/-- Price and size, around an `x`. -/
theorem quote_inj {price price' : Price} {quantity quantity' : Quantity}
    (same : signed price ++ 'x' :: decimal quantity.toNat = signed price' ++ 'x' :: decimal quantity'.toNat) :
    price = price' ∧ quantity = quantity' := by
  have clean : ∀ (price : Price) (quantity : Quantity), ∀ word ∈ [signed price, decimal quantity.toNat],
      'x' ∉ word := by
    intro price quantity word member
    rcases List.mem_cons.mp member with rfl | later
    · exact notMem_signed (by decide) (by decide) price
    · rw [List.mem_singleton.mp later]
      exact notMem_decimal (by decide) _
  have apart := intercalate_inj (clean price quantity) (clean price' quantity') (List.cons_ne_nil _ _)
    (List.cons_ne_nil _ _) (by simpa only [List.intercalate_cons_cons, List.intercalate_singleton,
      List.append_assoc, List.cons_append, List.nil_append] using same)
  obtain ⟨prices, others⟩ := List.cons.inj apart
  exact ⟨signed_inj.mp prices, UInt64.toNat_inj.mp (decimal_inj.mp (List.cons.inj others).1)⟩

/-- The price and the size of a side that is not there are zero. -/
def Absent (has : Bool) (price : Price) (quantity : Quantity) : Prop :=
  has = false → price = 0 ∧ quantity = 0

theorem topSide_inj {has has' : Bool} {price price' : Price} {quantity quantity' : Quantity}
    (absent : Absent has price quantity) (absent' : Absent has' price' quantity')
    (same : topSide has price quantity = topSide has' price' quantity') :
    has = has' ∧ price = price' ∧ quantity = quantity' := by
  have quoted : ∀ (price : Price) (quantity : Quantity),
      signed price ++ 'x' :: decimal quantity.toNat ≠ "none".toList := by
    intro price quantity equal
    have member : 'x' ∈ "none".toList := equal ▸ List.mem_append_right _ List.mem_cons_self
    exact absurd member (by decide)
  cases has with
  | false =>
    cases has' with
    | false =>
      obtain ⟨rfl, rfl⟩ := absent rfl
      obtain ⟨rfl, rfl⟩ := absent' rfl
      exact ⟨rfl, rfl, rfl⟩
    | true => exact absurd same.symm (quoted price' quantity')
  | true =>
    cases has' with
    | false => exact absurd same (quoted price quantity)
    | true => exact ⟨rfl, quote_inj same⟩

/-! ### No blank in a word -/

@[simp] theorem blank_decimal (n : Nat) : ' ' ∉ decimal n := notMem_decimal (by decide) n

@[simp] theorem blank_signed (price : Price) : ' ' ∉ signed price := notMem_signed (by decide) (by decide) price

@[simp] theorem blank_side (side : Side) : ' ' ∉ side.toString := by
  cases side <;> decide

@[simp] theorem blank_type (type : OrderType) : ' ' ∉ type.toString := by
  cases type <;> decide

@[simp] theorem blank_tif (tif : TimeInForce) : ' ' ∉ tif.toString := by
  cases tif <;> decide

@[simp] theorem blank_reason (reason : RejectReason) : ' ' ∉ reason.toString := by
  cases reason <;> decide

@[simp] theorem blank_initiator (byEngine : Bool) : ' ' ∉ initiator byEngine := by
  cases byEngine <;> decide

@[simp] theorem blank_topSide (has : Bool) (price : Price) (quantity : Quantity) :
    ' ' ∉ topSide has price quantity := by
  unfold topSide
  split_ifs
  · simp
  · decide

theorem blank_words (event : Event) : ∀ word ∈ lineWords (header event) event.words, ' ' ∉ word := by
  unfold lineWords
  cases event with
  | orderAccepted e =>
    show ∀ word ∈ _ :: _ :: e.words, _
    unfold OrderAccepted.words
    simp
  | orderRejected e =>
    show ∀ word ∈ _ :: _ :: e.words, _
    unfold OrderRejected.words
    simp
  | trade e =>
    show ∀ word ∈ _ :: _ :: e.words, _
    unfold Trade.words
    simp
  | orderResting e =>
    show ∀ word ∈ _ :: _ :: e.words, _
    unfold OrderResting.words
    simp
  | orderCancelled e =>
    show ∀ word ∈ _ :: _ :: e.words, _
    unfold OrderCancelled.words
    simp
  | cancelRejected e =>
    show ∀ word ∈ _ :: _ :: e.words, _
    unfold CancelRejected.words
    simp
  | topOfBookChanged e =>
    show ∀ word ∈ _ :: _ :: e.words, _
    unfold TopOfBookChanged.words
    simp

/-! ### Events -/

theorem OrderAccepted.eq_of_words {e e' : OrderAccepted} (headers : e.header = e'.header)
    (same : e.words = e'.words) : e = e' := by
  cases e
  cases e'
  unfold OrderAccepted.words at same
  simp_all [UInt64.toNat_inj]

theorem OrderRejected.eq_of_words {e e' : OrderRejected} (headers : e.header = e'.header)
    (same : e.words = e'.words) : e = e' := by
  cases e
  cases e'
  unfold OrderRejected.words at same
  simp_all [UInt64.toNat_inj]

theorem Trade.eq_of_words {e e' : Trade} (headers : e.header = e'.header)
    (same : e.words = e'.words) : e = e' := by
  cases e
  cases e'
  unfold Trade.words at same
  simp_all [UInt64.toNat_inj]

theorem OrderResting.eq_of_words {e e' : OrderResting} (headers : e.header = e'.header)
    (same : e.words = e'.words) : e = e' := by
  cases e
  cases e'
  unfold OrderResting.words at same
  simp_all [UInt64.toNat_inj]

theorem OrderCancelled.eq_of_words {e e' : OrderCancelled} (headers : e.header = e'.header)
    (same : e.words = e'.words) : e = e' := by
  cases e
  cases e'
  unfold OrderCancelled.words at same
  simp_all [UInt64.toNat_inj]

theorem CancelRejected.eq_of_words {e e' : CancelRejected} (headers : e.header = e'.header)
    (same : e.words = e'.words) : e = e' := by
  cases e
  cases e'
  unfold CancelRejected.words at same
  simp_all [UInt64.toNat_inj]

/-- A `TopOfBookChanged` has zeros for what it does not print. -/
def TopOfBookChanged.Plain (e : TopOfBookChanged) : Prop :=
  Absent e.hasBid e.bidPrice e.bidQuantity ∧ Absent e.hasAsk e.askPrice e.askQuantity

theorem TopOfBookChanged.eq_of_words {e e' : TopOfBookChanged} (plain : e.Plain) (plain' : e'.Plain)
    (headers : e.header = e'.header) (same : e.words = e'.words) : e = e' := by
  cases e
  cases e'
  unfold TopOfBookChanged.words at same
  simp only [List.cons.injEq, List.append_cancel_left_eq, true_and, and_true] at same
  obtain ⟨rfl, rfl, rfl⟩ := topSide_inj plain.1 plain'.1 same.1
  obtain ⟨rfl, rfl, rfl⟩ := topSide_inj plain.2 plain'.2 same.2
  obtain rfl := headers
  rfl

/-- Nothing is left out of the text of the event. -/
def Event.Plain : Event → Prop
  | .topOfBookChanged e => e.Plain
  | _ => True

/-- The keyword tells the shape, and the other words the fields. -/
theorem Event.eq_of_words {event event' : Event} (plain : event.Plain) (plain' : event'.Plain)
    (headers : header event = header event') (same : event.words = event'.words) : event = event' := by
  have keywords := congrArg List.head? same
  cases event with
  | orderAccepted e =>
    cases event' with
    | orderAccepted e' => exact congrArg _ (OrderAccepted.eq_of_words headers same)
    | _ => exact absurd (Option.some.inj keywords) (by decide)
  | orderRejected e =>
    cases event' with
    | orderRejected e' => exact congrArg _ (OrderRejected.eq_of_words headers same)
    | _ => exact absurd (Option.some.inj keywords) (by decide)
  | trade e =>
    cases event' with
    | trade e' => exact congrArg _ (Trade.eq_of_words headers same)
    | _ => exact absurd (Option.some.inj keywords) (by decide)
  | orderResting e =>
    cases event' with
    | orderResting e' => exact congrArg _ (OrderResting.eq_of_words headers same)
    | _ => exact absurd (Option.some.inj keywords) (by decide)
  | orderCancelled e =>
    cases event' with
    | orderCancelled e' => exact congrArg _ (OrderCancelled.eq_of_words headers same)
    | _ => exact absurd (Option.some.inj keywords) (by decide)
  | cancelRejected e =>
    cases event' with
    | cancelRejected e' => exact congrArg _ (CancelRejected.eq_of_words headers same)
    | _ => exact absurd (Option.some.inj keywords) (by decide)
  | topOfBookChanged e =>
    cases event' with
    | topOfBookChanged e' => exact congrArg _ (TopOfBookChanged.eq_of_words plain plain' headers same)
    | _ => exact absurd (Option.some.inj keywords) (by decide)

/-- **The line of an event determines it**, if nothing is left out. -/
theorem Event.toString_inj {event event' : Event} (plain : event.Plain) (plain' : event'.Plain)
    (same : event.toString = event'.toString) : event = event' := by
  rw [event.toString_eq, event'.toString_eq] at same
  have words := intercalate_inj (blank_words event) (blank_words event') (List.cons_ne_nil _ _)
    (List.cons_ne_nil _ _) same
  unfold lineWords at words
  obtain ⟨seqs, rest⟩ := List.cons.inj words
  obtain ⟨cmds, rest⟩ := List.cons.inj rest
  have eventSeq := decimal_inj.mp (List.append_cancel_left seqs)
  have commandSeq := decimal_inj.mp (List.append_cancel_left cmds)
  have headers : header event = header event' := by
    cases first : header event
    cases second : header event'
    simp_all
  exact Event.eq_of_words plain plain' headers rest

theorem map_toString_inj {events events' : EventList} (plain : ∀ event ∈ events, event.Plain)
    (plain' : ∀ event ∈ events', event.Plain)
    (same : events.map Event.toString = events'.map Event.toString) : events = events' := by
  induction events generalizing events' with
  | nil => exact (List.map_eq_nil_iff.mp same.symm).symm
  | cons event rest ih =>
    cases events' with
    | nil => cases same
    | cons event' rest' =>
      obtain ⟨first, others⟩ := List.cons.inj same
      obtain ⟨here, later⟩ := List.forall_mem_cons.mp plain
      obtain ⟨here', later'⟩ := List.forall_mem_cons.mp plain'
      rw [Event.toString_inj here here' first, ih later later' others]

/-! ### What the engine emits -/

theorem absent_top (book : OrderBook) :
    Absent book.top.hasBid book.top.bidPrice book.top.bidQuantity ∧
      Absent book.top.hasAsk book.top.askPrice book.top.askQuantity := by
  unfold OrderBook.top
  cases book.bids.entries <;> cases book.asks.entries <;> simp [Absent]

namespace MatchingEngine

theorem plain_matchLoop (fuel : Nat) (engine : MatchingEngine) (cmd : NewOrder) (quantity : Quantity) :
    ∀ event ∈ (matchLoop fuel engine cmd quantity).2.2, event.Plain := by
  induction fuel generalizing engine quantity with
  | zero => exact fun _ member => absurd member List.not_mem_nil
  | succ fuel ih =>
    unfold matchLoop
    split_ifs
    · exact fun _ member => absurd member List.not_mem_nil
    · split
      · exact fun _ member => absurd member List.not_mem_nil
      · exact fun _ member => absurd member List.not_mem_nil
      · split_ifs
        · exact List.forall_mem_cons.mpr ⟨trivial, ih _ _⟩
        · exact fun _ member => absurd member List.not_mem_nil

theorem plain_settleResidual (engine : MatchingEngine) (cmd : NewOrder) (residual : Quantity) :
    ∀ event ∈ (engine.settleResidual cmd residual).2, event.Plain := by
  unfold settleResidual
  split_ifs
  · exact fun _ member => absurd member List.not_mem_nil
  · exact List.forall_mem_singleton.mpr trivial
  · exact List.forall_mem_singleton.mpr trivial

theorem plain_emitTopOfBookIfChanged (engine : MatchingEngine) :
    ∀ event ∈ engine.emitTopOfBookIfChanged.2, event.Plain := by
  unfold emitTopOfBookIfChanged
  dsimp only
  split_ifs
  · exact fun _ member => absurd member List.not_mem_nil
  · exact List.forall_mem_singleton.mpr (absent_top engine.book)

theorem plain_applyNewOrder (engine : MatchingEngine) (cmd : NewOrder) :
    ∀ event ∈ (engine.applyNewOrder cmd).2, event.Plain := by
  unfold applyNewOrder
  dsimp only
  split_ifs
  · exact List.forall_mem_singleton.mpr trivial
  · simp only [List.forall_mem_append]
    exact ⟨⟨⟨List.forall_mem_singleton.mpr trivial, plain_matchLoop _ _ _ _⟩, plain_settleResidual _ _ _⟩,
      plain_emitTopOfBookIfChanged _⟩

theorem plain_applyCancel (engine : MatchingEngine) (cmd : CancelOrder) :
    ∀ event ∈ (engine.applyCancel cmd).2, event.Plain := by
  unfold applyCancel
  split
  · exact List.forall_mem_singleton.mpr trivial
  · exact List.forall_mem_cons.mpr ⟨trivial, plain_emitTopOfBookIfChanged _⟩

theorem plain_apply (engine : MatchingEngine) (cmd : Command) :
    ∀ event ∈ (engine.apply cmd).2, event.Plain := by
  cases cmd with
  | newOrder order => exact plain_applyNewOrder _ order
  | cancelOrder cancel => exact plain_applyCancel _ cancel

/-- **Nothing an engine emits is left out** of its text. -/
theorem plain_applyAll (engine : MatchingEngine) (cmds : List Command) :
    ∀ event ∈ (engine.applyAll cmds).2, event.Plain := by
  induction cmds generalizing engine with
  | nil => exact fun _ member => absurd member List.not_mem_nil
  | cons cmd rest ih => exact List.forall_mem_append.mpr ⟨engine.plain_apply cmd, ih _⟩

/-- **The lines of two runs are the same exactly if their events are.** -/
theorem map_toString_eq_iff (instrument instrument' : InstrumentId) (cmds cmds' : List Command) :
    (applyAll { instrument } cmds).2.map Event.toString =
        (applyAll { instrument := instrument' } cmds').2.map Event.toString ↔
      (applyAll { instrument } cmds).2 = (applyAll { instrument := instrument' } cmds').2 :=
  ⟨map_toString_inj (plain_applyAll _ _) (plain_applyAll _ _), congrArg _⟩

end MatchingEngine

end Sententia
