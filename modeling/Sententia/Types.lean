/-
**The value types of the matching core, and its command/event model.**

Ids, prices and quantities are the fixed-width integers of `types.hpp`. A `Sequence` of the source,
its logical time, counts commands, events or arrivals from one upwards and is a `Nat` here: the
counters of one run stay below `2 ^ 64`.

A `Command` is an intent and carries nothing the engine decides; an `Event` is a fact and carries
the header the engine gave it.
-/

import Mathlib.Order.Defs.Unbundled

namespace Sententia

abbrev OrderId := UInt64
abbrev InstrumentId := UInt32

/-- Integer ticks. -/
abbrev Price := Int64

abbrev Quantity := UInt64

inductive Side
  | buy
  | sell
deriving Repr, DecidableEq, Inhabited

inductive OrderType
  | limit
  | market
deriving Repr, DecidableEq, Inhabited

inductive TimeInForce
  | goodTillCancel
  | immediateOrCancel
deriving Repr, DecidableEq, Inhabited

inductive RejectReason
  | none
  | duplicateOrderId
  | unknownOrderId
  | zeroQuantity
  | nonPositivePrice
  | wrongInstrument
  | marketOrderMustBeIoc
deriving Repr, DecidableEq, Inhabited

def opposite : Side → Side
  | .buy => .sell
  | .sell => .buy

@[simp] theorem opposite_ne (side : Side) : opposite side ≠ side := by cases side <;> decide

@[simp] theorem ne_opposite (side : Side) : side ≠ opposite side := by cases side <;> decide

/-- A side is the given one or its opposite. -/
theorem eq_or_eq_opposite (side other : Side) : other = side ∨ other = opposite side := by
  cases side <;> cases other <;> simp [opposite]

/-! ### Price priority -/

/-- The comparator of a side's levels: `std::greater` for bids, `std::less` for asks. -/
def better : Side → Price → Price → Prop
  | .buy, first, second => second < first
  | .sell, first, second => first < second

instance (side : Side) : DecidableRel (better side) := fun first second =>
  match side with
  | .buy => inferInstanceAs (Decidable (second < first))
  | .sell => inferInstanceAs (Decidable (first < second))

theorem price_lt_trans {first second third : Price} (less : first < second)
    (less' : second < third) : first < third := by
  rw [Int64.lt_iff_toInt_lt] at *
  omega

theorem price_lt_irrefl (price : Price) : ¬ price < price := by
  rw [Int64.lt_iff_toInt_lt]
  omega

theorem price_trichotomy (first second : Price) :
    first < second ∨ first = second ∨ second < first := by
  rw [Int64.lt_iff_toInt_lt, Int64.lt_iff_toInt_lt, ← Int64.toInt_inj]
  omega

instance (side : Side) : IsStrictTotalOrder Price (better side) where
  irrefl price := by cases side <;> exact price_lt_irrefl price
  trans first second third less less' := by
    cases side
    · exact price_lt_trans less' less
    · exact price_lt_trans less less'
  trichotomous first second notLess notGreater := by
    cases side <;> rcases price_trichotomy first second with less | same | less <;>
      first | exact same | exact absurd less notLess | exact absurd less notGreater

instance uint64LtTotal : IsStrictTotalOrder UInt64 (· < ·) where
  irrefl value := by simp
  trans first second third less less' := UInt64.lt_trans less less'
  trichotomous first second notLess notGreater := by
    simp only [UInt64.not_lt] at notLess notGreater
    exact UInt64.le_antisymm notGreater notLess

instance uint32LtTotal : IsStrictTotalOrder UInt32 (· < ·) where
  irrefl value := by simp
  trans first second third less less' := UInt32.lt_trans less less'
  trichotomous first second notLess notGreater := by
    simp only [UInt32.not_lt] at notLess notGreater
    exact UInt32.le_antisymm notGreater notLess

/-! ### Commands -/

structure NewOrder where
  id : OrderId
  instrument : InstrumentId
  side : Side
  type : OrderType
  tif : TimeInForce
  /-- Ignored for market orders. -/
  price : Price
  quantity : Quantity
deriving Repr, DecidableEq, Inhabited

structure CancelOrder where
  id : OrderId
deriving Repr, DecidableEq, Inhabited

inductive Command
  | newOrder (order : NewOrder)
  | cancelOrder (cancel : CancelOrder)
deriving Repr, DecidableEq, Inhabited

/-! ### Events -/

/-- The command that caused an event, and the event's own ordinal. -/
structure EventHeader where
  commandSeq : Nat
  eventSeq : Nat
deriving Repr, DecidableEq, Inhabited

structure OrderAccepted where
  header : EventHeader
  id : OrderId
  side : Side
  type : OrderType
  tif : TimeInForce
  price : Price
  quantity : Quantity
deriving Repr, DecidableEq

structure OrderRejected where
  header : EventHeader
  id : OrderId
  reason : RejectReason
deriving Repr, DecidableEq

structure Trade where
  header : EventHeader
  aggressorId : OrderId
  restingId : OrderId
  aggressorSide : Side
  price : Price
  quantity : Quantity
deriving Repr, DecidableEq

structure OrderResting where
  header : EventHeader
  id : OrderId
  side : Side
  price : Price
  quantity : Quantity
deriving Repr, DecidableEq

structure OrderCancelled where
  header : EventHeader
  id : OrderId
  side : Side
  price : Price
  /-- Quantity removed from the book by the cancel. -/
  remaining : Quantity
  /-- The engine cancelled a residual, rather than a client asking. -/
  engineInitiated : Bool
deriving Repr, DecidableEq

structure CancelRejected where
  header : EventHeader
  id : OrderId
  reason : RejectReason
deriving Repr, DecidableEq

structure TopOfBookChanged where
  header : EventHeader
  hasBid : Bool
  bidPrice : Price
  bidQuantity : Quantity
  hasAsk : Bool
  askPrice : Price
  askQuantity : Quantity
deriving Repr, DecidableEq

inductive Event
  | orderAccepted (event : OrderAccepted)
  | orderRejected (event : OrderRejected)
  | trade (event : Trade)
  | orderResting (event : OrderResting)
  | orderCancelled (event : OrderCancelled)
  | cancelRejected (event : CancelRejected)
  | topOfBookChanged (event : TopOfBookChanged)
deriving Repr, DecidableEq

abbrev EventList := List Event

def header : Event → EventHeader
  | .orderAccepted event => event.header
  | .orderRejected event => event.header
  | .trade event => event.header
  | .orderResting event => event.header
  | .orderCancelled event => event.header
  | .cancelRejected event => event.header
  | .topOfBookChanged event => event.header

end Sententia
