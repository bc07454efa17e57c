/-
**The deterministic matching core** (`engine.hpp`, `engine.cpp`): a pure state machine from commands
to events.

The `while` loop of `MatchingEngine::match` is `matchLoop`, bounded by the number of resting orders:
every iteration but the last removes one. `Engine/Matching.lean` proves that the bound is never what
stops it.
-/

import Sententia.OrderBook

namespace Sententia

open Library

/-- A complete, restorable picture of an engine's state. -/
structure EngineSnapshot where
  instrument : InstrumentId
  commandSeq : Nat
  eventSeq : Nat
  arrivalCounter : Nat
  lastTop : TopOfBook
  orders : List RestingOrder
deriving Repr, DecidableEq

structure MatchingEngine where
  instrument : InstrumentId
  book : OrderBook := {}
  commandSeq : Nat := 0
  eventSeq : Nat := 0
  arrivalCounter : Nat := 0
  lastTop : TopOfBook := {}

/-- Would this incoming order cross the given resting price? -/
def crosses (incomingSide : Side) (type : OrderType) (limit resting : Price) : Bool :=
  match type with
  | .market => true
  | .limit =>
    match incomingSide with
    | .buy => resting ≤ limit
    | .sell => resting ≥ limit

namespace MatchingEngine

def nextHeader (engine : MatchingEngine) : MatchingEngine × EventHeader :=
  ({ engine with eventSeq := engine.eventSeq + 1 },
    { commandSeq := engine.commandSeq, eventSeq := engine.eventSeq + 1 })

/-- Stamp an event with the next header and push it. -/
def emit (engine : MatchingEngine) (event : EventHeader → Event) : MatchingEngine × EventList :=
  let (engine, header) := engine.nextHeader
  (engine, [event header])

def emitTopOfBookIfChanged (engine : MatchingEngine) : MatchingEngine × EventList :=
  let now := engine.book.top
  if now = engine.lastTop then (engine, [])
  else
    { engine with lastTop := now }.emit fun header => .topOfBookChanged
      { header
        hasBid := now.hasBid
        bidPrice := now.bidPrice
        bidQuantity := now.bidQuantity
        hasAsk := now.hasAsk
        askPrice := now.askPrice
        askQuantity := now.askQuantity }

/-- The first rule a new order breaks, in the order the source checks them. -/
def rejectReason (engine : MatchingEngine) (cmd : NewOrder) : RejectReason :=
  if cmd.instrument ≠ engine.instrument then .wrongInstrument
  else if cmd.quantity = 0 then .zeroQuantity
  else if cmd.type = .limit ∧ cmd.price ≤ 0 then .nonPositivePrice
  else if cmd.type = .market ∧ cmd.tif ≠ .immediateOrCancel then .marketOrderMustBeIoc
  else if engine.book.contains cmd.id then .duplicateOrderId
  else .none

def matchLoop : Nat → MatchingEngine → NewOrder → Quantity → MatchingEngine × Quantity × EventList
  | 0, engine, _, quantity => (engine, quantity, [])
  | fuel + 1, engine, cmd, quantity =>
    if quantity = 0 then (engine, quantity, [])
    else
      match engine.book.frontLevel (opposite cmd.side) with
      | none => (engine, quantity, [])
      | some [] => (engine, quantity, [])
      | some (front :: _) =>
        if crosses cmd.side cmd.type cmd.price front.order.price then
          let fill := min quantity front.order.quantity
          let (engine, trade) := engine.emit fun header => .trade
            { header
              aggressorId := cmd.id
              restingId := front.order.id
              aggressorSide := cmd.side
              price := front.order.price
              quantity := fill }
          let engine := { engine with book := engine.book.reduce front.order.id fill }
          let (engine, residual, more) := matchLoop fuel engine cmd (quantity - fill)
          (engine, residual, trade ++ more)
        else (engine, quantity, [])

/-- Crosses an order against the opposite book; returns the residual quantity. -/
def matchOrder (engine : MatchingEngine) (cmd : NewOrder) (quantity : Quantity) :
    MatchingEngine × Quantity × EventList :=
  matchLoop (engine.book.orderCount + 1) engine cmd quantity

/-- Only a good-till-cancel limit order may rest. -/
def canRest (cmd : NewOrder) : Bool := cmd.type = .limit ∧ cmd.tif = .goodTillCancel

/-- What happens to the residual of an accepted order. -/
def settleResidual (engine : MatchingEngine) (cmd : NewOrder) (residual : Quantity) :
    MatchingEngine × EventList :=
  if residual = 0 then (engine, [])
  else if canRest cmd then
    let arrival := engine.arrivalCounter + 1
    let order : RestingOrder :=
      { id := cmd.id, side := cmd.side, price := cmd.price, quantity := residual, arrival }
    { engine with arrivalCounter := arrival, book := engine.book.rest order }.emit fun header =>
      .orderResting
        { header, id := cmd.id, side := cmd.side, price := cmd.price, quantity := residual }
  else
    engine.emit fun header => .orderCancelled
      { header
        id := cmd.id
        side := cmd.side
        price := cmd.price
        remaining := residual
        engineInitiated := true }

def applyNewOrder (engine : MatchingEngine) (cmd : NewOrder) : MatchingEngine × EventList :=
  let reason := engine.rejectReason cmd
  if reason ≠ .none then
    engine.emit fun header => .orderRejected { header, id := cmd.id, reason }
  else
    let (engine, accepted) := engine.emit fun header => .orderAccepted
      { header
        id := cmd.id
        side := cmd.side
        type := cmd.type
        tif := cmd.tif
        price := cmd.price
        quantity := cmd.quantity }
    let (engine, residual, trades) := engine.matchOrder cmd cmd.quantity
    let (engine, settled) := engine.settleResidual cmd residual
    let (engine, top) := engine.emitTopOfBookIfChanged
    (engine, accepted ++ trades ++ settled ++ top)

def applyCancel (engine : MatchingEngine) (cmd : CancelOrder) : MatchingEngine × EventList :=
  match engine.book.cancel cmd.id with
  | (_, none) =>
    engine.emit fun header => .cancelRejected { header, id := cmd.id, reason := .unknownOrderId }
  | (book, some removed) =>
    let (engine, cancelled) := { engine with book }.emit fun header => .orderCancelled
      { header
        id := removed.id
        side := removed.side
        price := removed.price
        remaining := removed.quantity
        engineInitiated := false }
    let (engine, top) := engine.emitTopOfBookIfChanged
    (engine, cancelled ++ top)

/-- Applies one command and returns the events it emits. -/
def apply (engine : MatchingEngine) (cmd : Command) : MatchingEngine × EventList :=
  let engine := { engine with commandSeq := engine.commandSeq + 1 }
  match cmd with
  | .newOrder order => engine.applyNewOrder order
  | .cancelOrder cancel => engine.applyCancel cancel

/-- Applies a command sequence, collecting the events of the whole run. -/
def applyAll (engine : MatchingEngine) : List Command → MatchingEngine × EventList
  | [] => (engine, [])
  | cmd :: rest =>
    let (engine, events) := engine.apply cmd
    let (engine, more) := engine.applyAll rest
    (engine, events ++ more)

/-- The state a fresh engine reaches by a command sequence. -/
def replay (instrument : InstrumentId) (cmds : List Command) : MatchingEngine :=
  (applyAll { instrument } cmds).1

theorem applyAll_append (engine : MatchingEngine) (first second : List Command) :
    (engine.applyAll (first ++ second)).1 = ((engine.applyAll first).1.applyAll second).1 := by
  induction first generalizing engine with
  | nil => rfl
  | cons cmd rest ih => exact ih (engine.apply cmd).1

/-! ### The instrument of an engine -/

theorem instrument_matchLoop (fuel : Nat) (engine : MatchingEngine) (cmd : NewOrder)
    (quantity : Quantity) : (matchLoop fuel engine cmd quantity).1.instrument = engine.instrument := by
  induction fuel generalizing engine quantity with
  | zero => rfl
  | succ fuel ih =>
    unfold matchLoop
    split_ifs
    · rfl
    · split
      · rfl
      · rfl
      · split_ifs
        · exact ih _ _
        · rfl

theorem instrument_emitTopOfBookIfChanged (engine : MatchingEngine) :
    engine.emitTopOfBookIfChanged.1.instrument = engine.instrument := by
  unfold emitTopOfBookIfChanged
  simp only
  split_ifs <;> rfl

theorem instrument_settleResidual (engine : MatchingEngine) (cmd : NewOrder) (residual : Quantity) :
    (engine.settleResidual cmd residual).1.instrument = engine.instrument := by
  unfold settleResidual
  simp only
  split_ifs <;> rfl

/-- No command changes the instrument. -/
theorem instrument_apply (engine : MatchingEngine) (cmd : Command) :
    (engine.apply cmd).1.instrument = engine.instrument := by
  cases cmd with
  | newOrder order =>
    show (applyNewOrder _ order).1.instrument = _
    unfold applyNewOrder
    simp only
    split_ifs
    · rfl
    · rw [instrument_emitTopOfBookIfChanged, instrument_settleResidual]
      exact instrument_matchLoop _ _ _ _
  | cancelOrder cancel =>
    show (applyCancel _ cancel).1.instrument = _
    unfold applyCancel
    split
    · rfl
    · exact instrument_emitTopOfBookIfChanged _

theorem instrument_replay (instrument : InstrumentId) (cmds : List Command) :
    (replay instrument cmds).instrument = instrument := by
  have kept : ∀ (cmds : List Command) (engine : MatchingEngine),
      (engine.applyAll cmds).1.instrument = engine.instrument := by
    intro cmds
    induction cmds with
    | nil => exact fun engine => rfl
    | cons cmd rest ih => exact fun engine => (ih (engine.apply cmd).1).trans (engine.instrument_apply cmd)
  exact kept cmds { instrument }

/-! ### Snapshots -/

def snapshot (engine : MatchingEngine) : EngineSnapshot where
  instrument := engine.instrument
  commandSeq := engine.commandSeq
  eventSeq := engine.eventSeq
  arrivalCounter := engine.arrivalCounter
  lastTop := engine.lastTop
  orders := engine.book.restingOrders .buy ++ engine.book.restingOrders .sell

/-- Rest the orders of a snapshot one by one; `false` at the first repeated id. -/
def restAll (book : OrderBook) : List RestingOrder → OrderBook × Bool
  | [] => (book, true)
  | order :: rest =>
    if book.contains order.id then (book, false) else restAll (book.rest order) rest

def restore (engine : MatchingEngine) (snap : EngineSnapshot) : MatchingEngine × Bool :=
  if snap.instrument ≠ engine.instrument then (engine, false)
  else if snap.orders.any fun order => order.quantity = 0 ∨ order.price ≤ 0 then (engine, false)
  else
    match restAll {} snap.orders with
    -- The book has been replaced by then; the counters have not.
    | (book, false) => ({ engine with book }, false)
    | (book, true) =>
      ({ engine with
          book
          commandSeq := snap.commandSeq
          eventSeq := snap.eventSeq
          arrivalCounter := snap.arrivalCounter
          lastTop := snap.lastTop }, true)

/-! ### The state checksum -/

/-- Mixes a value into a hash byte by byte, least significant first on every host. -/
def mix (hash value : UInt64) : UInt64 := hashBytes hash (bytesOf value)

def stateChecksumOn (host : ByteOrder) (engine : MatchingEngine) : UInt64 :=
  let hash := engine.book.checksum host
  let hash := mix hash (UInt64.ofNat engine.commandSeq)
  let hash := mix hash (UInt64.ofNat engine.eventSeq)
  let hash := mix hash (UInt64.ofNat engine.arrivalCounter)
  mix hash engine.instrument.toUInt64

/-- The checksum replicas compare, on the little-endian hosts of one cluster. -/
def stateChecksum (engine : MatchingEngine) : UInt64 := engine.stateChecksumOn .little

end MatchingEngine

end Sententia
