/-
**The event stream determines the state.** `foldEvent` reads events alone: the book from
`OrderResting`, `Trade` and client `OrderCancelled`, the counters from the headers, the published top
from `TopOfBookChanged`. No event carries the arrival ordinal; counting the resting events recovers
it.

`foldEvents_apply` is the simulation step, one command at a time; `foldEvents_replay` is the run.
-/

import Sententia.Engine.Invariant

namespace Sententia

open Library MatchingEngine

/-- What the events of a run tell about the engine. -/
structure Projection where
  book : OrderBook := {}
  commandSeq : Nat := 0
  eventSeq : Nat := 0
  arrivalCounter : Nat := 0
  lastTop : TopOfBook := {}

namespace Projection

/-- Every event moves the counters to its header. -/
def count (state : Projection) (header : EventHeader) : Projection :=
  { state with commandSeq := header.commandSeq, eventSeq := header.eventSeq }

def foldEvent (state : Projection) (event : Event) : Projection :=
  let counted := state.count (header event)
  match event with
  | .orderResting resting =>
    let arrival := counted.arrivalCounter + 1
    { counted with
      arrivalCounter := arrival
      book := counted.book.rest
        { id := resting.id
          side := resting.side
          price := resting.price
          quantity := resting.quantity
          arrival } }
  | .trade trade => { counted with book := counted.book.reduce trade.restingId trade.quantity }
  | .orderCancelled cancelled =>
    -- A residual the engine cancels has never rested.
    if cancelled.engineInitiated then counted
    else { counted with book := (counted.book.cancel cancelled.id).1 }
  | .topOfBookChanged top =>
    { counted with
      lastTop :=
        { hasBid := top.hasBid
          bidPrice := top.bidPrice
          bidQuantity := top.bidQuantity
          hasAsk := top.hasAsk
          askPrice := top.askPrice
          askQuantity := top.askQuantity } }
  | .orderAccepted _ => counted
  | .orderRejected _ => counted
  | .cancelRejected _ => counted

def foldEvents (state : Projection) (events : EventList) : Projection :=
  events.foldl foldEvent state

theorem foldEvents_append (state : Projection) (first second : EventList) :
    state.foldEvents (first ++ second) = (state.foldEvents first).foldEvents second :=
  List.foldl_append

end Projection

namespace MatchingEngine

/-- The part of an engine that its events determine: everything but the instrument. -/
def project (engine : MatchingEngine) : Projection where
  book := engine.book
  commandSeq := engine.commandSeq
  eventSeq := engine.eventSeq
  arrivalCounter := engine.arrivalCounter
  lastTop := engine.lastTop

/-! ### One piece of a command at a time -/

theorem foldEvents_trades (engine : MatchingEngine) (cmd : NewOrder)
    (fills : List (RestingOrder × Quantity)) :
    engine.project.foldEvents
        ((tradesOf cmd engine.commandSeq engine.eventSeq fills).map .trade) =
      (engine.afterTrades fills).project := by
  induction fills generalizing engine with
  | nil => rfl
  | cons fill rest ih =>
    rw [afterTrades_cons]
    exact ih (engine.afterTrades [fill])

theorem foldEvents_settleResidual (engine : MatchingEngine) (cmd : NewOrder) (residual : Quantity) :
    engine.project.foldEvents (engine.settleResidual cmd residual).2 =
      (engine.settleResidual cmd residual).1.project := by
  unfold settleResidual
  split_ifs <;> rfl

theorem foldEvents_emitTopOfBookIfChanged (engine : MatchingEngine) :
    engine.project.foldEvents engine.emitTopOfBookIfChanged.2 =
      engine.emitTopOfBookIfChanged.1.project := by
  rcases engine.emitTopOfBookIfChanged_cases with ⟨_, quiet⟩ | published
  · rw [quiet]
    rfl
  · rw [published]
    rfl

/-! ### A command, and a run -/

theorem foldEvents_applyNewOrder {engine : MatchingEngine} (consistent : engine.Consistent)
    (cmd : NewOrder) :
    engine.project.foldEvents
        ({ engine with commandSeq := engine.commandSeq + 1 }.applyNewOrder cmd).2 =
      ({ engine with commandSeq := engine.commandSeq + 1 }.applyNewOrder cmd).1.project := by
  by_cases accepted : engine.rejectReason cmd = .none
  · have steps := applyNewOrder_eq { engine with commandSeq := engine.commandSeq + 1 }
      consistent.book accepted
    rw [steps]
    simp only [Projection.foldEvents_append]
    rw [← foldEvents_emitTopOfBookIfChanged, ← foldEvents_settleResidual, ← foldEvents_trades]
    rfl
  · show engine.project.foldEvents (engine.apply (.newOrder cmd)).2 = (engine.apply (.newOrder cmd)).1.project
    rw [apply_newOrder_rejected accepted]
    rfl

theorem foldEvents_applyCancel {engine : MatchingEngine} (consistent : engine.Consistent)
    (cmd : CancelOrder) :
    engine.project.foldEvents
        ({ engine with commandSeq := engine.commandSeq + 1 }.applyCancel cmd).2 =
      ({ engine with commandSeq := engine.commandSeq + 1 }.applyCancel cmd).1.project := by
  unfold applyCancel
  cases found : engine.book.index.find? cmd.id with
  | none =>
    simp only [OrderBook.cancel_unknown found]
    rfl
  | some loc =>
    -- The event names the removed order, whose id is the one the client asked for.
    obtain ⟨node, _, sameId, removed⟩ := consistent.book.cancel_eq found
    simp only [removed]
    rw [Projection.foldEvents_append, ← foldEvents_emitTopOfBookIfChanged]
    have book : (engine.book.cancel node.order.id).1 = engine.book.eraseLocated loc cmd.id := by
      rw [sameId, removed]
    refine congrArg (fun state : Projection => state.foldEvents _) ?_
    show Projection.mk (engine.book.cancel node.order.id).1 _ _ _ _ = _
    rw [book]
    rfl

/-- **One command**: folding its events leads to its state. -/
theorem foldEvents_apply {engine : MatchingEngine} (consistent : engine.Consistent)
    (cmd : Command) :
    engine.project.foldEvents (engine.apply cmd).2 = (engine.apply cmd).1.project := by
  cases cmd with
  | newOrder order => exact foldEvents_applyNewOrder consistent order
  | cancelOrder cancel => exact foldEvents_applyCancel consistent cancel

theorem foldEvents_applyAll {engine : MatchingEngine} (consistent : engine.Consistent)
    (cmds : List Command) :
    engine.project.foldEvents (engine.applyAll cmds).2 = (engine.applyAll cmds).1.project := by
  induction cmds generalizing engine with
  | nil => rfl
  | cons cmd rest ih =>
    unfold applyAll
    rw [Projection.foldEvents_append, foldEvents_apply consistent cmd]
    exact ih (apply_consistent consistent cmd)

/-- **The event stream determines the state**: for every command sequence, folding the emitted events
gives the engine's book, counters and published top. -/
theorem foldEvents_replay (instrument : InstrumentId) (cmds : List Command) :
    Projection.foldEvents {} (applyAll { instrument } cmds).2 = (replay instrument cmds).project :=
  foldEvents_applyAll (consistent_fresh instrument) cmds

end MatchingEngine

end Sententia
