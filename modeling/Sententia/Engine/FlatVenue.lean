/-
**The engine is a flat venue.** What a client of the engine is promised, with no book behind it: a venue
keeps the orders at rest as one list, and works everything out from that list anew, by sorting, summing and
searching it.

* `FlatVenue.apply` — one command: the facts it gives rise to, then the best prices if they moved, all
  of it numbered in one go.
* `Flattens` — the venue has the engine's counters, and every queue of the engine's book is what the list
  has at its price.
* `applyAll_flat` — **the refinement**: on every command sequence the engine emits the venue's events,
  number by number, and keeps the venue's orders.

The price levels, the id index and the matching loop of the source are invisible to a client.
-/

import Sententia.Engine.RestingQuantity
import Sententia.Engine.RestoredBook

namespace Sententia

open Library

/-! ### The venue -/

/-- What the venue has to report, before it is numbered. -/
abbrev Fact := EventHeader → Event

/-- Number the facts of one command, from the given event ordinal on. -/
def stamp (commandSeq : Nat) : Nat → List Fact → EventList
  | _, [] => []
  | eventSeq, fact :: rest =>
    fact { commandSeq, eventSeq := eventSeq + 1 } :: stamp commandSeq (eventSeq + 1) rest

structure FlatVenue where
  instrument : InstrumentId
  commandSeq : Nat := 0
  eventSeq : Nat := 0
  arrivalCounter : Nat := 0
  /-- The best prices a client was last told. -/
  published : TopOfBook := {}
  /-- The orders at rest. -/
  orders : List RestingOrder := []

/-- The orders of a side. -/
def onSide (side : Side) (orders : List RestingOrder) : List RestingOrder :=
  orders.filter fun order => order.side = side

/-- An accepted order, as a client hears of it. -/
def acceptedFact (cmd : NewOrder) : Fact := fun header => .orderAccepted
  { header
    id := cmd.id
    side := cmd.side
    type := cmd.type
    tif := cmd.tif
    price := cmd.price
    quantity := cmd.quantity }

/-- A fill, as a client hears of it. -/
def tradeFact (cmd : NewOrder) (fill : RestingOrder × Quantity) : Fact := fun header => .trade
  { header
    aggressorId := cmd.id
    restingId := fill.1.id
    aggressorSide := cmd.side
    price := fill.1.price
    quantity := fill.2 }

/-- What becomes of a residual, as a client hears of it. -/
def residualFacts (cmd : NewOrder) (residual : Quantity) : List Fact :=
  if residual = 0 then []
  else if MatchingEngine.canRest cmd then
    [fun header => .orderResting
      { header, id := cmd.id, side := cmd.side, price := cmd.price, quantity := residual }]
  else
    [fun header => .orderCancelled
      { header
        id := cmd.id
        side := cmd.side
        price := cmd.price
        remaining := residual
        engineInitiated := true }]

namespace FlatVenue

/-- The best price of either side, and all that is offered there. -/
def top (venue : FlatVenue) : TopOfBook := topOf venue.orders

/-- The first rule a new order breaks. -/
def rejectReason (venue : FlatVenue) (cmd : NewOrder) : RejectReason :=
  if cmd.instrument ≠ venue.instrument then .wrongInstrument
  else if cmd.quantity = 0 then .zeroQuantity
  else if cmd.type = .limit ∧ cmd.price ≤ 0 then .nonPositivePrice
  else if cmd.type = .market ∧ cmd.tif ≠ .immediateOrCancel then .marketOrderMustBeIoc
  else if venue.orders.any fun order => order.id = cmd.id then .duplicateOrderId
  else .none

/-- The orders a residual adds: itself, if it may rest. -/
def rested (venue : FlatVenue) (cmd : NewOrder) (residual : Quantity) : List RestingOrder :=
  if residual ≠ 0 ∧ MatchingEngine.canRest cmd then
    [{ id := cmd.id
       side := cmd.side
       price := cmd.price
       quantity := residual
       arrival := venue.arrivalCounter + 1 }]
  else []

def newOrder (venue : FlatVenue) (cmd : NewOrder) : FlatVenue × List Fact :=
  let reason := venue.rejectReason cmd
  if reason ≠ .none then (venue, [fun header => .orderRejected { header, id := cmd.id, reason }])
  else
    let reference := referenceFills cmd (onSide (opposite cmd.side) venue.orders)
    let rested := venue.rested cmd reference.2
    ({ venue with
        arrivalCounter := venue.arrivalCounter + rested.length
        orders := venue.orders.filterMap (afterFills reference.1) ++ rested },
      acceptedFact cmd :: reference.1.map (tradeFact cmd) ++ residualFacts cmd reference.2)

def cancelOrder (venue : FlatVenue) (cmd : CancelOrder) : FlatVenue × List Fact :=
  match venue.orders.find? fun order => order.id = cmd.id with
  | none =>
    (venue, [fun header => .cancelRejected { header, id := cmd.id, reason := .unknownOrderId }])
  | some order =>
    ({ venue with orders := venue.orders.filter fun order => order.id ≠ cmd.id },
      [fun header => .orderCancelled
        { header
          id := order.id
          side := order.side
          price := order.price
          remaining := order.quantity
          engineInitiated := false }])

/-- Tell the best prices if they have moved. -/
def publish (venue : FlatVenue) : FlatVenue × List Fact :=
  if venue.top = venue.published then (venue, [])
  else
    ({ venue with published := venue.top },
      [fun header => .topOfBookChanged (MatchingEngine.topEvent header venue.top)])

def answer (venue : FlatVenue) : Command → FlatVenue × List Fact
  | .newOrder order => venue.newOrder order
  | .cancelOrder cancel => venue.cancelOrder cancel

/-- Number the facts and count them. -/
def report (venue : FlatVenue) (facts : List Fact) : FlatVenue × EventList :=
  ({ venue with eventSeq := venue.eventSeq + facts.length },
    stamp venue.commandSeq venue.eventSeq facts)

/-- One command: what it gives rise to, then the best prices. -/
def apply (venue : FlatVenue) (cmd : Command) : FlatVenue × EventList :=
  let (venue, facts) := { venue with commandSeq := venue.commandSeq + 1 }.answer cmd
  let (venue, events) := venue.report facts
  let (venue, prices) := venue.publish
  let (venue, more) := venue.report prices
  (venue, events ++ more)

def applyAll (venue : FlatVenue) : List Command → FlatVenue × EventList
  | [] => (venue, [])
  | cmd :: rest =>
    let (venue, events) := venue.apply cmd
    let (venue, more) := venue.applyAll rest
    (venue, events ++ more)

end FlatVenue

/-! ### Numbering -/

theorem stamp_append (commandSeq eventSeq : Nat) (first second : List Fact) :
    stamp commandSeq eventSeq (first ++ second) =
      stamp commandSeq eventSeq first ++ stamp commandSeq (eventSeq + first.length) second := by
  induction first generalizing eventSeq with
  | nil => rfl
  | cons fact rest ih =>
    show _ :: stamp commandSeq (eventSeq + 1) (rest ++ second) = _
    rw [ih (eventSeq + 1), List.length_cons, Nat.add_assoc, Nat.add_comm 1]
    rfl

/-- The reference trades are the fills, numbered. -/
theorem stamp_trades (cmd : NewOrder) (commandSeq eventSeq : Nat)
    (fills : List (RestingOrder × Quantity)) :
    stamp commandSeq eventSeq (fills.map (tradeFact cmd)) =
      (tradesOf cmd commandSeq eventSeq fills).map .trade := by
  induction fills generalizing eventSeq with
  | nil => rfl
  | cons fill rest ih => exact congrArg _ (ih (eventSeq + 1))

/-! ### A book as one list -/

/-- Price-time priority ties two orders only at the same price. -/
instance (side : Side) : IsTrans RestingOrder (precedesOrTies side) where
  trans first second third before before' := by
    rcases before with price | ⟨same, arrival⟩ <;> rcases before' with price' | ⟨same', arrival'⟩
    · exact Or.inl (trans_of (better side) price price')
    · exact Or.inl (same' ▸ price)
    · exact Or.inl (same ▸ price')
    · exact Or.inr ⟨same.trans same', Nat.le_trans arrival arrival'⟩

instance (side : Side) : Std.Total (precedesOrTies side) where
  total first second := by
    rcases trichotomous_of (better side) first.price second.price with price | same | price
    · exact Or.inl (Or.inl price)
    · rcases Nat.le_total first.arrival second.arrival with arrival | arrival
      · exact Or.inl (Or.inr ⟨same, arrival⟩)
      · exact Or.inr (Or.inr ⟨same.symm, arrival⟩)
    · exact Or.inr (Or.inl price)

theorem precedesOrTies_antisymm {side : Side} {first second : RestingOrder}
    (before : precedesOrTies side first second) (after : precedesOrTies side second first) :
    first.arrival = second.arrival := by
  rcases before with price | ⟨same, arrival⟩ <;> rcases after with price' | ⟨same', arrival'⟩
  · exact absurd (trans_of (better side) price price') (irrefl_of (better side) _)
  · exact absurd (same' ▸ price) (irrefl_of (better side) _)
  · exact absurd (same ▸ price') (irrefl_of (better side) _)
  · exact Nat.le_antisymm arrival arrival'

theorem afterFills_place {fills : List (RestingOrder × Quantity)} {order left : RestingOrder}
    (leaves : afterFills fills order = some left) : left.side = order.side ∧ left.price = order.price := by
  unfold afterFills at leaves
  simp only at leaves
  split_ifs at leaves
  cases leaves
  exact ⟨rfl, rfl⟩

namespace OrderBook

namespace WellFormed

variable {book : OrderBook} {arrivals : Nat}

theorem walk_nodup (wf : WellFormed book arrivals) : book.walk.Nodup :=
  wf.walk_ids.imp fun different same => different (congrArg RestingOrder.id same)

theorem eq_of_id_walk (wf : WellFormed book arrivals) {first second : RestingOrder}
    (member : first ∈ book.walk) (member' : second ∈ book.walk) (same : first.id = second.id) :
    first = second := by
  obtain ⟨_, _, resting⟩ := mem_walk.mp member
  obtain ⟨_, _, resting'⟩ := mem_walk.mp member'
  obtain ⟨node, inQueue, rfl⟩ := List.mem_map.mp resting
  obtain ⟨node', inQueue', rfl⟩ := List.mem_map.mp resting'
  rw [(wf.eq_of_id inQueue inQueue' same).2.2]

theorem eq_of_arrival_walk (wf : WellFormed book arrivals) {first second : RestingOrder}
    (member : first ∈ book.walk) (member' : second ∈ book.walk)
    (same : first.arrival = second.arrival) : first = second := by
  obtain ⟨_, _, resting⟩ := mem_walk.mp member
  obtain ⟨_, _, resting'⟩ := mem_walk.mp member'
  obtain ⟨node, inQueue, rfl⟩ := List.mem_map.mp resting
  obtain ⟨node', inQueue', rfl⟩ := List.mem_map.mp resting'
  exact wf.eq_of_id_walk member member' (wf.arrivalUnique inQueue inQueue' same)

theorem nodup_ordersAt (wf : WellFormed book arrivals) (side : Side) (price : Price) :
    (book.ordersAt side price).Nodup :=
  List.pairwise_map.mpr ((wf.fifo side price).imp fun earlier same =>
    Nat.ne_of_lt earlier (congrArg RestingOrder.arrival same))

/-- A list with the book's orders, each once, is a rearrangement of the book. -/
theorem perm_walk (wf : WellFormed book arrivals) {orders : List RestingOrder} (nodup : orders.Nodup)
    (same : ∀ order, order ∈ orders ↔ ∃ side price, order ∈ book.ordersAt side price) :
    orders.Perm book.walk :=
  (List.perm_ext_iff_of_nodup nodup wf.walk_nodup).mpr fun order => (same order).trans mem_walk.symm

theorem mem_ordersAt_iff (wf : WellFormed book arrivals) {side : Side} {price : Price}
    {order : RestingOrder} : order ∈ book.ordersAt side price ↔
      order ∈ book.walk ∧ order.side = side ∧ order.price = price := by
  constructor
  · intro resting
    obtain ⟨node, member, rfl⟩ := List.mem_map.mp resting
    exact ⟨mem_walk.mpr ⟨side, price, resting⟩, wf.placed member⟩
  · rintro ⟨member, rfl, rfl⟩
    obtain ⟨side, price, resting⟩ := mem_walk.mp member
    obtain ⟨node, inQueue, rfl⟩ := List.mem_map.mp resting
    obtain ⟨rfl, rfl⟩ := wf.placed inQueue
    exact resting

theorem mem_restingOrders_iff (wf : WellFormed book arrivals) {side : Side} {order : RestingOrder} :
    order ∈ book.restingOrders side ↔ order ∈ book.walk ∧ order.side = side := by
  rw [mem_restingOrders]
  constructor
  · rintro ⟨price, resting⟩
    obtain ⟨member, onSide, _⟩ := wf.mem_ordersAt_iff.mp resting
    exact ⟨member, onSide⟩
  · rintro ⟨member, onSide⟩
    exact ⟨order.price, wf.mem_ordersAt_iff.mpr ⟨member, onSide, rfl⟩⟩

section Listed

variable {orders : List RestingOrder}

/-- A side of the list is that side of the book, rearranged. -/
theorem onSide_perm (wf : WellFormed book arrivals) (listed : orders.Perm book.walk) (side : Side) :
    (onSide side orders).Perm (book.restingOrders side) := by
  have nodup := listed.nodup_iff.mpr wf.walk_nodup
  have sideNodup : (book.restingOrders side).Nodup :=
    (wf.restingOrders_ids side).imp fun different same => different (congrArg RestingOrder.id same)
  refine (List.perm_ext_iff_of_nodup (nodup.filter _) sideNodup).mpr fun order => ?_
  rw [wf.mem_restingOrders_iff, List.mem_filter, listed.mem_iff, decide_eq_true_eq]

/-- **Sorting the list gives the book's order.** -/
theorem insertionSort_onSide (wf : WellFormed book arrivals) (listed : orders.Perm book.walk)
    (side : Side) :
    (onSide side orders).insertionSort (precedesOrTies side) = book.restingOrders side := by
  have same := (List.perm_insertionSort (precedesOrTies side) _).trans (wf.onSide_perm listed side)
  have ordered := wf.restingOrders_ordered side
  refine List.Perm.eq_of_pairwise ?_ (List.pairwise_insertionSort _ _)
    (ordered.imp fun before => before.orTies) same
  intro first second firstMember secondMember before after
  obtain ⟨onBook, _⟩ := wf.mem_restingOrders_iff.mp (same.subset firstMember)
  obtain ⟨onBook', _⟩ := wf.mem_restingOrders_iff.mp secondMember
  exact wf.eq_of_arrival_walk onBook onBook' (precedesOrTies_antisymm before after)

/-- The list and the index know the same ids. -/
theorem any_listed (wf : WellFormed book arrivals) (listed : orders.Perm book.walk) (id : OrderId) :
    (orders.any fun order => order.id = id) = book.contains id := by
  rw [Bool.eq_iff_iff, List.any_eq_true]
  unfold contains OrderedMap.contains
  rw [Option.isSome_iff_exists]
  constructor
  · rintro ⟨order, member, same⟩
    obtain ⟨side, price, resting⟩ := mem_walk.mp (listed.mem_iff.mp member)
    obtain ⟨node, inQueue, rfl⟩ := List.mem_map.mp resting
    rw [← of_decide_eq_true same]
    exact ⟨_, wf.find?_of_mem inQueue⟩
  · rintro ⟨loc, found⟩
    obtain ⟨node, inQueue, _, sameId, _⟩ := wf.located found
    exact ⟨node.order, listed.mem_iff.mpr (mem_walk.mpr ⟨_, _, List.mem_map_of_mem inQueue⟩),
      decide_eq_true sameId⟩

/-- Looking an id up in the list is looking it up in the book. -/
theorem find?_listed (wf : WellFormed book arrivals) (listed : orders.Perm book.walk) (id : OrderId) :
    orders.find? (fun order => order.id = id) = (book.cancel id).2 := by
  rw [wf.removed_cancel]
  unfold lookup
  cases found : book.index.find? id with
  | none =>
    have unknown : (orders.any fun order => order.id = id) = false := by
      rw [wf.any_listed listed]
      unfold contains OrderedMap.contains
      rw [found]
      rfl
    exact List.find?_eq_none.mpr fun order member => List.any_eq_false.mp unknown order member
  | some loc =>
    obtain ⟨node, inQueue, _, sameId, target⟩ := wf.located found
    have onBook : node.order ∈ book.walk := mem_walk.mpr ⟨_, _, List.mem_map_of_mem inQueue⟩
    rw [Option.map_some, Option.bind_some, target]
    cases named : orders.find? fun order => order.id = id with
    | none =>
      exact absurd (decide_eq_true sameId)
        (List.find?_eq_none.mp named _ (listed.mem_iff.mpr onBook))
    | some order =>
      have member := listed.mem_iff.mp (List.mem_of_find?_eq_some named)
      have sameId' : order.id = id := by simpa using List.find?_some named
      exact congrArg some (wf.eq_of_id_walk member onBook (sameId'.trans sameId.symm))

end Listed

end WellFormed

/-! ### The operations of the book, on the list -/

variable {book : OrderBook} {arrivals : Nat} {orders : List RestingOrder}

/-- A list that has every queue at its price is a rearrangement of the book. -/
theorem Lists.perm_walk (lists : book.Lists orders) (wf : WellFormed book arrivals) :
    orders.Perm book.walk := by
  have here : ∀ order ∈ orders, order ∈ book.ordersAt order.side order.price := by
    intro order member
    rw [lists]
    exact List.mem_filter.mpr ⟨member, decide_eq_true ⟨rfl, rfl⟩⟩
  have nodup : orders.Nodup := by
    refine List.nodup_iff_count_le_one.mpr fun order => ?_
    have queue := List.nodup_iff_count_le_one.mp (wf.nodup_ordersAt order.side order.price) order
    have placed : decide (order.side = order.side ∧ order.price = order.price) = true :=
      decide_eq_true ⟨rfl, rfl⟩
    rw [lists, List.count_filter (p := fun other : RestingOrder =>
      decide (other.side = order.side ∧ other.price = order.price)) placed] at queue
    exact queue
  refine wf.perm_walk nodup fun order => ⟨fun member => ⟨_, _, here order member⟩, ?_⟩
  rintro ⟨side, price, resting⟩
  rw [lists] at resting
  exact (List.mem_filter.mp resting).1

theorem Lists.applyFills (lists : book.Lists orders) (wf : WellFormed book arrivals) (cmd : NewOrder) :
    let fills := (referenceFills cmd (book.restingOrders (opposite cmd.side))).1
    (book.applyFills fills).Lists (orders.filterMap (afterFills fills)) := by
  intro fills side price
  rw [wf.ordersAt_referenceFills cmd side price, lists side price, List.filter_filterMap,
    List.filterMap_filter]
  refine List.filterMap_congr fun order _ => ?_
  cases leaves : afterFills fills order with
  | none => simp
  | some left =>
    obtain ⟨sameSide, samePrice⟩ := afterFills_place leaves
    simp [Option.filter, sameSide, samePrice]

theorem Lists.cancel (lists : book.Lists orders) (wf : WellFormed book arrivals) (id : OrderId) :
    (book.cancel id).1.Lists (orders.filter fun order => order.id ≠ id) := by
  intro side price
  rw [wf.ordersAt_cancel, lists side price, List.filter_filter, List.filter_filter]
  exact List.filter_congr fun order _ => Bool.and_comm _ _

theorem Lists.rest (lists : book.Lists orders) (order : RestingOrder) :
    (book.rest order).Lists (orders ++ [order]) := by
  intro side price
  rw [ordersAt_rest, lists side price, List.filter_append]
  refine congrArg _ ?_
  rw [List.filter_cons, List.filter_nil]
  refine if_congr ?_ rfl rfl
  rw [decide_eq_true_eq]
  exact and_congr eq_comm eq_comm

end OrderBook

/-! ### The refinement -/

/-- The venue's view of an engine: the same counters, the same prices told, the same orders at rest. -/
structure Flattens (venue : FlatVenue) (engine : MatchingEngine) : Prop where
  instrument : venue.instrument = engine.instrument
  commandSeq : venue.commandSeq = engine.commandSeq
  eventSeq : venue.eventSeq = engine.eventSeq
  arrivalCounter : venue.arrivalCounter = engine.arrivalCounter
  published : venue.published = engine.lastTop
  orders : engine.book.Lists venue.orders

namespace Flattens

variable {venue : FlatVenue} {engine : MatchingEngine}

theorem top (flat : Flattens venue engine) {arrivals : Nat} (wf : engine.book.WellFormed arrivals) :
    venue.top = engine.book.top :=
  (flat.orders.topOf_eq wf.noEmptyLevel).symm

theorem listed (flat : Flattens venue engine) {arrivals : Nat} (wf : engine.book.WellFormed arrivals) :
    venue.orders.Perm engine.book.walk :=
  flat.orders.perm_walk wf

/-- Publishing, on both sides. -/
theorem publish (flat : Flattens venue engine) {arrivals : Nat}
    (wf : engine.book.WellFormed arrivals) :
    engine.emitTopOfBookIfChanged.2 = (venue.publish.1.report venue.publish.2).2 ∧
      Flattens (venue.publish.1.report venue.publish.2).1 engine.emitTopOfBookIfChanged.1 := by
  have tops := flat.top wf
  unfold FlatVenue.publish MatchingEngine.emitTopOfBookIfChanged
  rw [tops, flat.published]
  by_cases same : engine.book.top = engine.lastTop
  · simp only [if_pos same]
    exact ⟨rfl, { flat with }⟩
  · simp only [if_neg same]
    refine ⟨?_, { flat with eventSeq := congrArg (· + 1) flat.eventSeq, published := rfl }⟩
    rw [flat.commandSeq, flat.eventSeq]
    rfl

/-- The residual, on both sides. -/
theorem settle (flat : Flattens venue engine) (cmd : NewOrder) (residual : Quantity) :
    (engine.settleResidual cmd residual).2 =
        stamp venue.commandSeq venue.eventSeq (residualFacts cmd residual) ∧
      Flattens
        ({ venue with
            arrivalCounter := venue.arrivalCounter + (venue.rested cmd residual).length
            orders := venue.orders ++ venue.rested cmd residual }.report (residualFacts cmd residual)).1
        (engine.settleResidual cmd residual).1 := by
  unfold MatchingEngine.settleResidual
  unfold residualFacts FlatVenue.rested
  by_cases zero : residual = 0
  · simp only [zero, if_true, ne_eq, not_true_eq_false, false_and, if_false, List.append_nil]
    exact ⟨rfl, { flat with }⟩
  · cases rests : MatchingEngine.canRest cmd with
    | false =>
      simp only [zero, if_false, ne_eq, not_false_eq_true, Bool.false_eq_true, and_false,
        List.append_nil]
      refine ⟨?_, { flat with eventSeq := congrArg (· + 1) flat.eventSeq }⟩
      rw [flat.commandSeq, flat.eventSeq]
      rfl
    | true =>
      simp only [zero, if_false, if_true, ne_eq, not_false_eq_true, and_self]
      refine ⟨?_, { flat with
        eventSeq := congrArg (· + 1) flat.eventSeq
        arrivalCounter := congrArg (· + 1) flat.arrivalCounter
        orders := ?_ }⟩
      · rw [flat.commandSeq, flat.eventSeq]
        rfl
      · rw [flat.arrivalCounter]
        exact flat.orders.rest _

theorem rejectReason (flat : Flattens venue engine) {arrivals : Nat}
    (wf : engine.book.WellFormed arrivals) (cmd : NewOrder) :
    venue.rejectReason cmd = engine.rejectReason cmd := by
  unfold FlatVenue.rejectReason MatchingEngine.rejectReason
  rw [flat.instrument, wf.any_listed (flat.listed wf)]

/-- `result` is what the engine makes of a command that the venue answers: `settled` is the engine before
it publishes. -/
def Answers (answer : FlatVenue × List Fact) (result : MatchingEngine × EventList) : Prop :=
  ∃ settled, result = (settled.emitTopOfBookIfChanged.1,
      (answer.1.report answer.2).2 ++ settled.emitTopOfBookIfChanged.2) ∧
    Flattens (answer.1.report answer.2).1 settled ∧ settled.book.WellFormed settled.arrivalCounter

/-- A single fact that changes nothing but the event counter: there is nothing to publish. -/
theorem answers_single (flat : Flattens venue engine) (consistent : engine.Consistent) (fact : Fact) :
    Answers (venue, [fact]) (engine.emit fact) := by
  refine ⟨{ engine with eventSeq := engine.eventSeq + 1 }, ?_,
    { flat with eventSeq := congrArg (· + 1) flat.eventSeq }, consistent.book⟩
  have quiet : ({ engine with eventSeq := engine.eventSeq + 1 } : MatchingEngine).emitTopOfBookIfChanged =
      ({ engine with eventSeq := engine.eventSeq + 1 }, []) := if_pos consistent.lastTop.symm
  rw [quiet]
  unfold FlatVenue.report
  rw [flat.commandSeq, flat.eventSeq]
  rfl

/-- **One order, on both sides**, up to the best prices. -/
theorem newOrder (flat : Flattens venue engine) (consistent : engine.Consistent) (cmd : NewOrder) :
    Answers (venue.newOrder cmd) (engine.applyNewOrder cmd) := by
  have wf := consistent.book
  have reasons := flat.rejectReason wf cmd
  unfold FlatVenue.newOrder
  by_cases accepted : engine.rejectReason cmd = .none
  · simp only [reasons, accepted, ne_eq, not_true_eq_false, if_false]
    -- The venue sorts its list into the book's order, so both fill the same orders.
    have fills : referenceFills cmd (onSide (opposite cmd.side) venue.orders) =
        referenceFills cmd (engine.book.restingOrders (opposite cmd.side)) := by
      unfold referenceFills
      rw [wf.insertionSort_onSide (flat.listed wf), wf.insertionSort_restingOrders]
    have settledWf := MatchingEngine.settled_wellFormed consistent accepted
    have swept := flat.orders.applyFills wf cmd
    rw [MatchingEngine.applyNewOrder_eq engine wf accepted, fills]
    generalize referenceFills cmd (engine.book.restingOrders (opposite cmd.side)) = reference at *
    obtain ⟨done, residual⟩ := reference
    have traded : Flattens
        ({ venue with orders := venue.orders.filterMap (afterFills done) }.report
          (acceptedFact cmd :: done.map (tradeFact cmd))).1
        (({ engine with eventSeq := engine.eventSeq + 1 } : MatchingEngine).afterTrades done) := by
      refine { flat with eventSeq := ?_, orders := swept }
      unfold FlatVenue.report MatchingEngine.afterTrades
      simp only [List.length_cons, List.length_map, flat.eventSeq]
      omega
    obtain ⟨told, settled⟩ := traded.settle cmd residual
    refine ⟨_, Prod.ext rfl ?_, { settled with eventSeq := ?_ }, settledWf⟩
    · have first : stamp venue.commandSeq venue.eventSeq (acceptedFact cmd :: done.map (tradeFact cmd)) =
          acceptedFact cmd { commandSeq := engine.commandSeq, eventSeq := engine.eventSeq + 1 } ::
            (tradesOf cmd engine.commandSeq (engine.eventSeq + 1) done).map .trade := by
        rw [stamp, stamp_trades, flat.commandSeq, flat.eventSeq]
      show _ = stamp venue.commandSeq venue.eventSeq
        ((acceptedFact cmd :: done.map (tradeFact cmd)) ++ residualFacts cmd residual) ++ _
      rw [stamp_append, first]
      exact congrArg (fun events => _ ++ events ++ _) told
    · refine Eq.trans ?_ settled.eventSeq
      unfold FlatVenue.report
      simp only
      rw [List.length_append, Nat.add_assoc]
  · have refused : engine.applyNewOrder cmd = engine.emit fun header =>
        .orderRejected { header, id := cmd.id, reason := engine.rejectReason cmd } := if_pos accepted
    simp only [reasons, ne_eq, accepted, not_false_eq_true, if_true]
    rw [refused]
    exact flat.answers_single consistent _

/-- **One cancel, on both sides**, up to the best prices. -/
theorem cancelOrder (flat : Flattens venue engine) (consistent : engine.Consistent) (cmd : CancelOrder) :
    Answers (venue.cancelOrder cmd) (engine.applyCancel cmd) := by
  have wf := consistent.book
  have left := flat.orders.cancel wf cmd.id
  have kept := wf.cancel cmd.id
  unfold FlatVenue.cancelOrder MatchingEngine.applyCancel
  rw [wf.find?_listed (flat.listed wf)]
  generalize engine.book.cancel cmd.id = result at left kept
  obtain ⟨book, removed⟩ := result
  cases removed with
  | none => exact flat.answers_single consistent _
  | some order =>
    refine ⟨{ engine with book, eventSeq := engine.eventSeq + 1 }, ?_,
      { flat with eventSeq := congrArg (· + 1) flat.eventSeq, orders := left }, kept⟩
    rw [flat.commandSeq, flat.eventSeq]
    rfl

/-- **One command, on both sides.** -/
theorem apply (flat : Flattens venue engine) (consistent : engine.Consistent) (cmd : Command) :
    (engine.apply cmd).2 = (venue.apply cmd).2 ∧ Flattens (venue.apply cmd).1 (engine.apply cmd).1 := by
  have counted : Flattens { venue with commandSeq := venue.commandSeq + 1 }
      { engine with commandSeq := engine.commandSeq + 1 } :=
    { flat with commandSeq := congrArg (· + 1) flat.commandSeq }
  have sound : MatchingEngine.Consistent { engine with commandSeq := engine.commandSeq + 1 } :=
    ⟨consistent.book, consistent.lastTop⟩
  have answers :
      Answers ({ venue with commandSeq := venue.commandSeq + 1 }.answer cmd) (engine.apply cmd) := by
    cases cmd with
    | newOrder order => exact counted.newOrder sound order
    | cancelOrder cancel => exact counted.cancelOrder sound cancel
  obtain ⟨settled, equation, flat', wf⟩ := answers
  obtain ⟨told, published⟩ := flat'.publish wf
  rw [equation]
  exact ⟨congrArg _ told, published⟩

theorem applyAll (flat : Flattens venue engine) (consistent : engine.Consistent) (cmds : List Command) :
    (engine.applyAll cmds).2 = (venue.applyAll cmds).2 ∧
      Flattens (venue.applyAll cmds).1 (engine.applyAll cmds).1 := by
  induction cmds generalizing venue engine with
  | nil => exact ⟨rfl, flat⟩
  | cons cmd rest ih =>
    obtain ⟨events, after⟩ := flat.apply consistent cmd
    obtain ⟨more, last⟩ := ih after (MatchingEngine.apply_consistent consistent cmd)
    refine ⟨?_, last⟩
    show (engine.apply cmd).2 ++ ((engine.apply cmd).1.applyAll rest).2 =
      (venue.apply cmd).2 ++ ((venue.apply cmd).1.applyAll rest).2
    rw [events, more]

end Flattens

theorem flattens_fresh (instrument : InstrumentId) :
    Flattens { instrument := instrument } { instrument := instrument } :=
  ⟨rfl, rfl, rfl, rfl, rfl, fun side _ => by cases side <;> rfl⟩

/-- **The engine is a flat venue.** Whatever commands a fresh engine is given, its event stream is the
venue's, event by event and number by number, and what rests in its book is what the venue's list
holds. -/
theorem applyAll_flat (instrument : InstrumentId) (cmds : List Command) :
    (MatchingEngine.applyAll { instrument } cmds).2 = (FlatVenue.applyAll { instrument } cmds).2 ∧
      Flattens (FlatVenue.applyAll { instrument } cmds).1 (MatchingEngine.replay instrument cmds) :=
  (flattens_fresh instrument).applyAll (MatchingEngine.consistent_fresh instrument) cmds

end Sententia
