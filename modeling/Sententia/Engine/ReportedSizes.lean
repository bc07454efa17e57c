/-
**The sizes an engine reports, against the exact sums.** `top` and `quantityAt` add up a level in a 64-bit
accumulator, and any 64-bit quantity is accepted, so a level can hold more than its size can say.

* `toNat_queueQuantity` — a reported size is the exact sum modulo `2 ^ 64`.
* `SizeFits` — what a command must meet: an accepted good-till-cancel limit order joins a level whose exact
  total leaves room for its quantity.
* `reports_exact_iff` — the reports of a run are exact throughout exactly if every command meets it.

The condition reads the whole quantity of the order and not its residual. That loses nothing: an order
that trades before it rests joins an empty level, the book being uncrossed.
-/

import Mathlib.Algebra.Group.Nat.Defs
import Sententia.Engine.RestingQuantity
import Sententia.Library.Transition

namespace Sententia

open Library

/-! ### Exact totals -/

namespace OrderBook

/-- The exact sum of the quantities that rest at a price. -/
def levelTotal (book : OrderBook) (side : Side) (price : Price) : Nat :=
  totalQuantity ((book.ordersAt side price).map (·.quantity))

/-- Every level's exact total is one a 64-bit size can say. -/
def LevelsFit (book : OrderBook) : Prop := ∀ side price, book.levelTotal side price < 2 ^ 64

/-- **A reported size is the exact sum modulo `2 ^ 64`.** -/
theorem toNat_queueQuantity (queue : OrderQueue) :
    (queueQuantity queue).toNat = totalQuantity ((queue.map (·.order)).map (·.quantity)) % 2 ^ 64 := by
  have along : ∀ (queue : OrderQueue) (start : Quantity),
      (queue.foldl (fun total node => total + node.order.quantity) start).toNat =
        (start.toNat + totalQuantity ((queue.map (·.order)).map (·.quantity))) % 2 ^ 64 := by
    intro queue
    induction queue with
    | nil => exact fun start => (Nat.mod_eq_of_lt start.toNat_lt).symm
    | cons node rest ih =>
      intro start
      rw [List.foldl_cons, ih, UInt64.toNat_add, Nat.mod_add_mod, List.map_cons, List.map_cons,
        totalQuantity_cons, Nat.add_assoc]
  refine (along queue 0).trans ?_
  rw [UInt64.toNat_zero, Nat.zero_add]

theorem toNat_quantityAt (book : OrderBook) (side : Side) (price : Price) :
    (book.quantityAt side price).toNat = book.levelTotal side price % 2 ^ 64 := by
  unfold quantityAt levelTotal ordersAt queueAt
  cases (book.levels side).find? price with
  | none => rfl
  | some queue => exact toNat_queueQuantity queue

/-- The sizes are exact at every price exactly if every level's total fits. -/
theorem quantityAt_exact_iff (book : OrderBook) :
    (∀ side price, (book.quantityAt side price).toNat = book.levelTotal side price) ↔ book.LevelsFit := by
  constructor
  · intro exactly side price
    rw [← exactly side price]
    exact UInt64.toNat_lt _
  · intro fits side price
    rw [toNat_quantityAt, Nat.mod_eq_of_lt (fits side price)]

end OrderBook

/-- A top of book with sizes that cannot wrap. -/
structure ExactTop where
  hasBid : Bool
  bidPrice : Price
  bidQuantity : Nat
  hasAsk : Bool
  askPrice : Price
  askQuantity : Nat
deriving DecidableEq

/-- The sizes a top of book reports, as numbers. -/
def TopOfBook.reported (top : TopOfBook) : ExactTop where
  hasBid := top.hasBid
  bidPrice := top.bidPrice
  bidQuantity := top.bidQuantity.toNat
  hasAsk := top.hasAsk
  askPrice := top.askPrice
  askQuantity := top.askQuantity.toNat

/-- The top of book that an event publishes. -/
def TopOfBookChanged.top (event : TopOfBookChanged) : TopOfBook where
  hasBid := event.hasBid
  bidPrice := event.bidPrice
  bidQuantity := event.bidQuantity
  hasAsk := event.hasAsk
  askPrice := event.askPrice
  askQuantity := event.askQuantity

namespace OrderBook

/-- The best prices with the exact sum of what rests there. -/
def exactTop (book : OrderBook) : ExactTop where
  hasBid := book.bestBid.isSome
  bidPrice := book.bestBid.getD 0
  bidQuantity := (book.bestBid.map (book.levelTotal .buy)).getD 0
  hasAsk := book.bestAsk.isSome
  askPrice := book.bestAsk.getD 0
  askQuantity := (book.bestAsk.map (book.levelTotal .sell)).getD 0

/-- The best level of a side: what `top` reads of it. -/
theorem toNat_best {book : OrderBook} {side : Side} {price : Price} {queue : OrderQueue}
    {rest : List (Price × OrderQueue)} (entries : (book.levels side).entries = (price, queue) :: rest) :
    (queueQuantity queue).toNat = book.levelTotal side price % 2 ^ 64 := by
  rw [toNat_queueQuantity]
  unfold levelTotal ordersAt
  rw [queueAt_of_find? ((book.levels side).find?_front entries)]

theorem reported_top {book : OrderBook} (fits : book.LevelsFit) : book.top.reported = book.exactTop := by
  unfold exactTop bestBid bestAsk bestPrice top
  cases bids : book.bids.entries with
  | nil =>
    cases asks : book.asks.entries with
    | nil => simp [TopOfBook.reported, levels, bids, asks]
    | cons ask asks' =>
      obtain ⟨askPrice, askQueue⟩ := ask
      have size := toNat_best (show (book.levels .sell).entries = _ from asks)
      rw [Nat.mod_eq_of_lt (fits _ _)] at size
      simp [TopOfBook.reported, levels, bids, asks, size]
  | cons bid bids' =>
    obtain ⟨bidPrice, bidQueue⟩ := bid
    have size := toNat_best (show (book.levels .buy).entries = _ from bids)
    rw [Nat.mod_eq_of_lt (fits _ _)] at size
    cases asks : book.asks.entries with
    | nil => simp [TopOfBook.reported, levels, bids, asks, size]
    | cons ask asks' =>
      obtain ⟨askPrice, askQueue⟩ := ask
      have size' := toNat_best (show (book.levels .sell).entries = _ from asks)
      rw [Nat.mod_eq_of_lt (fits _ _)] at size'
      simp [TopOfBook.reported, levels, bids, asks, size, size']

end OrderBook

namespace MatchingEngine

/-! ### The top of book within a group of events -/

theorem mem_topChange {before after : MatchingEngine} {events : EventList} {event : TopOfBookChanged}
    (published : TopChange before after events) (member : .topOfBookChanged event ∈ events) :
    event.top = after.book.top := by
  unfold TopChange at published
  split_ifs at published
  · rw [published] at member
    cases member
  · obtain ⟨header, rfl⟩ := published
    rw [Event.topOfBookChanged.inj (List.mem_singleton.mp member)]
    rfl

theorem topChange_of_ne {before after : MatchingEngine} {events : EventList}
    (published : TopChange before after events) (moved : after.book.top ≠ before.book.top) :
    ∃ event, .topOfBookChanged event ∈ events := by
  unfold TopChange at published
  rw [if_neg moved] at published
  obtain ⟨header, rfl⟩ := published
  exact ⟨_, List.mem_cons_self⟩

theorem not_mem_settled {quantity : Quantity} {list : List Trade} {events : EventList}
    (settled : Settled quantity list events) (event : TopOfBookChanged) :
    .topOfBookChanged event ∉ events := by
  unfold Settled at settled
  split_ifs at settled
  · rw [settled]
    exact List.not_mem_nil
  · rcases settled with ⟨_, rfl⟩ | ⟨_, rfl, _⟩
    · exact fun member => nomatch List.mem_singleton.mp member
    · exact fun member => nomatch List.mem_singleton.mp member

/-- The top that a group publishes is the one after its command. -/
theorem Shape.top_of_mem {before after : MatchingEngine} {cmd : Command} {events : EventList}
    (shape : Shape before after cmd events) {event : TopOfBookChanged}
    (member : .topOfBookChanged event ∈ events) : event.top = after.book.top := by
  cases shape with
  | orderRejected => cases List.mem_singleton.mp member
  | cancelRejected => cases List.mem_singleton.mp member
  | orderCancelled _ _ top _ published =>
    rcases List.mem_cons.mp member with first | last
    · cases first
    · exact mem_topChange published last
  | orderAccepted _ _ list residual top settled published =>
    rcases List.mem_append.mp member with early | last
    · rcases List.mem_append.mp early with front | inResidual
      · rcases List.mem_cons.mp front with first | trade
        · cases first
        · obtain ⟨_, _, same⟩ := List.mem_map.mp trade
          cases same
      · exact absurd inResidual (not_mem_settled settled event)
    · exact mem_topChange published last

/-- A command that moves the top publishes it. -/
theorem Shape.exists_top {before after : MatchingEngine} {cmd : Command} {events : EventList}
    (shape : Shape before after cmd events) (moved : after.book.top ≠ before.book.top) :
    ∃ event, .topOfBookChanged event ∈ events := by
  cases shape with
  | orderRejected _ _ kept => exact absurd (congrArg OrderBook.top kept.book) moved
  | cancelRejected _ _ kept => exact absurd (congrArg OrderBook.top kept.book) moved
  | orderCancelled _ _ top _ published =>
    obtain ⟨event, member⟩ := topChange_of_ne published moved
    exact ⟨event, List.mem_cons_of_mem _ member⟩
  | orderAccepted _ _ list residual top settled published =>
    obtain ⟨event, member⟩ := topChange_of_ne published moved
    exact ⟨event, List.mem_append_right _ member⟩

/-! ### What a command does to the totals -/

/-- What is left of an order is no more than it was. -/
theorem afterFills_quantity {book : OrderBook} {arrivals : Nat} (wf : book.WellFormed arrivals)
    {fills : List (RestingOrder × Quantity)}
    (sound : ∀ fill ∈ fills, fill.1 ∈ book.walk ∧ fill.2 ≤ fill.1.quantity ∧ fill.2 ≠ 0)
    {side : Side} {price : Price} {order left : RestingOrder} (resting : order ∈ book.ordersAt side price)
    (remains : afterFills fills order = some left) : left.quantity.toNat ≤ order.quantity.toNat := by
  have fits : filledQuantity fills order.id ≤ order.quantity := by
    unfold filledQuantity
    cases found : fills.find? fun fill => fill.1.id = order.id with
    | none => exact UInt64.zero_le
    | some fill =>
      obtain ⟨known, within, _⟩ := sound fill (List.mem_of_find?_eq_some found)
      have sameId := List.find?_some found
      simp only [decide_eq_true_eq] at sameId
      obtain ⟨_, _, resting'⟩ := OrderBook.mem_walk.mp known
      obtain ⟨node, inQueue, same⟩ := List.mem_map.mp resting
      obtain ⟨node', inQueue', same'⟩ := List.mem_map.mp resting'
      rw [← same, ← same'] at sameId
      rw [← same', (wf.eq_of_id inQueue' inQueue sameId).2.2, same] at within
      exact within
  unfold afterFills at remains
  simp only at remains
  split_ifs at remains
  cases remains
  show (order.quantity - filledQuantity fills order.id).toNat ≤ _
  rw [UInt64.toNat_sub_of_le _ _ fits]
  exact Nat.sub_le _ _

theorem totalQuantity_filterMap_le {orders : List RestingOrder} {rest : RestingOrder → Option RestingOrder}
    (less : ∀ order ∈ orders, ∀ left, rest order = some left → left.quantity.toNat ≤ order.quantity.toNat) :
    totalQuantity ((orders.filterMap rest).map (·.quantity)) ≤ totalQuantity (orders.map (·.quantity)) := by
  induction orders with
  | nil => exact Nat.le_refl _
  | cons order others ih =>
    have later := ih fun order' member => less order' (List.mem_cons_of_mem _ member)
    rw [List.map_cons, totalQuantity_cons]
    cases left : rest order with
    | none =>
      rw [List.filterMap_cons_none left]
      omega
    | some remaining =>
      have bound := less order List.mem_cons_self remaining left
      rw [List.filterMap_cons_some left, List.map_cons, totalQuantity_cons]
      omega

theorem levelTotal_cancel {book : OrderBook} {arrivals : Nat} (wf : book.WellFormed arrivals) (id : OrderId)
    (side : Side) (price : Price) :
    (book.cancel id).1.levelTotal side price ≤ book.levelTotal side price := by
  unfold OrderBook.levelTotal
  rw [wf.ordersAt_cancel, ← List.filterMap_eq_filter]
  refine totalQuantity_filterMap_le fun order _ left kept => ?_
  rw [(Option.guard_eq_some_iff.mp kept).1]

/-- A fill means that the order's own side has nothing at its limit. -/
theorem own_level_empty {book : OrderBook} {arrivals : Nat} (wf : book.WellFormed arrivals) {cmd : NewOrder}
    (limit : cmd.type = .limit) {fill : RestingOrder × Quantity}
    (filled : fill ∈ (referenceFills cmd (book.restingOrders (opposite cmd.side))).1) :
    book.ordersAt cmd.side cmd.price = [] := by
  have listed : fill.1 ∈ ((book.restingOrders (opposite cmd.side)).insertionSort _).filter _ :=
    (fillGreedy_orders _ _).subset (List.mem_map_of_mem filled)
  obtain ⟨sorted, crossing⟩ := List.mem_filter.mp listed
  rw [wf.insertionSort_restingOrders] at sorted
  obtain ⟨price, orderAt⟩ := OrderBook.mem_restingOrders.mp sorted
  obtain ⟨node, inQueue, same⟩ := List.mem_map.mp orderAt
  rw [decide_eq_true_eq, ← same, (wf.placed inQueue).2, ← crosses_iff, limit] at crossing
  by_contra notEmpty
  have own : book.queueAt cmd.side cmd.price ≠ [] := fun empty => notEmpty (by
    unfold OrderBook.ordersAt
    rw [empty]
    rfl)
  have swept := List.ne_nil_of_mem inQueue
  cases side : cmd.side with
  | buy =>
    rw [side] at own swept crossing
    exact Int64.not_le.mpr (wf.uncrossed own swept) (of_decide_eq_true crossing)
  | sell =>
    rw [side] at own swept crossing
    exact Int64.not_le.mpr (wf.uncrossed swept own) (of_decide_eq_true crossing)

/-- **What keeps the totals within 64 bits.** -/
def SizeFits (engine : MatchingEngine) : Command → Prop
  | .newOrder order => engine.rejectReason order = .none → canRest order →
      engine.book.levelTotal order.side order.price + order.quantity.toNat < 2 ^ 64
  | .cancelOrder _ => True

theorem levelsFit_newOrder {engine : MatchingEngine} (consistent : engine.Consistent)
    (fits : engine.book.LevelsFit) (order : NewOrder) :
    engine.SizeFits (.newOrder order) ↔ (engine.apply (.newOrder order)).1.book.LevelsFit := by
  by_cases accepted : engine.rejectReason order = .none
  · have wf := consistent.book
    have refines := consistent.apply_newOrder_refines accepted
    have sound := wf.referenceFills_sound order
    have total := referenceFills_total order (engine.book.restingOrders (opposite order.side))
    have empty : canRest order → (referenceFills order
        (engine.book.restingOrders (opposite order.side))).1 ≠ [] →
          engine.book.ordersAt order.side order.price = [] := by
      intro rests notEmpty
      obtain ⟨fill, filled⟩ := List.exists_mem_of_ne_nil _ notEmpty
      exact own_level_empty wf (of_decide_eq_true rests).1 filled
    generalize referenceFills order (engine.book.restingOrders (opposite order.side)) = reference at *
    obtain ⟨fills, residual⟩ := reference
    dsimp only at refines sound total empty
    have swept : ∀ price, (engine.apply (.newOrder order)).1.book.levelTotal (opposite order.side) price ≤
        engine.book.levelTotal (opposite order.side) price := by
      intro price
      unfold OrderBook.levelTotal
      rw [refines.swept]
      exact totalQuantity_filterMap_le fun resting member left remains =>
        afterFills_quantity wf sound member remains
    have own : ∀ price, (engine.apply (.newOrder order)).1.book.levelTotal order.side price =
        engine.book.levelTotal order.side price +
          if residual ≠ 0 ∧ order.type = .limit ∧ order.tif = .goodTillCancel ∧ price = order.price then
            residual.toNat
          else 0 := by
      intro price
      unfold OrderBook.levelTotal
      rw [refines.own, List.map_append, totalQuantity_append]
      split_ifs <;> simp [residualOrder]
    constructor
    · intro room side price
      rcases eq_or_eq_opposite order.side side with rfl | rfl
      · rw [own]
        split_ifs with rests
        · obtain ⟨_, limit, tif, rfl⟩ := rests
          have bound := room accepted (decide_eq_true ⟨limit, tif⟩)
          omega
        · exact fits _ _
      · exact Nat.lt_of_le_of_lt (swept price) (fits _ _)
    · intro fits' _ rests
      by_cases untouched : fills = []
      · have whole : residual.toNat = order.quantity.toNat := by
          rw [untouched] at total
          simpa using total
        have positive : residual ≠ 0 := by
          rintro rfl
          exact (rejectReason_eq_none accepted).1 (UInt64.toNat_inj.mp whole.symm)
        obtain ⟨limit, tif⟩ := of_decide_eq_true rests
        have bound := fits' order.side order.price
        rw [own, if_pos ⟨positive, limit, tif, rfl⟩] at bound
        omega
      · have nothing : engine.book.levelTotal order.side order.price = 0 := by
          unfold OrderBook.levelTotal
          rw [empty rests untouched]
          rfl
        have bound := order.quantity.toNat_lt
        omega
  · rw [apply_newOrder_rejected accepted]
    exact iff_of_true (fun passes => absurd passes accepted) fits

theorem apply_cancel_book {engine : MatchingEngine} (cancel : CancelOrder) :
    (engine.apply (.cancelOrder cancel)).1.book = (engine.book.cancel cancel.id).1 := by
  have unknown : (engine.book.cancel cancel.id).2 = none → (engine.book.cancel cancel.id).1 = engine.book := by
    unfold OrderBook.cancel
    split
    · exact fun _ => rfl
    · split
      · exact fun _ => rfl
      · exact fun removed => by cases removed
  show (applyCancel _ cancel).1.book = _
  unfold applyCancel
  dsimp only
  generalize engine.book.cancel cancel.id = result at unknown
  obtain ⟨book, removed⟩ := result
  cases removed with
  | none => exact (unknown rfl).symm
  | some order => exact emitTopOfBookIfChanged_book _

theorem levelsFit_apply {engine : MatchingEngine} (consistent : engine.Consistent)
    (fits : engine.book.LevelsFit) (cmd : Command) :
    engine.SizeFits cmd ↔ (engine.apply cmd).1.book.LevelsFit := by
  cases cmd with
  | newOrder order => exact levelsFit_newOrder consistent fits order
  | cancelOrder cancel =>
    refine iff_of_true trivial fun side price => ?_
    rw [apply_cancel_book]
    exact Nat.lt_of_le_of_lt (levelTotal_cancel consistent.book cancel.id side price) (fits side price)

/-! ### The reports of a run -/

/-- An engine with the command it has just applied: the state before, and the events. -/
structure Reporting where
  previous : MatchingEngine
  engine : MatchingEngine
  events : EventList

namespace Reporting

def fresh (instrument : InstrumentId) : Reporting := ⟨{ instrument }, { instrument }, []⟩

def step (moment : Reporting) (cmd : Command) : Option Reporting :=
  some ⟨moment.engine, (moment.engine.apply cmd).1, (moment.engine.apply cmd).2⟩

/-- **Every size reported now is exact**, and a change of the exact top has been published. -/
structure Exact (moment : Reporting) : Prop where
  quantityAt : ∀ side price, (moment.engine.book.quantityAt side price).toNat =
    moment.engine.book.levelTotal side price
  top : moment.engine.book.top.reported = moment.engine.book.exactTop
  published : ∀ event, .topOfBookChanged event ∈ moment.events →
    event.top.reported = moment.engine.book.exactTop
  unsuppressed : moment.engine.book.exactTop ≠ moment.previous.book.exactTop →
    ∃ event, .topOfBookChanged event ∈ moment.events

/-- After a command, the reports are exact exactly if the totals fit. -/
theorem exact_step_iff {moment next : Reporting} {cmd : Command} (consistent : moment.engine.Consistent)
    (fits : moment.engine.book.LevelsFit) (enabled : moment.step cmd = some next) :
    next.Exact ↔ next.engine.book.LevelsFit := by
  obtain rfl := Option.some.inj enabled
  have shape := apply_shape consistent cmd
  constructor
  · intro exactly
    exact (OrderBook.quantityAt_exact_iff _).mp exactly.quantityAt
  · intro fits'
    refine ⟨(OrderBook.quantityAt_exact_iff _).mpr fits', OrderBook.reported_top fits', ?_, ?_⟩
    · intro event member
      rw [shape.top_of_mem member]
      exact OrderBook.reported_top fits'
    · intro moved
      refine shape.exists_top fun same => moved ?_
      rw [← OrderBook.reported_top fits', ← OrderBook.reported_top fits, same]

/-- **The reports of a run are exact throughout** exactly if every command of it leaves room in its
level. -/
theorem reports_exact_iff (instrument : InstrumentId) (cmds : List Command) :
    Always step Exact (fresh instrument) cmds ↔
      Guarded step (fun moment cmd => moment.engine.SizeFits cmd) (fresh instrument) cmds := by
  refine always_iff_guarded (fun moment => moment.engine.Consistent) cmds ?_ ?_
    (consistent_fresh instrument) ?_
  · intro moment cmd next consistent _ enabled
    obtain rfl := Option.some.inj enabled
    exact apply_consistent consistent cmd
  · intro moment cmd consistent exactly
    have fits := (OrderBook.quantityAt_exact_iff _).mp exactly.quantityAt
    rw [levelsFit_apply consistent fits cmd]
    constructor
    · intro fits' next enabled
      obtain rfl := Option.some.inj enabled
      exact (exact_step_iff consistent fits rfl).mpr fits'
    · intro later
      exact (exact_step_iff consistent fits rfl).mp (later _ rfl)
  · have nothing : ({} : OrderBook).LevelsFit := by
      intro side price
      cases side <;> exact Nat.zero_lt_succ _
    exact ⟨(OrderBook.quantityAt_exact_iff _).mpr nothing, OrderBook.reported_top nothing,
      fun event member => absurd member List.not_mem_nil, fun moved => absurd rfl moved⟩

/-- Two asks of `2 ^ 63` at one price. -/
def halfAsks : List Command :=
  [1, 2].map fun id => .newOrder
    { id
      instrument := 1
      side := .sell
      type := .limit
      tif := .goodTillCancel
      price := 100
      quantity := 9223372036854775808 }

/-- The level of both reports a size of zero. -/
theorem reports_wrap : ¬ Always step Exact (fresh 1) halfAsks := by
  intro always
  have exactly := always halfAsks _ (List.prefix_refl _) rfl
  have size := exactly.quantityAt .sell 100
  revert size
  decide +kernel

end Reporting

end MatchingEngine

end Sententia
