/-
**Engines that cannot be told apart.** Two engines with the same counters and the same orders at every
price may keep these orders in different list nodes. No command tells them apart: it makes both emit the
same events and leaves them alike again (`Mirrors.apply`, `Mirrors.applyAll`).

A queue without its addresses is `ordersAt`; the levels without them are `ladder`. On well-formed books
equal queues give equal ladders, an index that leads to the same orders, the same top and the same
checksum.
-/

import Sententia.Engine.Refinement

namespace Sententia

open Library

namespace OrderBook

/-- The levels of a side, each with its orders, best price first. -/
def ladder (book : OrderBook) (side : Side) : OrderedMap Price (List RestingOrder) (better side) :=
  (book.levels side).project fun queue => queue.map (·.order)

/-- Where the id index leads: side, price and order. -/
def lookup (book : OrderBook) (id : OrderId) : Option (Side × Price × Option RestingOrder) :=
  (book.index.find? id).map fun loc => (loc.side, loc.price, book.deref loc)

/-- The same orders rest at every price, in the same order. -/
def Mirrors (first second : OrderBook) : Prop :=
  ∀ side price, first.ordersAt side price = second.ordersAt side price

/-! ### Reading a book through its ladder -/

theorem restingOrders_eq_ladder (book : OrderBook) (side : Side) :
    book.restingOrders side = (book.ladder side).entries.flatMap Prod.snd := by
  unfold restingOrders ladder OrderedMap.project
  rw [List.flatMap_map]

theorem queueQuantity_eq (queue : OrderQueue) :
    queueQuantity queue = (queue.map (·.order)).foldl (fun total order => total + order.quantity) 0 := by
  unfold queueQuantity
  rw [List.foldl_map]

/-- The first level as `top` reads it. -/
def bestLevel (levels : List (Price × List RestingOrder)) : Option (Price × Quantity) :=
  levels.head?.map fun level =>
    (level.1, level.2.foldl (fun total order => total + order.quantity) 0)

theorem top_eq (book : OrderBook) :
    book.top =
      { hasBid := (bestLevel (book.ladder .buy).entries).isSome
        bidPrice := ((bestLevel (book.ladder .buy).entries).map Prod.fst).getD 0
        bidQuantity := ((bestLevel (book.ladder .buy).entries).map Prod.snd).getD 0
        hasAsk := (bestLevel (book.ladder .sell).entries).isSome
        askPrice := ((bestLevel (book.ladder .sell).entries).map Prod.fst).getD 0
        askQuantity := ((bestLevel (book.ladder .sell).entries).map Prod.snd).getD 0 } := by
  have bids : (book.ladder .buy).entries =
      book.bids.entries.map fun level => (level.1, level.2.map (·.order)) := rfl
  have asks : (book.ladder .sell).entries =
      book.asks.entries.map fun level => (level.1, level.2.map (·.order)) := rfl
  rw [bids, asks]
  unfold top bestLevel
  cases book.bids.entries <;> cases book.asks.entries <;> simp [queueQuantity_eq]

theorem hashLevels_eq (host : ByteOrder) (book : OrderBook) (side : Side) (hash : UInt64) :
    hashLevels host hash (book.levels side) =
      (book.ladder side).entries.foldl (fun acc level =>
        level.2.foldl (fun acc order =>
          hashValue host (hashValue host (hashValue host acc order.id) order.quantity)
            (UInt64.ofNat order.arrival))
          (hashValue host (hashValue host acc level.1.toUInt64) (UInt64.ofNat level.2.length))) hash := by
  unfold hashLevels ladder OrderedMap.project
  simp only [List.foldl_map, List.length_map]

theorem size_ladder (book : OrderBook) (side : Side) :
    (book.ladder side).size = (book.levels side).size := by
  simp [ladder, OrderedMap.project, OrderedMap.size]

theorem checksum_congr {first second : OrderBook}
    (same : ∀ side, first.ladder side = second.ladder side) (host : ByteOrder) :
    first.checksum host = second.checksum host := by
  have sizes : ∀ side, (first.levels side).size = (second.levels side).size := by
    intro side
    rw [← size_ladder, ← size_ladder, same]
  have hashes : ∀ side hash, hashLevels host hash (first.levels side) =
      hashLevels host hash (second.levels side) := by
    intro side hash
    rw [hashLevels_eq, hashLevels_eq, same]
  have bidSizes : first.bids.size = second.bids.size := sizes .buy
  have askSizes : first.asks.size = second.asks.size := sizes .sell
  have bidHashes : ∀ hash, hashLevels host hash first.bids = hashLevels host hash second.bids :=
    hashes .buy
  have askHashes : ∀ hash, hashLevels host hash first.asks = hashLevels host hash second.asks :=
    hashes .sell
  unfold checksum
  simp only [bidSizes, askSizes, bidHashes, askHashes]

/-! ### Queues determine the rest -/

theorem find?_ladder {book : OrderBook} (holds : book.NoEmptyLevel) (side : Side) (price : Price) :
    (book.ladder side).find? price =
      if book.ordersAt side price = [] then none else some (book.ordersAt side price) := by
  unfold ladder ordersAt queueAt
  rw [OrderedMap.find?_project]
  cases found : (book.levels side).find? price with
  | none => rfl
  | some queue =>
    have notEmpty : queue ≠ [] := fun empty => holds side price (by rw [found, empty])
    simp [notEmpty]

theorem Mirrors.ladder {first second : OrderBook} (mirrors : first.Mirrors second)
    (holds : first.NoEmptyLevel) (holds' : second.NoEmptyLevel) (side : Side) :
    first.ladder side = second.ladder side := by
  refine OrderedMap.ext_find? fun price => ?_
  rw [find?_ladder holds, find?_ladder holds', mirrors side price]

theorem Mirrors.symm {first second : OrderBook} (mirrors : first.Mirrors second) :
    second.Mirrors first :=
  fun side price => (mirrors side price).symm

/-- An order found in one book is found in the other, at the same place. -/
theorem Mirrors.lookup_of_find? {first second : OrderBook} {arrivals arrivals' : Nat}
    (mirrors : first.Mirrors second) (wf : first.WellFormed arrivals) (wf' : second.WellFormed arrivals')
    {id : OrderId} {loc : Locator} (found : first.index.find? id = some loc) :
    first.lookup id = second.lookup id := by
  obtain ⟨node, member, _, sameId, target⟩ := wf.located found
  have resting : node.order ∈ second.ordersAt loc.side loc.price := by
    rw [← mirrors]
    exact List.mem_map_of_mem member
  obtain ⟨node', member', sameOrder⟩ := List.mem_map.mp resting
  have found' : second.index.find? id =
      some { side := loc.side, price := loc.price, it := node'.address } := by
    rw [← sameId, ← sameOrder]
    exact wf'.find?_of_mem member'
  obtain ⟨other, otherMember, address, _, target'⟩ := wf'.located found'
  have isNode : other = node' := wf'.eq_of_address otherMember member' address
  unfold lookup
  rw [found, found', Option.map_some, Option.map_some, target, target', isNode, sameOrder]

theorem Mirrors.lookup {first second : OrderBook} {arrivals arrivals' : Nat}
    (mirrors : first.Mirrors second) (wf : first.WellFormed arrivals) (wf' : second.WellFormed arrivals')
    (id : OrderId) : first.lookup id = second.lookup id := by
  cases found : first.index.find? id with
  | some loc => exact mirrors.lookup_of_find? wf wf' found
  | none =>
    cases found' : second.index.find? id with
    | some loc' => exact (mirrors.symm.lookup_of_find? wf' wf found').symm
    | none =>
      unfold OrderBook.lookup
      rw [found, found']
      rfl

/-! ### Cancelling -/

namespace WellFormed

variable {book : OrderBook} {arrivals : Nat}

/-- The order that `cancel` returns is the one the index leads to. -/
theorem removed_cancel (wf : WellFormed book arrivals) (id : OrderId) :
    (book.cancel id).2 = (book.lookup id).bind fun found => found.2.2 := by
  unfold OrderBook.cancel OrderBook.lookup
  cases found : book.index.find? id with
  | none => rfl
  | some loc =>
    obtain ⟨node, _, _, _, target⟩ := wf.located found
    simp only [Option.map_some, Option.bind_some, target]

/-- **What `cancel` does to every queue**: the named order leaves it. -/
theorem ordersAt_cancel (wf : WellFormed book arrivals) (id : OrderId) (side : Side) (price : Price) :
    (book.cancel id).1.ordersAt side price =
      (book.ordersAt side price).filter fun order => order.id ≠ id := by
  cases found : book.index.find? id with
  | none =>
    rw [cancel_unknown found, List.filter_eq_self.mpr]
    intro order resting
    obtain ⟨node, member, rfl⟩ := List.mem_map.mp resting
    have indexed := wf.find?_of_mem member
    rw [decide_eq_true_eq]
    rintro rfl
    rw [found] at indexed
    cases indexed
  | some loc =>
    obtain ⟨_, _, _, equation⟩ := wf.cancel_eq found
    rw [equation]
    unfold ordersAt
    rw [queueAt_eraseLocated, List.filter_map]
    split_ifs with here
    · obtain ⟨rfl, rfl⟩ := here
      refine congrArg _ (List.filter_congr fun node member => ?_)
      simp [wf.address_iff_id found member]
    · refine congrArg _ (List.filter_eq_self.mpr fun node member => ?_).symm
      obtain ⟨target, targetMember, _, sameId, _⟩ := wf.located found
      simp only [Function.comp_apply, decide_eq_true_eq]
      intro same
      obtain ⟨sameSide, samePrice, _⟩ := wf.eq_of_id member targetMember (same.trans sameId.symm)
      exact here ⟨sameSide, samePrice⟩

end WellFormed

theorem contains_eq_lookup (book : OrderBook) (id : OrderId) :
    book.contains id = (book.lookup id).isSome := by
  unfold contains OrderedMap.contains lookup
  rw [Option.isSome_map]

end OrderBook

namespace MatchingEngine

/-- The same counters, the same last top, and books with the same orders in the same order. -/
structure Mirrors (first second : MatchingEngine) : Prop where
  instrument : first.instrument = second.instrument
  commandSeq : first.commandSeq = second.commandSeq
  eventSeq : first.eventSeq = second.eventSeq
  arrivalCounter : first.arrivalCounter = second.arrivalCounter
  lastTop : first.lastTop = second.lastTop
  book : first.book.Mirrors second.book

namespace Mirrors

variable {first second : MatchingEngine}

/-! ### The steps of a command -/

theorem emit (mirrors : first.Mirrors second) (event : EventHeader → Event) :
    (first.emit event).2 = (second.emit event).2 ∧ (first.emit event).1.Mirrors (second.emit event).1 := by
  have headers : first.nextHeader.2 = second.nextHeader.2 := by
    simp [nextHeader, mirrors.commandSeq, mirrors.eventSeq]
  refine ⟨congrArg (fun header => [event header]) headers, { mirrors with eventSeq := ?_ }⟩
  exact congrArg (· + 1) mirrors.eventSeq

theorem ladder (mirrors : first.Mirrors second) {arrivals arrivals' : Nat}
    (wf : first.book.WellFormed arrivals) (wf' : second.book.WellFormed arrivals') (side : Side) :
    first.book.ladder side = second.book.ladder side :=
  mirrors.book.ladder wf.noEmptyLevel wf'.noEmptyLevel side

theorem top (mirrors : first.Mirrors second) {arrivals arrivals' : Nat}
    (wf : first.book.WellFormed arrivals) (wf' : second.book.WellFormed arrivals') :
    first.book.top = second.book.top := by
  rw [OrderBook.top_eq, OrderBook.top_eq, mirrors.ladder wf wf', mirrors.ladder wf wf']

theorem emitTopOfBookIfChanged (mirrors : first.Mirrors second) {arrivals arrivals' : Nat}
    (wf : first.book.WellFormed arrivals) (wf' : second.book.WellFormed arrivals') :
    first.emitTopOfBookIfChanged.2 = second.emitTopOfBookIfChanged.2 ∧
      first.emitTopOfBookIfChanged.1.Mirrors second.emitTopOfBookIfChanged.1 := by
  have tops := mirrors.top wf wf'
  unfold MatchingEngine.emitTopOfBookIfChanged
  rw [tops, mirrors.lastTop]
  by_cases same : second.book.top = second.lastTop
  · simp only [if_pos same]
    exact ⟨trivial, mirrors⟩
  · simp only [if_neg same]
    have published : Mirrors { first with lastTop := second.book.top }
        { second with lastTop := second.book.top } := { mirrors with lastTop := rfl }
    exact published.emit _

theorem rejectReason (mirrors : first.Mirrors second) {arrivals arrivals' : Nat}
    (wf : first.book.WellFormed arrivals) (wf' : second.book.WellFormed arrivals') (cmd : NewOrder) :
    first.rejectReason cmd = second.rejectReason cmd := by
  unfold MatchingEngine.rejectReason
  rw [mirrors.instrument, OrderBook.contains_eq_lookup, OrderBook.contains_eq_lookup,
    mirrors.book.lookup wf wf']

theorem settleResidual (mirrors : first.Mirrors second) (cmd : NewOrder) (residual : Quantity) :
    (first.settleResidual cmd residual).2 = (second.settleResidual cmd residual).2 ∧
      (first.settleResidual cmd residual).1.Mirrors (second.settleResidual cmd residual).1 := by
  unfold MatchingEngine.settleResidual
  by_cases zero : residual = 0
  · simp only [if_pos zero]
    exact ⟨trivial, mirrors⟩
  · simp only [if_neg zero]
    cases rests : canRest cmd with
    | false =>
      simp only [Bool.false_eq_true, if_false]
      exact mirrors.emit _
    | true =>
      simp only [if_true, mirrors.arrivalCounter]
      have rested : Mirrors
          { first with
            arrivalCounter := second.arrivalCounter + 1
            book := first.book.rest
              { id := cmd.id
                side := cmd.side
                price := cmd.price
                quantity := residual
                arrival := second.arrivalCounter + 1 } }
          { second with
            arrivalCounter := second.arrivalCounter + 1
            book := second.book.rest
              { id := cmd.id
                side := cmd.side
                price := cmd.price
                quantity := residual
                arrival := second.arrivalCounter + 1 } } := by
        refine { mirrors with arrivalCounter := rfl, book := fun side price => ?_ }
        rw [OrderBook.ordersAt_rest, OrderBook.ordersAt_rest, mirrors.book side price]
      exact rested.emit _

/-- The reference fills of an order. -/
theorem afterTrades (mirrors : first.Mirrors second) {arrivals arrivals' : Nat}
    (wf : first.book.WellFormed arrivals) (wf' : second.book.WellFormed arrivals') (cmd : NewOrder) :
    let reference := referenceFills cmd (first.book.restingOrders (opposite cmd.side))
    referenceFills cmd (second.book.restingOrders (opposite cmd.side)) = reference ∧
      (first.afterTrades reference.1).Mirrors (second.afterTrades reference.1) := by
  have resting : second.book.restingOrders (opposite cmd.side) =
      first.book.restingOrders (opposite cmd.side) := by
    rw [OrderBook.restingOrders_eq_ladder, OrderBook.restingOrders_eq_ladder, mirrors.ladder wf wf']
  refine ⟨by rw [resting], { mirrors with eventSeq := ?_, book := fun side price => ?_ }⟩
  · exact congrArg (· + _) mirrors.eventSeq
  · have swept := wf.ordersAt_referenceFills cmd side price
    have swept' := wf'.ordersAt_referenceFills cmd side price
    rw [resting] at swept'
    exact swept.trans (by rw [mirrors.book side price]; exact swept'.symm)

/-! ### Commands -/

theorem applyNewOrder (mirrors : first.Mirrors second) (consistent : first.Consistent)
    (consistent' : second.Consistent) (cmd : NewOrder) :
    (first.applyNewOrder cmd).2 = (second.applyNewOrder cmd).2 ∧
      (first.applyNewOrder cmd).1.Mirrors (second.applyNewOrder cmd).1 := by
  have reasons := mirrors.rejectReason consistent.book consistent'.book cmd
  by_cases accepted : second.rejectReason cmd = .none
  · have accepted' := reasons.trans accepted
    rw [applyNewOrder_eq first consistent.book accepted', applyNewOrder_eq second consistent'.book accepted]
    have started : Mirrors { first with eventSeq := first.eventSeq + 1 }
        { second with eventSeq := second.eventSeq + 1 } :=
      { mirrors with eventSeq := congrArg (· + 1) mirrors.eventSeq }
    obtain ⟨sameFills, traded⟩ := started.afterTrades consistent.book consistent'.book cmd
    dsimp only at sameFills traded
    simp only [sameFills]
    obtain ⟨sameResidual, settled⟩ := traded.settleResidual cmd
      (referenceFills cmd (first.book.restingOrders (opposite cmd.side))).2
    have wf := settled_wellFormed consistent accepted'
    have wf' := settled_wellFormed consistent' accepted
    rw [sameFills] at wf'
    obtain ⟨sameTop, published⟩ := settled.emitTopOfBookIfChanged wf wf'
    refine ⟨?_, published⟩
    rw [sameResidual, sameTop, mirrors.commandSeq, mirrors.eventSeq]
  · unfold MatchingEngine.applyNewOrder
    simp only [ne_eq, accepted, not_false_eq_true, if_true, reasons]
    exact mirrors.emit _

theorem applyCancel (mirrors : first.Mirrors second) (consistent : first.Consistent)
    (consistent' : second.Consistent) (cmd : CancelOrder) :
    (first.applyCancel cmd).2 = (second.applyCancel cmd).2 ∧
      (first.applyCancel cmd).1.Mirrors (second.applyCancel cmd).1 := by
  have wf := consistent.book.cancel cmd.id
  have wf' := consistent'.book.cancel cmd.id
  have removed : (first.book.cancel cmd.id).2 = (second.book.cancel cmd.id).2 := by
    rw [consistent.book.removed_cancel, consistent'.book.removed_cancel,
      mirrors.book.lookup consistent.book consistent'.book]
  have left : (first.book.cancel cmd.id).1.Mirrors (second.book.cancel cmd.id).1 := by
    intro side price
    rw [consistent.book.ordersAt_cancel, consistent'.book.ordersAt_cancel, mirrors.book side price]
  unfold MatchingEngine.applyCancel
  generalize first.book.cancel cmd.id = result at wf removed left
  generalize second.book.cancel cmd.id = result' at wf' removed left
  obtain ⟨book, order⟩ := result
  obtain ⟨book', order'⟩ := result'
  obtain rfl : order = order' := removed
  cases order with
  | none => exact mirrors.emit _
  | some order =>
    have without : Mirrors { first with book } { second with book := book' } :=
      { mirrors with book := left }
    obtain ⟨sameCancel, cancelled⟩ := without.emit fun header => .orderCancelled
      { header
        id := order.id
        side := order.side
        price := order.price
        remaining := order.quantity
        engineInitiated := false }
    obtain ⟨sameTop, published⟩ := cancelled.emitTopOfBookIfChanged wf wf'
    exact ⟨congrArg₂ (· ++ ·) sameCancel sameTop, published⟩

/-- **No command tells the engines apart.** -/
theorem apply (mirrors : first.Mirrors second) (consistent : first.Consistent)
    (consistent' : second.Consistent) (cmd : Command) :
    (first.apply cmd).2 = (second.apply cmd).2 ∧ (first.apply cmd).1.Mirrors (second.apply cmd).1 := by
  have counted : Mirrors { first with commandSeq := first.commandSeq + 1 }
      { second with commandSeq := second.commandSeq + 1 } :=
    { mirrors with commandSeq := congrArg (· + 1) mirrors.commandSeq }
  have sound : Consistent { first with commandSeq := first.commandSeq + 1 } :=
    ⟨consistent.book, consistent.lastTop⟩
  have sound' : Consistent { second with commandSeq := second.commandSeq + 1 } :=
    ⟨consistent'.book, consistent'.lastTop⟩
  cases cmd with
  | newOrder order => exact counted.applyNewOrder sound sound' order
  | cancelOrder cancel => exact counted.applyCancel sound sound' cancel

/-- **No command sequence tells the engines apart.** -/
theorem applyAll (mirrors : first.Mirrors second) (consistent : first.Consistent)
    (consistent' : second.Consistent) (cmds : List Command) :
    (first.applyAll cmds).2 = (second.applyAll cmds).2 ∧
      (first.applyAll cmds).1.Mirrors (second.applyAll cmds).1 := by
  induction cmds generalizing first second with
  | nil => exact ⟨rfl, mirrors⟩
  | cons cmd rest ih =>
    obtain ⟨events, after⟩ := mirrors.apply consistent consistent' cmd
    obtain ⟨more, last⟩ := ih after (apply_consistent consistent cmd) (apply_consistent consistent' cmd)
    refine ⟨?_, last⟩
    show (first.apply cmd).2 ++ ((first.apply cmd).1.applyAll rest).2 =
      (second.apply cmd).2 ++ ((second.apply cmd).1.applyAll rest).2
    rw [events, more]

theorem stateChecksumOn (mirrors : first.Mirrors second) (consistent : first.Consistent)
    (consistent' : second.Consistent) (host : ByteOrder) :
    first.stateChecksumOn host = second.stateChecksumOn host := by
  unfold MatchingEngine.stateChecksumOn
  rw [OrderBook.checksum_congr (mirrors.ladder consistent.book consistent'.book) host,
    mirrors.commandSeq, mirrors.eventSeq, mirrors.arrivalCounter, mirrors.instrument]

end Mirrors

end MatchingEngine

end Sententia
