/-
**The price-time priority order book** (`order_book.hpp`, `order_book.cpp`).

Price levels are ordered maps, best price first; the orders of a level form a linked list. A list
iterator is modelled by the address of its node: `rest` allocates a fresh address and records it in
the id index, and `cancel` and `reduce` reach their order through the recorded address, as the
source does through `Locator::it`.
-/

import Sententia.Types
import Sententia.Library.OrderedMap

namespace Sententia

open Library

structure RestingOrder where
  id : OrderId
  side : Side
  price : Price
  quantity : Quantity
  /-- Engine-assigned arrival ordinal; ties within a level are broken by it. -/
  arrival : Nat
deriving Repr, DecidableEq, Inhabited

/-- A node of a `std::list<RestingOrder>`. -/
structure OrderNode where
  address : Nat
  order : RestingOrder
deriving Repr, DecidableEq

/-- FIFO queue of the orders at a single price. -/
abbrev OrderQueue := List OrderNode

/-- The levels of a side, best price first. -/
abbrev Levels (side : Side) := OrderedMap Price OrderQueue (better side)

structure TopOfBook where
  hasBid : Bool := false
  bidPrice : Price := 0
  bidQuantity : Quantity := 0
  hasAsk : Bool := false
  askPrice : Price := 0
  askQuantity : Quantity := 0
deriving Repr, DecidableEq, Inhabited

structure Locator where
  side : Side
  price : Price
  /-- The address of the list node the iterator points at. -/
  it : Nat
deriving Repr, DecidableEq

structure OrderBook where
  bids : Levels .buy := .empty
  asks : Levels .sell := .empty
  /-- Point lookups only; never iterated. -/
  index : OrderedMap OrderId Locator (· < ·) := .empty
  /-- The address of the next list node to be allocated. -/
  nextAddress : Nat := 0

namespace OrderBook

def levels (book : OrderBook) : (side : Side) → Levels side
  | .buy => book.bids
  | .sell => book.asks

def setLevels (book : OrderBook) : (side : Side) → Levels side → OrderBook
  | .buy, levels => { book with bids := levels }
  | .sell, levels => { book with asks := levels }

@[simp] theorem levels_setLevels_self (book : OrderBook) (side : Side) (levels : Levels side) :
    (book.setLevels side levels).levels side = levels := by
  cases side <;> rfl

@[simp] theorem index_setLevels (book : OrderBook) (side : Side) (levels : Levels side) :
    (book.setLevels side levels).index = book.index := by
  cases side <;> rfl

@[simp] theorem nextAddress_setLevels (book : OrderBook) (side : Side) (levels : Levels side) :
    (book.setLevels side levels).nextAddress = book.nextAddress := by
  cases side <;> rfl

theorem levels_setLevels_ne (book : OrderBook) {side other : Side} (different : other ≠ side)
    (levels : Levels side) : (book.setLevels side levels).levels other = book.levels other := by
  cases side <;> cases other <;> first | rfl | exact absurd rfl different

theorem setLevels_setLevels (book : OrderBook) (side : Side) (first second : Levels side) :
    (book.setLevels side first).setLevels side second = book.setLevels side second := by
  cases side <;> rfl

/-- The queue at a price, empty when there is no such level. -/
def queueAt (book : OrderBook) (side : Side) (price : Price) : OrderQueue :=
  ((book.levels side).find? price).getD []

def contains (book : OrderBook) (id : OrderId) : Bool := book.index.contains id

def orderCount (book : OrderBook) : Nat := book.index.size

/-- The order behind a locator. -/
def deref (book : OrderBook) (loc : Locator) : Option RestingOrder :=
  ((book.queueAt loc.side loc.price).find? fun node => node.address = loc.it).map (·.order)

/-- Places an order at the back of its price level. -/
def rest (book : OrderBook) (order : RestingOrder) : OrderBook :=
  let queue := book.queueAt order.side order.price
  let node : OrderNode := { address := book.nextAddress, order }
  let levels := (book.levels order.side).insert order.price (queue ++ [node])
  let loc : Locator := { side := order.side, price := order.price, it := book.nextAddress }
  { book.setLevels order.side levels with
    index := if book.index.contains order.id then book.index else book.index.insert order.id loc
    nextAddress := book.nextAddress + 1 }

/-- Writes a level back, erasing it when its queue has become empty. -/
def putQueue (book : OrderBook) (side : Side) (price : Price) (queue : OrderQueue) : OrderBook :=
  if queue.isEmpty then book.setLevels side ((book.levels side).erase price)
  else book.setLevels side ((book.levels side).insert price queue)

def eraseLocated (book : OrderBook) (loc : Locator) (id : OrderId) : OrderBook :=
  match (book.levels loc.side).find? loc.price with
  -- The source asserts that the level is there.
  | none => { book with index := book.index.erase id }
  | some queue =>
    let book := book.putQueue loc.side loc.price (queue.filter fun node => node.address ≠ loc.it)
    { book with index := book.index.erase id }

/-- Removes an order by id, returning the removed order if present. -/
def cancel (book : OrderBook) (id : OrderId) : OrderBook × Option RestingOrder :=
  match book.index.find? id with
  | none => (book, none)
  | some loc =>
    match book.deref loc with
    | none => (book, none)
    | some removed => (book.eraseLocated loc id, some removed)

theorem cancel_unknown {book : OrderBook} {id : OrderId} (unknown : book.index.find? id = none) :
    book.cancel id = (book, none) := by
  unfold cancel
  simp only [unknown]

/-- Lowers the quantity of the node at an address. -/
def lowerQuantity (address : Nat) (amount : Quantity) (node : OrderNode) : OrderNode :=
  if node.address = address then
    { node with order := { node.order with quantity := node.order.quantity - amount } }
  else node

/-- The book with the located order's quantity lowered, before an exhausted order is removed. -/
def lowered (book : OrderBook) (loc : Locator) (amount : Quantity) : OrderBook :=
  book.setLevels loc.side ((book.levels loc.side).insert loc.price
    ((book.queueAt loc.side loc.price).map (lowerQuantity loc.it amount)))

/-- Reduces the quantity of a resting order, removing it when it reaches zero. -/
def reduce (book : OrderBook) (id : OrderId) (amount : Quantity) : OrderBook :=
  match book.index.find? id with
  | none => book
  | some loc =>
    match book.deref loc with
    | none => book
    | some order =>
      let queue := (book.queueAt loc.side loc.price).map (lowerQuantity loc.it amount)
      let lowered := book.setLevels loc.side ((book.levels loc.side).insert loc.price queue)
      if order.quantity - amount = 0 then lowered.eraseLocated loc id else lowered

def bestPrice (book : OrderBook) (side : Side) : Option Price :=
  (book.levels side).entries.head?.map Prod.fst

def bestBid (book : OrderBook) : Option Price := book.bestPrice .buy

def bestAsk (book : OrderBook) : Option Price := book.bestPrice .sell

/-- The size of a queue as the source accumulates it, modulo `2 ^ 64`. -/
def queueQuantity (queue : OrderQueue) : Quantity :=
  queue.foldl (fun total node => total + node.order.quantity) 0

def top (book : OrderBook) : TopOfBook :=
  let withBid : TopOfBook := match book.bids.entries with
    | [] => {}
    | (price, queue) :: _ =>
      { hasBid := true, bidPrice := price, bidQuantity := queueQuantity queue }
  match book.asks.entries with
  | [] => withBid
  | (price, queue) :: _ =>
    { withBid with hasAsk := true, askPrice := price, askQuantity := queueQuantity queue }

def quantityAt (book : OrderBook) (side : Side) (price : Price) : Quantity :=
  match (book.levels side).find? price with
  | none => 0
  | some queue => queueQuantity queue

def frontLevel (book : OrderBook) (side : Side) : Option OrderQueue :=
  (book.levels side).entries.head?.map Prod.snd

/-- The resting orders of a side in book order: best level first, FIFO within a level. -/
def restingOrders (book : OrderBook) (side : Side) : List RestingOrder :=
  (book.levels side).entries.flatMap fun level => level.2.map (·.order)

end OrderBook

/-! ### The FNV-1a checksum -/

def kFnvOffset : UInt64 := 1469598103934665603
def kFnvPrime : UInt64 := 1099511628211

/-- How the host stores a 64-bit integer in memory. -/
inductive ByteOrder
  | little
  | big
deriving Repr, DecidableEq

/-- The eight bytes of a value, least significant first. -/
def bytesOf (value : UInt64) : List UInt8 :=
  (List.range 8).map fun i => (value >>> (UInt64.ofNat (i * 8))).toUInt8

def hashBytes (hash : UInt64) (bytes : List UInt8) : UInt64 :=
  bytes.foldl (fun acc byte => (acc ^^^ byte.toUInt64) * kFnvPrime) hash

/-- Hashes the object representation of a value, hence in the host's byte order. -/
def hashValue (host : ByteOrder) (hash : UInt64) (value : UInt64) : UInt64 :=
  hashBytes hash (match host with
    | .little => bytesOf value
    | .big => (bytesOf value).reverse)

def hashLevels (host : ByteOrder) {side : Side} (hash : UInt64) (levels : Levels side) : UInt64 :=
  levels.entries.foldl (fun acc level =>
    let acc := hashValue host acc level.1.toUInt64
    let acc := hashValue host acc (UInt64.ofNat level.2.length)
    level.2.foldl (fun acc node =>
      let acc := hashValue host acc node.order.id
      let acc := hashValue host acc node.order.quantity
      hashValue host acc (UInt64.ofNat node.order.arrival)) acc) hash

def OrderBook.checksum (host : ByteOrder) (book : OrderBook) : UInt64 :=
  let hash := hashValue host kFnvOffset (UInt64.ofNat book.bids.size)
  let hash := hashLevels host hash book.bids
  let hash := hashValue host hash (UInt64.ofNat book.asks.size)
  hashLevels host hash book.asks

end Sententia
