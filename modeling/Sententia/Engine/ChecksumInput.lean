/-
**What the state checksum is computed from.** `stateChecksum` feeds one byte sequence to its FNV-1a
accumulator: the walk over the book, then the counters and the instrument. The walk has no separators and
leaves out the side and the price of every order and the last top.

* `stateChecksumOn_eq` — the checksum is the hash of `checksumInput`.
* `reads_checksumInput` — a reader recovers the state from the sequence: every list is preceded by its
  length, and what is left out follows from the engine invariant.
* `checksumInput_injective` — so two reachable engines with one input are in the same state.
* `stateChecksum_hosts` — when the byte order of the host makes no difference.
-/

import Sententia.Engine.Snapshot
import Sententia.Library.Codec

namespace Sententia

open Library Reader

/-! ### Words -/

theorem toUInt64_injective : Function.Injective Int64.toUInt64 :=
  Function.LeftInverse.injective fun price => Int64.toInt64_toUInt64 price

/-- The bytes of a word, as the host lays them out. -/
def hostBytes : ByteOrder → List UInt8 → List UInt8
  | .little, bytes => bytes
  | .big, bytes => bytes.reverse

theorem hostBytes_hostBytes (host : ByteOrder) (bytes : List UInt8) :
    hostBytes host (hostBytes host bytes) = bytes := by
  cases host
  · rfl
  · exact List.reverse_reverse bytes

theorem littleEndian_eq_map (width value : Nat) :
    littleEndian width value = (List.range width).map fun place => UInt8.ofNat (value / 256 ^ place) := by
  induction width generalizing value with
  | zero => rfl
  | succ width ih =>
    rw [littleEndian, ih, List.range_succ_eq_map, List.map_cons, List.map_map]
    refine congrArg₂ List.cons (by simp) (List.map_congr_left fun place _ => ?_)
    rw [Function.comp_apply, Nat.div_div_eq_div_mul, Nat.succ_eq_add_one, Nat.pow_succ, Nat.mul_comm]

/-- The bytes of a value by shifts are those by division. -/
theorem bytesOf_eq (value : UInt64) : bytesOf value = littleEndian 8 value.toNat := by
  rw [littleEndian_eq_map]
  refine List.map_congr_left fun place member => ?_
  have small := List.mem_range.mp member
  have shift : place * 8 % 2 ^ 64 % 64 = place * 8 := by omega
  have power : 2 ^ (place * 8) = 256 ^ place := by
    rw [Nat.mul_comm, Nat.pow_mul]
  rw [← UInt8.toNat_inj, UInt64.toNat_toUInt8, UInt64.toNat_shiftRight, UInt64.toNat_ofNat', shift,
    Nat.shiftRight_eq_div_pow, power, UInt8.toNat_ofNat']

/-- A word as `hashValue` sees it. -/
def valueBytes (host : ByteOrder) (value : UInt64) : List UInt8 := hostBytes host (bytesOf value)

theorem hashValue_eq (host : ByteOrder) (hash value : UInt64) :
    hashValue host hash value = hashBytes hash (valueBytes host value) := by
  cases host <;> rfl

theorem hashBytes_append (hash : UInt64) (first second : List UInt8) :
    hashBytes (hashBytes hash first) second = hashBytes hash (first ++ second) :=
  List.foldl_append.symm

theorem length_valueBytes (host : ByteOrder) (value : UInt64) : (valueBytes host value).length = 8 := by
  cases host
  · rfl
  · exact List.length_reverse

/-- Read a word as the host lays it out. -/
def readValue (host : ByteOrder) : Reader UInt64 := do
  let bytes ← take 8
  pure (UInt64.ofNat (ofLittleEndian (hostBytes host bytes)))

theorem reads_valueBytes (host : ByteOrder) (value : UInt64) :
    Reads (readValue host) (valueBytes host value) value := by
  have bytes := reads_take (valueBytes host value)
  rw [length_valueBytes] at bytes
  refine bytes.map ?_
  have fits : value.toNat < 256 ^ 8 := Nat.lt_of_lt_of_eq value.toNat_lt (by decide)
  unfold valueBytes
  rw [hostBytes_hostBytes, bytesOf_eq, ofLittleEndian_littleEndian fits, UInt64.ofNat_toNat]
  exact Reads.pure _

/-! ### The walk over the book -/

/-- What the walk keeps of an order. -/
structure WalkedOrder where
  id : OrderId
  quantity : Quantity
  arrival : UInt64
deriving DecidableEq

def RestingOrder.walked (order : RestingOrder) : WalkedOrder where
  id := order.id
  quantity := order.quantity
  arrival := UInt64.ofNat order.arrival

def walkedBytes (host : ByteOrder) (order : WalkedOrder) : List UInt8 :=
  valueBytes host order.id ++ (valueBytes host order.quantity ++ valueBytes host order.arrival)

def levelBytes (host : ByteOrder) (level : Price × List WalkedOrder) : List UInt8 :=
  valueBytes host level.1.toUInt64 ++
    (valueBytes host (UInt64.ofNat level.2.length) ++ level.2.flatMap (walkedBytes host))

/-- The levels of a side, behind their number. -/
def levelsBytes (host : ByteOrder) (levels : List (Price × List WalkedOrder)) : List UInt8 :=
  valueBytes host (UInt64.ofNat levels.length) ++ levels.flatMap (levelBytes host)

/-- The levels of a side as the walk visits them. -/
def OrderBook.walkedLevels (book : OrderBook) (side : Side) : List (Price × List WalkedOrder) :=
  (book.levels side).entries.map fun level => (level.1, level.2.map (·.order.walked))

def OrderBook.walkBytes (host : ByteOrder) (book : OrderBook) : List UInt8 :=
  levelsBytes host (book.walkedLevels .buy) ++ levelsBytes host (book.walkedLevels .sell)

theorem hashOrders_eq (host : ByteOrder) (hash : UInt64) (queue : OrderQueue) :
    queue.foldl (fun acc node =>
        hashValue host (hashValue host (hashValue host acc node.order.id) node.order.quantity)
          (UInt64.ofNat node.order.arrival)) hash =
      hashBytes hash ((queue.map (·.order.walked)).flatMap (walkedBytes host)) := by
  induction queue generalizing hash with
  | nil => rfl
  | cons node rest ih =>
    rw [List.foldl_cons, ih, List.map_cons, List.flatMap_cons, ← hashBytes_append]
    simp only [hashValue_eq, walkedBytes, hashBytes_append, List.append_assoc]
    rfl

theorem hashLevels_walked (host : ByteOrder) (hash : UInt64) {side : Side} (levels : Levels side) :
    hashLevels host hash levels = hashBytes hash ((levels.entries.map fun level =>
      (level.1, level.2.map (·.order.walked))).flatMap (levelBytes host)) := by
  unfold hashLevels
  generalize levels.entries = entries
  induction entries generalizing hash with
  | nil => rfl
  | cons level rest ih =>
    rw [List.foldl_cons, ih, List.map_cons, List.flatMap_cons, ← hashBytes_append]
    simp only [hashOrders_eq]
    simp only [hashValue_eq, levelBytes, hashBytes_append, List.append_assoc, List.length_map]

theorem OrderBook.checksum_eq (host : ByteOrder) (book : OrderBook) :
    book.checksum host = hashBytes kFnvOffset (book.walkBytes host) := by
  unfold OrderBook.checksum walkBytes levelsBytes walkedLevels
  simp only [hashLevels_walked, hashValue_eq, hashBytes_append, List.length_map, List.append_assoc]
  rfl

namespace MatchingEngine

/-- **The bytes that the checksum is computed from.** -/
def checksumInput (host : ByteOrder) (engine : MatchingEngine) : List UInt8 :=
  engine.book.walkBytes host ++
    (bytesOf (UInt64.ofNat engine.commandSeq) ++ (bytesOf (UInt64.ofNat engine.eventSeq) ++
      (bytesOf (UInt64.ofNat engine.arrivalCounter) ++ bytesOf engine.instrument.toUInt64)))

theorem stateChecksumOn_eq (host : ByteOrder) (engine : MatchingEngine) :
    engine.stateChecksumOn host = hashBytes kFnvOffset (engine.checksumInput host) := by
  unfold stateChecksumOn checksumInput mix
  simp only [OrderBook.checksum_eq, hashBytes_append, List.append_assoc]

end MatchingEngine

/-! ### Reading the walk -/

def readWalked (host : ByteOrder) : Reader WalkedOrder := do
  let id ← readValue host
  let quantity ← readValue host
  let arrival ← readValue host
  pure { id, quantity, arrival }

/-- The length of a queue from its 64 bits: no queue is empty, so zero stands for all of them. -/
def queueLength (count : UInt64) : Nat := if count = 0 then 2 ^ 64 else count.toNat

def readLevel (host : ByteOrder) : Reader (Price × List WalkedOrder) := do
  let price ← readValue host
  let count ← readValue host
  let orders ← many (readWalked host) (queueLength count)
  pure (price.toInt64, orders)

def readLevels (host : ByteOrder) : Reader (List (Price × List WalkedOrder)) := do
  let count ← readValue host
  many (readLevel host) count.toNat

theorem reads_walkedBytes (host : ByteOrder) (order : WalkedOrder) :
    Reads (readWalked host) (walkedBytes host order) order := by
  refine (reads_valueBytes host order.id).bind ((reads_valueBytes host order.quantity).bind ?_)
  exact (reads_valueBytes host order.arrival).map (Reads.pure _)

theorem queueLength_ofNat {length : Nat} (positive : 0 < length) (bound : length ≤ 2 ^ 64) :
    queueLength (UInt64.ofNat length) = length := by
  unfold queueLength
  split_ifs with zero
  · have wrapped := congrArg UInt64.toNat zero
    rw [UInt64.toNat_ofNat', UInt64.toNat_zero] at wrapped
    omega
  · have nonzero : (UInt64.ofNat length).toNat ≠ 0 := fun wrapped => zero (UInt64.toNat_inj.mp wrapped)
    rw [UInt64.toNat_ofNat'] at nonzero ⊢
    omega

theorem reads_levelBytes (host : ByteOrder) {level : Price × List WalkedOrder} (nonempty : level.2 ≠ [])
    (bound : level.2.length ≤ 2 ^ 64) : Reads (readLevel host) (levelBytes host level) level := by
  refine (reads_valueBytes host level.1.toUInt64).bind ((reads_valueBytes host _).bind ?_)
  rw [queueLength_ofNat (List.length_pos_iff.mpr nonempty) bound, Int64.toInt64_toUInt64]
  exact (Reads.many fun order _ => reads_walkedBytes host order).map (Reads.pure _)

theorem reads_levelsBytes (host : ByteOrder) {levels : List (Price × List WalkedOrder)}
    (bound : levels.length < 2 ^ 64)
    (each : ∀ level ∈ levels, level.2 ≠ [] ∧ level.2.length ≤ 2 ^ 64) :
    Reads (readLevels host) (levelsBytes host levels) levels := by
  refine (reads_valueBytes host _).bind ?_
  rw [UInt64.toNat_ofNat', Nat.mod_eq_of_lt bound]
  exact Reads.many fun level member => reads_levelBytes host (each level member).1 (each level member).2

namespace OrderBook.WellFormed

variable {book : OrderBook} {arrivals : Nat}

/-- Ids are different and of 64 bits, which bounds a queue. -/
theorem length_queueAt_le (wf : WellFormed book arrivals) (side : Side) (price : Price) :
    (book.queueAt side price).length ≤ 2 ^ 64 := by
  have ids : ((book.queueAt side price).map fun node => node.order.id.toNat).Nodup := by
    refine List.pairwise_map.mpr (List.Pairwise.imp_of_mem ?_ (wf.distinct side price))
    intro first second member member' different same
    have sameNode := (wf.eq_of_id member member' (UInt64.toNat_inj.mp same)).2.2
    exact different (congrArg OrderNode.address sameNode)
  have range : ((book.queueAt side price).map fun node => node.order.id.toNat) ⊆ List.range (2 ^ 64) := by
    intro id member
    obtain ⟨node, _, rfl⟩ := List.mem_map.mp member
    exact List.mem_range.mpr node.order.id.toNat_lt
  have shorter := (List.subperm_of_subset ids range).length_le
  rwa [List.length_map, List.length_range] at shorter

/-- Prices are different and positive, which bounds the levels of a side. -/
theorem size_levels_lt (wf : WellFormed book arrivals) (side : Side) :
    (book.levels side).size < 2 ^ 64 := by
  have different : ((book.levels side).keys.map fun price => price.toUInt64.toNat).Nodup := by
    refine List.pairwise_map.mpr ((book.levels side).keys_nodup.imp fun differ same => differ ?_)
    exact toUInt64_injective (UInt64.toNat_inj.mp same)
  have range : ((book.levels side).keys.map fun price => price.toUInt64.toNat) ⊆
      List.range' 1 (2 ^ 64 - 1) := by
    intro value member
    obtain ⟨price, known, rfl⟩ := List.mem_map.mp member
    obtain ⟨queue, found⟩ := (book.levels side).mem_keys_iff.mp known
    have notEmpty : queue ≠ [] := fun empty => wf.noEmptyLevel side price (empty ▸ found)
    obtain ⟨node, inQueue⟩ := List.exists_mem_of_ne_nil _ notEmpty
    have positive := (wf.positive (queueAt_of_find? found ▸ inQueue)).2
    have nonzero : price.toUInt64.toNat ≠ 0 := by
      intro zero
      have priceZero : price = 0 := toUInt64_injective (UInt64.toNat_inj.mp zero)
      rw [priceZero] at positive
      exact price_lt_irrefl 0 positive
    have small := price.toUInt64.toNat_lt
    rw [List.mem_range'_1]
    omega
  have shorter := (List.subperm_of_subset different range).length_le
  rw [List.length_map, List.length_range'] at shorter
  unfold OrderedMap.keys at shorter
  rw [List.length_map] at shorter
  unfold OrderedMap.size
  omega

/-- The levels of a well-formed book can be read back. -/
theorem reads_walkedLevels (wf : WellFormed book arrivals) (host : ByteOrder) (side : Side) :
    Reads (readLevels host) (levelsBytes host (book.walkedLevels side)) (book.walkedLevels side) := by
  refine reads_levelsBytes host ?_ fun level member => ?_
  · unfold walkedLevels
    rw [List.length_map]
    exact wf.size_levels_lt side
  · obtain ⟨⟨price, queue⟩, stored, rfl⟩ := List.mem_map.mp member
    have found := (book.levels side).find?_eq_some_iff.mpr stored
    have queueIs := queueAt_of_find? found
    refine ⟨fun empty => ?_, ?_⟩
    · have noOrders : queue = [] := List.map_eq_nil_iff.mp empty
      rw [noOrders] at found
      exact wf.noEmptyLevel side price found
    · rw [List.length_map, ← queueIs]
      exact wf.length_queueAt_le side price

end OrderBook.WellFormed

/-! ### The state behind the input -/

/-- An order at the widths the source stores it in. -/
structure StoredOrder where
  id : OrderId
  side : Side
  price : Price
  quantity : Quantity
  arrival : UInt64
deriving DecidableEq

def RestingOrder.stored (order : RestingOrder) : StoredOrder where
  id := order.id
  side := order.side
  price := order.price
  quantity := order.quantity
  arrival := UInt64.ofNat order.arrival

/-- The levels of a side with their queues, at the widths the source stores them in. -/
def OrderBook.storedLevels (book : OrderBook) (side : Side) : List (Price × List StoredOrder) :=
  (book.levels side).entries.map fun level => (level.1, level.2.map (·.order.stored))

/-- What the walk leaves out of an order: the side it walks and the price of the level. -/
def WalkedOrder.restore (side : Side) (price : Price) (order : WalkedOrder) : StoredOrder where
  id := order.id
  side := side
  price := price
  quantity := order.quantity
  arrival := order.arrival

/-- **The walk determines the levels.** -/
theorem OrderBook.WellFormed.storedLevels_eq {book : OrderBook} {arrivals : Nat}
    (wf : book.WellFormed arrivals) (side : Side) :
    book.storedLevels side = (book.walkedLevels side).map fun level =>
      (level.1, level.2.map (WalkedOrder.restore side level.1)) := by
  unfold storedLevels walkedLevels
  rw [List.map_map]
  refine List.map_congr_left fun level member => congrArg (Prod.mk level.1) ?_
  rw [List.map_map]
  refine List.map_congr_left fun node inQueue => ?_
  have found := (book.levels side).find?_eq_some_iff.mpr member
  obtain ⟨sameSide, samePrice⟩ := wf.placed (queueAt_of_find? found ▸ inQueue)
  unfold RestingOrder.stored
  rw [sameSide, samePrice]
  rfl

/-- The first level of a side as `top` reads it off the walk. -/
def walkedBest (levels : List (Price × List WalkedOrder)) : Option (Price × Quantity) :=
  levels.head?.map fun level => (level.1, level.2.foldl (fun total order => total + order.quantity) 0)

theorem OrderBook.bestLevel_eq (book : OrderBook) (side : Side) :
    bestLevel (book.ladder side).entries = walkedBest (book.walkedLevels side) := by
  unfold bestLevel walkedBest ladder walkedLevels OrderedMap.project
  rw [List.head?_map, List.head?_map, Option.map_map, Option.map_map]
  refine congrFun (congrArg Option.map (funext fun level => ?_)) _
  simp only [Function.comp_apply, List.foldl_map]
  rfl

theorem OrderBook.ordersAt_eq_ladder (book : OrderBook) (side : Side) (price : Price) :
    book.ordersAt side price = ((book.ladder side).find? price).getD [] := by
  unfold ordersAt queueAt ladder
  rw [OrderedMap.find?_project]
  cases (book.levels side).find? price <;> rfl

/-- **The walk determines the top.** -/
theorem OrderBook.top_congr {first second : OrderBook}
    (same : ∀ side, first.walkedLevels side = second.walkedLevels side) : first.top = second.top := by
  rw [top_eq, top_eq, bestLevel_eq, bestLevel_eq, bestLevel_eq, bestLevel_eq, same, same]

namespace MatchingEngine

/-- The same state, counters and arrivals at the 64 bits the source stores them in. -/
structure SameStored (first second : MatchingEngine) : Prop where
  levels : ∀ side, first.book.storedLevels side = second.book.storedLevels side
  commandSeq : UInt64.ofNat first.commandSeq = UInt64.ofNat second.commandSeq
  eventSeq : UInt64.ofNat first.eventSeq = UInt64.ofNat second.eventSeq
  arrivalCounter : UInt64.ofNat first.arrivalCounter = UInt64.ofNat second.arrivalCounter
  instrument : first.instrument = second.instrument
  lastTop : first.lastTop = second.lastTop

/-- What the checksum's input tells about an engine. -/
structure Picture where
  bids : List (Price × List WalkedOrder)
  asks : List (Price × List WalkedOrder)
  commandSeq : UInt64
  eventSeq : UInt64
  arrivalCounter : UInt64
  instrument : UInt64

def picture (engine : MatchingEngine) : Picture where
  bids := engine.book.walkedLevels .buy
  asks := engine.book.walkedLevels .sell
  commandSeq := UInt64.ofNat engine.commandSeq
  eventSeq := UInt64.ofNat engine.eventSeq
  arrivalCounter := UInt64.ofNat engine.arrivalCounter
  instrument := engine.instrument.toUInt64

def readPicture (host : ByteOrder) : Reader Picture := do
  let bids ← readLevels host
  let asks ← readLevels host
  let commandSeq ← readValue .little
  let eventSeq ← readValue .little
  let arrivalCounter ← readValue .little
  let instrument ← readValue .little
  pure { bids, asks, commandSeq, eventSeq, arrivalCounter, instrument }

/-- **The input can be read back.** -/
theorem reads_checksumInput {engine : MatchingEngine} (consistent : engine.Consistent) (host : ByteOrder) :
    Reads (readPicture host) (engine.checksumInput host) engine.picture := by
  unfold checksumInput OrderBook.walkBytes
  rw [List.append_assoc]
  refine (consistent.book.reads_walkedLevels host .buy).bind
    ((consistent.book.reads_walkedLevels host .sell).bind ?_)
  refine (reads_valueBytes .little _).bind ((reads_valueBytes .little _).bind
    ((reads_valueBytes .little _).bind ((reads_valueBytes .little _).map (Reads.pure _))))

/-- One input, one picture. -/
theorem picture_congr {first second : MatchingEngine} (consistent : first.Consistent)
    (consistent' : second.Consistent) {host : ByteOrder}
    (same : first.checksumInput host = second.checksumInput host) : first.picture = second.picture := by
  have read := reads_checksumInput consistent host []
  have read' := reads_checksumInput consistent' host []
  rw [same, read'] at read
  exact (congrArg Prod.fst (Option.some.inj read)).symm

theorem sameStored_of_picture {first second : MatchingEngine} (consistent : first.Consistent)
    (consistent' : second.Consistent) (same : first.picture = second.picture) :
    first.SameStored second := by
  have walked : ∀ side, first.book.walkedLevels side = second.book.walkedLevels side := by
    intro side
    cases side
    · exact congrArg Picture.bids same
    · exact congrArg Picture.asks same
  refine
    { levels := fun side => ?_
      commandSeq := congrArg Picture.commandSeq same
      eventSeq := congrArg Picture.eventSeq same
      arrivalCounter := congrArg Picture.arrivalCounter same
      instrument := ?_
      lastTop := ?_ }
  · rw [consistent.book.storedLevels_eq, consistent'.book.storedLevels_eq, walked]
  · have widened : first.instrument.toUInt64 = second.instrument.toUInt64 :=
      congrArg Picture.instrument same
    have back := congrArg UInt64.toUInt32 widened
    rwa [UInt32.toUInt32_toUInt64, UInt32.toUInt32_toUInt64] at back
  · rw [consistent.lastTop, consistent'.lastTop, OrderBook.top_congr walked]

/-- Counters that have not reached the width of the source's. -/
structure Within64 (engine : MatchingEngine) : Prop where
  commandSeq : engine.commandSeq < 2 ^ 64
  eventSeq : engine.eventSeq < 2 ^ 64
  arrivalCounter : engine.arrivalCounter < 2 ^ 64

theorem eq_of_ofNat_eq {first second : Nat} (fits : first < 2 ^ 64) (fits' : second < 2 ^ 64)
    (same : UInt64.ofNat first = UInt64.ofNat second) : first = second := by
  have numbers := congrArg UInt64.toNat same
  rwa [UInt64.toNat_ofNat', UInt64.toNat_ofNat', Nat.mod_eq_of_lt fits, Nat.mod_eq_of_lt fits'] at numbers

/-- The stored levels give the levels, where no arrival has wrapped. -/
theorem ladder_of_stored {engine : MatchingEngine} (consistent : engine.Consistent)
    (within : engine.Within64) (side : Side) :
    (engine.book.ladder side).entries = (engine.book.storedLevels side).map fun level =>
      (level.1, level.2.map fun order =>
        { id := order.id
          side := order.side
          price := order.price
          quantity := order.quantity
          arrival := order.arrival.toNat }) := by
  unfold OrderBook.ladder OrderedMap.project OrderBook.storedLevels
  rw [List.map_map]
  refine List.map_congr_left fun level member => congrArg (Prod.mk level.1) ?_
  rw [List.map_map]
  refine List.map_congr_left fun node inQueue => ?_
  have found := (engine.book.levels side).find?_eq_some_iff.mpr member
  have arrived := consistent.book.arrived (OrderBook.queueAt_of_find? found ▸ inQueue)
  have fits : node.order.arrival < 2 ^ 64 := Nat.lt_of_le_of_lt arrived within.arrivalCounter
  have kept : (UInt64.ofNat node.order.arrival).toNat = node.order.arrival := by
    rw [UInt64.toNat_ofNat', Nat.mod_eq_of_lt fits]
  simp only [Function.comp_apply, RestingOrder.stored, kept]

/-- Where no counter has wrapped, nothing of the state is left open. -/
theorem SameStored.sameState {first second : MatchingEngine} (same : first.SameStored second)
    (consistent : first.Consistent) (consistent' : second.Consistent) (within : first.Within64)
    (within' : second.Within64) : first.SameState second := by
  have ladders : ∀ side, first.book.ladder side = second.book.ladder side := by
    intro side
    apply OrderedMap.ext_entries
    rw [ladder_of_stored consistent within, ladder_of_stored consistent' within', same.levels]
  have mirrors : first.book.Mirrors second.book := by
    intro side price
    rw [OrderBook.ordersAt_eq_ladder, OrderBook.ordersAt_eq_ladder, ladders]
  exact
    { instrument := same.instrument
      commandSeq := eq_of_ofNat_eq within.commandSeq within'.commandSeq same.commandSeq
      eventSeq := eq_of_ofNat_eq within.eventSeq within'.eventSeq same.eventSeq
      arrivalCounter := eq_of_ofNat_eq within.arrivalCounter within'.arrivalCounter same.arrivalCounter
      lastTop := same.lastTop
      levels := ladders
      index := mirrors.lookup consistent.book consistent'.book }

/-- **The input of the checksum is unambiguous**: two engines that command sequences reach, of whichever
instruments, and that feed the same bytes to the hash, are in the same state. -/
theorem checksumInput_injective (host : ByteOrder) (instrument instrument' : InstrumentId)
    (cmds cmds' : List Command)
    (same : (replay instrument cmds).checksumInput host = (replay instrument' cmds').checksumInput host) :
    (replay instrument cmds).SameStored (replay instrument' cmds') ∧
      ((replay instrument cmds).Within64 → (replay instrument' cmds').Within64 →
        (replay instrument cmds).SameState (replay instrument' cmds')) := by
  have consistent := replay_consistent instrument cmds
  have consistent' := replay_consistent instrument' cmds'
  have stored := sameStored_of_picture consistent consistent' (picture_congr consistent consistent' same)
  exact ⟨stored, stored.sameState consistent consistent'⟩

/-- Three resting asks, and the cancel of an order that is not among them. -/
def askThenCancel (id : OrderId) : List Command := restingAsks ++ [.cancelOrder { id }]

/-- Two different cancels lead to one input. -/
theorem checksumInput_injective_restingAsks :
    (replay 1 (askThenCancel 5)).checksumInput .little = (replay 1 (askThenCancel 6)).checksumInput .little ∧
      (replay 1 (askThenCancel 5)).SameState (replay 1 (askThenCancel 6)) := by
  have same : (replay 1 (askThenCancel 5)).checksumInput .little =
      (replay 1 (askThenCancel 6)).checksumInput .little := by decide +kernel
  have within : (replay 1 (askThenCancel 5)).Within64 :=
    ⟨by decide +kernel, by decide +kernel, by decide +kernel⟩
  have within' : (replay 1 (askThenCancel 6)).Within64 :=
    ⟨by decide +kernel, by decide +kernel, by decide +kernel⟩
  have injective := checksumInput_injective .little 1 1 (askThenCancel 5) (askThenCancel 6) same
  exact ⟨same, injective.2 within within'⟩

end MatchingEngine

/-! ### Two byte orders -/

/-- The words of a level: its price, the length of its queue, and three for each order. -/
def levelWords (level : Price × List WalkedOrder) : List UInt64 :=
  level.1.toUInt64 :: UInt64.ofNat level.2.length ::
    level.2.flatMap fun order => [order.id, order.quantity, order.arrival]

/-- The 64-bit words that the walk over a book hashes. -/
def OrderBook.walkWords (book : OrderBook) : List UInt64 :=
  UInt64.ofNat (book.walkedLevels .buy).length :: (book.walkedLevels .buy).flatMap levelWords ++
    UInt64.ofNat (book.walkedLevels .sell).length :: (book.walkedLevels .sell).flatMap levelWords

theorem levelBytes_eq (host : ByteOrder) (level : Price × List WalkedOrder) :
    levelBytes host level = (levelWords level).flatMap (valueBytes host) := by
  unfold levelBytes levelWords
  rw [List.flatMap_cons, List.flatMap_cons, List.flatMap_assoc]
  refine congrArg₂ (· ++ ·) rfl (congrArg₂ (· ++ ·) rfl (List.flatMap_congr fun order _ => ?_))
  simp [walkedBytes]

theorem levelsBytes_eq (host : ByteOrder) (levels : List (Price × List WalkedOrder)) :
    levelsBytes host levels =
      (UInt64.ofNat levels.length :: levels.flatMap levelWords).flatMap (valueBytes host) := by
  unfold levelsBytes
  rw [List.flatMap_cons, List.flatMap_assoc]
  exact congrArg₂ (· ++ ·) rfl (List.flatMap_congr fun level _ => levelBytes_eq host level)

theorem OrderBook.walkBytes_eq (host : ByteOrder) (book : OrderBook) :
    book.walkBytes host = book.walkWords.flatMap (valueBytes host) := by
  unfold walkBytes walkWords
  rw [levelsBytes_eq, levelsBytes_eq, List.flatMap_append]

/-- A word with the same bytes in both orders. -/
def ReadsBothWays (word : UInt64) : Prop := (bytesOf word).reverse = bytesOf word

/-- Words in two byte orders are the same bytes exactly if each of them is. -/
theorem flatMap_valueBytes_iff (words : List UInt64) :
    words.flatMap (valueBytes .little) = words.flatMap (valueBytes .big) ↔
      ∀ word ∈ words, ReadsBothWays word := by
  induction words with
  | nil => simp
  | cons word rest ih =>
    rw [List.flatMap_cons, List.flatMap_cons, List.forall_mem_cons, ← ih]
    constructor
    · intro same
      obtain ⟨here, later⟩ := List.append_inj same
        ((length_valueBytes .little word).trans (length_valueBytes .big word).symm)
      exact ⟨here.symm, later⟩
    · rintro ⟨here, later⟩
      exact congrArg₂ (· ++ ·) here.symm later

namespace MatchingEngine

/-- **The byte order of the host makes no difference** to the bytes that are hashed exactly if every word
of the walk reads the same both ways; the checksums then agree. -/
theorem stateChecksum_hosts (instrument : InstrumentId) (cmds : List Command) :
    ((replay instrument cmds).checksumInput .little = (replay instrument cmds).checksumInput .big ↔
        ∀ word ∈ (replay instrument cmds).book.walkWords, ReadsBothWays word) ∧
      ((∀ word ∈ (replay instrument cmds).book.walkWords, ReadsBothWays word) →
        (replay instrument cmds).stateChecksumOn .little =
          (replay instrument cmds).stateChecksumOn .big) := by
  have inputs : (replay instrument cmds).checksumInput .little =
      (replay instrument cmds).checksumInput .big ↔
        ∀ word ∈ (replay instrument cmds).book.walkWords, ReadsBothWays word := by
    unfold checksumInput
    rw [List.append_left_inj, OrderBook.walkBytes_eq, OrderBook.walkBytes_eq]
    exact flatMap_valueBytes_iff _
  refine ⟨inputs, fun both => ?_⟩
  rw [stateChecksumOn_eq, stateChecksumOn_eq, inputs.mpr both]

/-- A book without orders reads the same both ways. -/
example : ∀ word ∈ ({} : OrderBook).walkWords, ReadsBothWays word :=
  List.forall_mem_cons.mpr ⟨rfl, List.forall_mem_cons.mpr ⟨rfl, List.forall_mem_nil _⟩⟩

/-- Three resting asks have another checksum on a big-endian host. -/
theorem stateChecksum_differs :
    (replay 1 restingAsks).stateChecksumOn .little ≠ (replay 1 restingAsks).stateChecksumOn .big := by
  decide +kernel

end MatchingEngine

end Sententia
