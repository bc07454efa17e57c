/-
**The replay driver** (`apps/replay/main.cpp`) behind its arguments: it applies a command file to a fresh
engine, and prints the events, the book, and three hashes.

* `hashEvents`, `hashInput` — the hash of an event stream, and the bytes that are hashed.
* `main` — what is printed, and the status.
* `hashEvents_unambiguous` — the bytes determine the events.
* `printed_eq_iff` — so do the printed lines, and the events determine all that is printed; it is the same
  for two files (`main_eq_iff`).
-/

import Sententia.Engine.CommandFile
import Sententia.Engine.EventFold
import Sententia.Engine.EventGrammar

namespace Sententia

/-! ### The hash of the events -/

/-- The place of the alternative in the `std::variant`. -/
def Event.index : Event → UInt64
  | .orderAccepted _ => 0
  | .orderRejected _ => 1
  | .trade _ => 2
  | .orderResting _ => 3
  | .orderCancelled _ => 4
  | .cancelRejected _ => 5
  | .topOfBookChanged _ => 6

/-- `static_cast<unsigned char>`. -/
def toByte (c : Char) : UInt8 := UInt8.ofNat c.toNat

def hashEvents (events : EventList) : UInt64 :=
  events.foldl (fun hash event =>
    event.toString.foldl (fun hash c => (hash ^^^ (toByte c).toUInt64) * kFnvPrime)
      (MatchingEngine.mix hash event.index)) kFnvOffset

namespace ReplayDriver

/-! ### What is printed -/

def printLevels {side : Side} (levels : Levels side) : List Char :=
  levels.entries.flatMap fun level =>
    "  ".toList ++ signed level.1 ++ " x".toList ++ decimal (OrderBook.queueQuantity level.2).toNat ++ " (".toList ++
      decimal level.2.length ++ " orders)\n".toList

def printBook (book : OrderBook) : List Char :=
  "book bids:\n".toList ++ printLevels book.bids ++ "book asks:\n".toList ++ printLevels book.asks

/-- The lines of the events and of the book, which `--quiet` leaves out. -/
def printEvents (engine : MatchingEngine) (events : EventList) : List Char :=
  (events.flatMap fun event => event.toString ++ ['\n']) ++ '\n' :: printBook engine.book ++ ['\n']

/-- What is printed once the commands are parsed. -/
def printed (instrument : InstrumentId) (quiet : Bool) (commands : List Command) : List Char :=
  let (engine, events) := MatchingEngine.applyAll { instrument } commands
  (if quiet then [] else printEvents engine events) ++ "commands=".toList ++ decimal commands.length ++
    "\nevents=".toList ++ decimal events.length ++ "\nevent_hash=".toList ++
      decimal (hashEvents events).toNat ++ "\nbook_checksum=".toList ++
        decimal (engine.book.checksum .little).toNat ++ "\nstate_checksum=".toList ++
          decimal engine.stateChecksum.toNat ++ ['\n']

structure Output where
  status : Nat
  out : List Char
  err : List Char

/-- `main` with its arguments read. There is no text where the file cannot be opened. -/
def main (instrument : InstrumentId) (quiet : Bool) (path : List Char) (file : Option (List Char)) : Output :=
  match file with
  | none => { status := 1, out := [], err := "cannot open ".toList ++ path ++ ['\n'] }
  | some text =>
    let (commands, error) := parse instrument text
    match error with
    | some error =>
      { status := 1
        out := []
        err := path ++ ':' :: decimal error.line ++ ": ".toList ++ error.message ++ ['\n'] }
    | none => { status := 0, out := printed instrument quiet commands, err := [] }

end ReplayDriver

/-! ### The text of an event -/

def printable (c : Char) : Bool := 32 ≤ c.toNat ∧ c.toNat < 128

theorem printable_of_digits {text : List Char} (digits : ∀ c ∈ text, c.isDigit = true) :
    text.all printable = true := by
  refine List.all_eq_true.mpr fun c inside => ?_
  have digit := digits c inside
  unfold Char.isDigit at digit
  rw [Bool.and_eq_true, decide_eq_true_eq, decide_eq_true_eq, ge_iff_le, UInt32.le_iff_toNat_le,
    UInt32.le_iff_toNat_le] at digit
  have low : '0'.val.toNat = 48 := rfl
  have high : '9'.val.toNat = 57 := rfl
  unfold printable
  rw [decide_eq_true_eq]
  show 32 ≤ c.val.toNat ∧ c.val.toNat < 128
  omega

@[simp] theorem printable_decimal (n : Nat) : (decimal n).all printable = true :=
  printable_of_digits fun _ inside => Nat.isDigit_of_mem_toDigits (by decide) (by decide) inside

@[simp] theorem printable_signed (price : Price) : (signed price).all printable = true := by
  unfold signed
  split_ifs
  · exact (List.all_cons).trans (printable_decimal _)
  · exact printable_decimal _

@[simp] theorem printable_side (side : Side) : side.toString.all printable = true := by
  cases side <;> decide

@[simp] theorem printable_type (type : OrderType) : type.toString.all printable = true := by
  cases type <;> decide

@[simp] theorem printable_tif (tif : TimeInForce) : tif.toString.all printable = true := by
  cases tif <;> decide

@[simp] theorem printable_reason (reason : RejectReason) : reason.toString.all printable = true := by
  cases reason <;> decide

@[simp] theorem printable_initiator (byEngine : Bool) : (initiator byEngine).all printable = true := by
  cases byEngine <;> decide

@[simp] theorem printable_topSide (has : Bool) (price : Price) (quantity : Quantity) :
    (topSide has price quantity).all printable = true := by
  unfold topSide
  split_ifs
  · rw [List.all_append, List.all_cons, printable_signed, printable_decimal]
    decide
  · decide

theorem printable_intercalate {words : List (List Char)} (clean : ∀ word ∈ words, word.all printable = true) :
    ([' '].intercalate words).all printable = true := by
  induction words with
  | nil => rfl
  | cons word others ih =>
    obtain ⟨here, later⟩ := List.forall_mem_cons.mp clean
    cases others with
    | nil =>
      rw [List.intercalate_singleton]
      exact here
    | cons next more =>
      rw [List.intercalate_cons_cons, List.all_append, List.all_append, here, ih later]
      rfl

/-- **The text of an event is one line** of printable characters. -/
theorem printable_toString (event : Event) : event.toString.all printable = true := by
  rw [Event.toString_eq]
  refine printable_intercalate ?_
  unfold lineWords
  cases event with
  | orderAccepted e =>
    show ∀ word ∈ _ :: _ :: e.words, _
    unfold OrderAccepted.words
    simp +decide [-List.all_eq_true]
  | orderRejected e =>
    show ∀ word ∈ _ :: _ :: e.words, _
    unfold OrderRejected.words
    simp +decide [-List.all_eq_true]
  | trade e =>
    show ∀ word ∈ _ :: _ :: e.words, _
    unfold Trade.words
    simp +decide [-List.all_eq_true]
  | orderResting e =>
    show ∀ word ∈ _ :: _ :: e.words, _
    unfold OrderResting.words
    simp +decide [-List.all_eq_true]
  | orderCancelled e =>
    show ∀ word ∈ _ :: _ :: e.words, _
    unfold OrderCancelled.words
    simp +decide [-List.all_eq_true]
  | cancelRejected e =>
    show ∀ word ∈ _ :: _ :: e.words, _
    unfold CancelRejected.words
    simp +decide [-List.all_eq_true]
  | topOfBookChanged e =>
    show ∀ word ∈ _ :: _ :: e.words, _
    unfold TopOfBookChanged.words
    simp +decide [-List.all_eq_true]

theorem printable_of_mem {event : Event} {c : Char} (inside : c ∈ event.toString) :
    32 ≤ c.toNat ∧ c.toNat < 128 := by
  have all := List.all_eq_true.mp (printable_toString event) c inside
  unfold printable at all
  exact of_decide_eq_true all

theorem toString_ne_nil (event : Event) : event.toString ≠ [] := by
  intro empty
  have words := Event.toString_eq event
  rw [empty] at words
  have short := congrArg List.length words
  unfold lineWords at short
  rw [List.intercalate_cons_cons, List.length_append, List.length_append, List.length_append] at short
  simp at short

/-! ### What is hashed -/

/-- The bytes of one event: eight for the alternative, and the text. -/
def eventBytes (event : Event) : List UInt8 := bytesOf event.index ++ event.toString.map toByte

def hashInput (events : EventList) : List UInt8 := events.flatMap eventBytes

theorem hashEvents_eq (events : EventList) : hashEvents events = hashBytes kFnvOffset (hashInput events) := by
  have one : ∀ (hash : UInt64) (event : Event), event.toString.foldl
      (fun hash c => (hash ^^^ (toByte c).toUInt64) * kFnvPrime) (MatchingEngine.mix hash event.index) =
        hashBytes hash (eventBytes event) := by
    intro hash event
    unfold eventBytes hashBytes MatchingEngine.mix hashBytes
    rw [List.foldl_append, List.foldl_map]
  unfold hashEvents hashInput
  simp only [one]
  generalize kFnvOffset = hash
  induction events generalizing hash with
  | nil => rfl
  | cons event rest ih =>
    rw [List.foldl_cons, ih, List.flatMap_cons]
    unfold hashBytes
    rw [List.foldl_append]

/-- A byte of a text is none that an event begins with. -/
theorem le_toByte {event : Event} {c : Char} (inside : c ∈ event.toString) : 32 ≤ (toByte c).toNat := by
  obtain ⟨low, high⟩ := printable_of_mem inside
  unfold toByte
  rw [UInt8.toNat_ofNat']
  omega

theorem head_hashInput (events : EventList) : ∀ byte ∈ (hashInput events).head?, byte.toNat < 32 := by
  cases events with
  | nil => exact fun _ nothing => nomatch nothing
  | cons event rest =>
    intro byte first
    have small : (bytesOf event.index).head?.all (·.toNat < 32) = true := by cases event <;> rfl
    have start : (bytesOf event.index).head? = some byte := first
    rw [start] at small
    exact of_decide_eq_true small

/-- The bytes of a text end where the next event begins. -/
theorem takeWhile_text (event : Event) (rest : EventList) :
    (event.toString.map toByte ++ hashInput rest).takeWhile (32 ≤ ·.toNat) = event.toString.map toByte := by
  have text : ∀ byte ∈ event.toString.map toByte, decide (32 ≤ byte.toNat) = true := by
    intro byte inside
    obtain ⟨c, letter, rfl⟩ := List.mem_map.mp inside
    exact decide_eq_true (le_toByte letter)
  have ends : (hashInput rest).takeWhile (32 ≤ ·.toNat) = [] := by
    have first := head_hashInput rest
    generalize hashInput rest = bytes at first ⊢
    cases bytes with
    | nil => rfl
    | cons byte others =>
      have small := first byte rfl
      rw [List.takeWhile_cons_of_neg]
      rw [decide_eq_true_eq]
      omega
  rw [List.takeWhile_append_of_pos text, ends, List.append_nil]

theorem toByte_inj {event event' : Event} (same : event.toString.map toByte = event'.toString.map toByte) :
    event.toString = event'.toString := by
  have back : ∀ event : Event, (event.toString.map toByte).map (fun byte => Char.ofNat byte.toNat) =
      event.toString := by
    intro event
    rw [List.map_map]
    refine (List.map_congr_left fun c inside => ?_).trans (List.map_id _)
    obtain ⟨_, high⟩ := printable_of_mem inside
    show Char.ofNat (UInt8.ofNat c.toNat).toNat = c
    rw [UInt8.toNat_ofNat', Nat.mod_eq_of_lt (by omega), Char.ofNat_toNat]
  rw [← back event, same, back event']

/-- **The texts of one stream are told apart**: an event begins with a byte that no text has. -/
theorem toString_of_hashInput {events events' : EventList} (same : hashInput events = hashInput events') :
    events.map Event.toString = events'.map Event.toString := by
  induction events generalizing events' with
  | nil =>
    cases events' with
    | nil => rfl
    | cons event' rest' => cases same
  | cons event rest ih =>
    cases events' with
    | nil => cases same
    | cons event' rest' =>
      replace same : eventBytes event ++ hashInput rest = eventBytes event' ++ hashInput rest' := same
      unfold eventBytes at same
      rw [List.append_assoc, List.append_assoc] at same
      obtain ⟨_, after⟩ := List.append_inj same rfl
      have texts := congrArg (List.takeWhile fun byte => 32 ≤ byte.toNat) after
      rw [takeWhile_text, takeWhile_text] at texts
      rw [texts] at after
      rw [List.map_cons, List.map_cons, toByte_inj texts, ih (List.append_cancel_left after)]

/-- **What is hashed of a run determines its events**, whichever instruments two runs are for. -/
theorem hashEvents_unambiguous (instrument instrument' : InstrumentId) (cmds cmds' : List Command) :
    hashEvents (MatchingEngine.applyAll { instrument } cmds).2 =
        hashBytes kFnvOffset (hashInput (MatchingEngine.applyAll { instrument } cmds).2) ∧
      (hashInput (MatchingEngine.applyAll { instrument } cmds).2 =
          hashInput (MatchingEngine.applyAll { instrument := instrument' } cmds').2 ↔
        (MatchingEngine.applyAll { instrument } cmds).2 =
          (MatchingEngine.applyAll { instrument := instrument' } cmds').2) :=
  ⟨hashEvents_eq _, fun same => map_toString_inj (MatchingEngine.plain_applyAll _ _)
    (MatchingEngine.plain_applyAll _ _) (toString_of_hashInput same), congrArg _⟩

/-! ### What is printed -/

namespace ReplayDriver

theorem newline_notMem (event : Event) : '\n' ∉ event.toString := by
  intro inside
  exact absurd (printable_of_mem inside).1 (by decide)

/-- The lines up to the first empty one are those of the events. -/
theorem takeWhile_printed (events : EventList) (rest : List Char) :
    (ClusterConfig.getlines ((events.flatMap fun event => event.toString ++ ['\n']) ++ '\n' :: rest)).takeWhile
      (· ≠ []) = events.map Event.toString := by
  induction events with
  | nil => rfl
  | cons event others ih =>
    rw [List.flatMap_cons, List.append_assoc, List.append_assoc, List.singleton_append,
      CommandFile.getlines_append (newline_notMem event), List.takeWhile_cons_of_pos, List.map_cons]
    · exact congrArg _ ih
    · exact decide_eq_true (toString_ne_nil event)

/-- The events of a run determine its engine, and how many commands there were. -/
theorem engine_of_events {instrument : InstrumentId} {cmds cmds' : List Command}
    (same : (MatchingEngine.applyAll { instrument } cmds).2 = (MatchingEngine.applyAll { instrument } cmds').2) :
    (MatchingEngine.applyAll { instrument } cmds).1 = (MatchingEngine.applyAll { instrument } cmds').1 ∧
      cmds.length = cmds'.length := by
  have fresh := MatchingEngine.consistent_fresh instrument
  have folds := MatchingEngine.foldEvents_applyAll fresh cmds
  have here : (MatchingEngine.applyAll { instrument } cmds).1.instrument = instrument :=
    MatchingEngine.instrument_replay instrument cmds
  have there : (MatchingEngine.applyAll { instrument } cmds').1.instrument = instrument :=
    MatchingEngine.instrument_replay instrument cmds'
  have counted := MatchingEngine.commandSeq_applyAll fresh cmds
  have counted' := MatchingEngine.commandSeq_applyAll fresh cmds'
  rw [same, MatchingEngine.foldEvents_applyAll fresh cmds'] at folds
  generalize (MatchingEngine.applyAll { instrument } cmds).1 = engine at folds here counted ⊢
  generalize (MatchingEngine.applyAll { instrument } cmds').1 = engine' at folds there counted' ⊢
  obtain ⟨_, book, commandSeq, eventSeq, arrivalCounter, lastTop⟩ := engine
  obtain ⟨_, book', commandSeq', eventSeq', arrivalCounter', lastTop'⟩ := engine'
  cases here
  cases there
  cases folds
  exact ⟨rfl, Nat.add_left_cancel (counted.symm.trans counted')⟩

/-- What is printed begins with the lines of the events and an empty one. -/
theorem printed_lines (instrument : InstrumentId) (cmds : List Command) :
    (ClusterConfig.getlines (printed instrument false cmds)).takeWhile (· ≠ []) =
      (MatchingEngine.applyAll { instrument } cmds).2.map Event.toString := by
  unfold printed printEvents
  dsimp only
  rw [if_neg Bool.false_ne_true]
  simp only [List.append_assoc, List.cons_append]
  exact takeWhile_printed _ _

theorem events_of_printed {instrument : InstrumentId} {cmds cmds' : List Command}
    (same : printed instrument false cmds = printed instrument false cmds') :
    (MatchingEngine.applyAll { instrument } cmds).2 = (MatchingEngine.applyAll { instrument } cmds').2 := by
  have lines := congrArg (fun text => (ClusterConfig.getlines text).takeWhile (· ≠ [])) same
  rw [printed_lines, printed_lines] at lines
  exact map_toString_inj (MatchingEngine.plain_applyAll _ _) (MatchingEngine.plain_applyAll _ _) lines

theorem printed_of_events {instrument : InstrumentId} {cmds cmds' : List Command}
    (same : (MatchingEngine.applyAll { instrument } cmds).2 = (MatchingEngine.applyAll { instrument } cmds').2)
    (quiet : Bool) : printed instrument quiet cmds = printed instrument quiet cmds' := by
  obtain ⟨engine, count⟩ := engine_of_events same
  unfold printed
  rw [Prod.ext engine same, count]

/-- The status is 0 exactly if every line parses, and then the run of the commands is printed. -/
theorem main_ok_iff (instrument : InstrumentId) (quiet : Bool) (path text : List Char) :
    (main instrument quiet path (some text)).status = 0 ↔ main instrument quiet path (some text) =
      { status := 0, out := printed instrument quiet (parse instrument text).1, err := [] } := by
  unfold main
  dsimp only
  cases (parse instrument text).2 with
  | none => exact iff_of_true rfl rfl
  | some error => exact iff_of_false Nat.one_ne_zero fun same => Nat.one_ne_zero (congrArg Output.status same)

/-- **Two files do the same** in the driver exactly if the events of their commands are the same. -/
theorem main_eq_iff {instrument : InstrumentId} {path text text' : List Char}
    (ok : (main instrument false path (some text)).status = 0)
    (ok' : (main instrument false path (some text')).status = 0) :
    main instrument false path (some text) = main instrument false path (some text') ↔
      (MatchingEngine.applyAll { instrument } (parse instrument text).1).2 =
        (MatchingEngine.applyAll { instrument } (parse instrument text').1).2 := by
  rw [(main_ok_iff _ _ _ _).mp ok, (main_ok_iff _ _ _ _).mp ok']
  constructor
  · intro same
    exact events_of_printed (congrArg Output.out same)
  · intro same
    rw [printed_of_events same]

end ReplayDriver

/-- **The output of the driver identifies the run**: two runs for one instrument print the same text exactly
if their events are the same. -/
theorem printed_eq_iff (instrument : InstrumentId) (cmds cmds' : List Command) :
    ReplayDriver.printed instrument false cmds = ReplayDriver.printed instrument false cmds' ↔
      (MatchingEngine.applyAll { instrument } cmds).2 = (MatchingEngine.applyAll { instrument } cmds').2 := by
  constructor
  · exact ReplayDriver.events_of_printed
  · intro same
    exact ReplayDriver.printed_of_events same false

end Sententia
