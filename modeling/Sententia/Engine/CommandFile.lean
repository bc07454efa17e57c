/-
**The command file** (`apps/replay/main.cpp`, `apps/node/main.cpp`): one command a line, a `#` starts a
comment. The replay driver and the node program each have a parser of their own for it; they share the words
and differ in what they say of a line that is malformed.

    N <id> <BUY|SELL> <LIMIT|MARKET> <GTC|IOC> <price> <qty>
    C <id>

* `words`, `Spells` — the words of a line, and the words that say a command.
* `parse_directives` — a file in which every line says a command is read as these commands.
* `parse_render` — every list of commands has a file.
* `loadOrders_agrees` — the node program reads what the driver reads, and stops where it stops.
-/

import Mathlib.Data.List.TakeWhile
import Sententia.Engine.Rendering
import Sententia.Net.ClusterConfig

namespace Sententia

open ClusterConfig (isSpace getlines extractWord takeSign numeral extractUnsigned uncomment isBlank directives)

namespace CommandFile

/-! ### Words and numbers -/

/-- `line >> number` for a `Price`: what 64 bits do not hold fails. -/
def extractSigned (line : List Char) : Option (Int64 × List Char) :=
  match numeral line with
  | none => none
  | some (negative, magnitude, rest) =>
    let value : Int := if negative then -(magnitude : Int) else magnitude
    if value < -2 ^ 63 ∨ 2 ^ 63 ≤ value then none else some (Int64.ofInt value, rest)

def parseSide (s : List Char) : Option Side :=
  if s = "BUY".toList ∨ s = "B".toList then some .buy
  else if s = "SELL".toList ∨ s = "S".toList then some .sell
  else none

def parseType (s : List Char) : Option OrderType :=
  if s = "LIMIT".toList ∨ s = "L".toList then some .limit
  else if s = "MARKET".toList ∨ s = "M".toList then some .market
  else none

def parseTif (s : List Char) : Option TimeInForce :=
  if s = "GTC".toList then some .goodTillCancel
  else if s = "IOC".toList then some .immediateOrCancel
  else none

/-- What is extracted for a new order. -/
structure OrderText where
  id : OrderId
  sideText : List Char
  typeText : List Char
  tifText : List Char
  price : Price
  quantity : Quantity

/-- `line >> id >> sideText >> typeText >> tifText >> price >> quantity`. -/
def extractOrder (line : List Char) : Option OrderText := do
  let (id, line) ← extractUnsigned line
  let (sideText, line) ← extractWord line
  let (typeText, line) ← extractWord line
  let (tifText, line) ← extractWord line
  let (price, line) ← extractSigned line
  let (quantity, _) ← extractUnsigned line
  return { id, sideText, typeText, tifText, price, quantity }

structure ParseError where
  line : Nat
  message : List Char
deriving Repr, DecidableEq

/-- The loop over the lines, which both parsers have: the commands read, and where it has stopped. -/
def readLines (readLine : List Char → Except (List Char) (Option Command)) (lineNo : Nat)
    (out : List Command) : List (List Char) → List Command × Option ParseError
  | [] => (out, none)
  | raw :: rest =>
    match readLine (uncomment raw) with
    | .error message => (out, some { line := lineNo, message })
    | .ok none => readLines readLine (lineNo + 1) out rest
    | .ok (some cmd) => readLines readLine (lineNo + 1) (out ++ [cmd]) rest

end CommandFile

open CommandFile

/-! ### The replay driver -/

namespace ReplayDriver

/-- The command of a line, none for a blank one, or the message. -/
def parseLine (instrument : InstrumentId) (line : List Char) : Except (List Char) (Option Command) :=
  match extractWord line with
  | none => .ok none
  | some (kind, line) =>
    if kind = "N".toList ∨ kind = "NEW".toList then
      match extractOrder line with
      | none => .error "expected: N <id> <side> <type> <tif> <price> <qty>".toList
      | some text =>
        match parseSide text.sideText with
        | none => .error ("bad side: ".toList ++ text.sideText)
        | some side =>
          match parseType text.typeText with
          | none => .error ("bad type: ".toList ++ text.typeText)
          | some type =>
            match parseTif text.tifText with
            | none => .error ("bad time in force: ".toList ++ text.tifText)
            | some tif =>
              .ok (some (.newOrder
                { id := text.id, instrument, side, type, tif, price := text.price, quantity := text.quantity }))
    else if kind = "C".toList ∨ kind = "CANCEL".toList then
      match extractUnsigned line with
      | none => .error "expected: C <id>".toList
      | some (id, _) => .ok (some (.cancelOrder { id }))
    else .error ("unknown command: ".toList ++ kind)

def parse (instrument : InstrumentId) (text : List Char) : List Command × Option ParseError :=
  readLines (parseLine instrument) 1 [] (getlines text)

end ReplayDriver

open ReplayDriver (parse parseLine)

/-! ### The node program -/

/-- The command of a line, none for a blank one, or the message. -/
def loadLine (instrument : InstrumentId) (line : List Char) : Except (List Char) (Option Command) :=
  match extractWord line with
  | none => .ok none
  | some (kind, line) =>
    if kind = "N".toList ∨ kind = "NEW".toList then
      match extractOrder line with
      | none => .error "malformed order".toList
      | some text =>
        match parseSide text.sideText, parseType text.typeText, parseTif text.tifText with
        | some side, some type, some tif =>
          .ok (some (.newOrder
            { id := text.id, instrument, side, type, tif, price := text.price, quantity := text.quantity }))
        | _, _, _ => .error "malformed order".toList
    else if kind = "C".toList ∨ kind = "CANCEL".toList then
      match extractUnsigned line with
      | none => .error "malformed cancel".toList
      | some (id, _) => .ok (some (.cancelOrder { id }))
    else .error ("unknown command ".toList ++ kind)

/-- The text of an error begins with the place. -/
def place (path : List Char) (line : Nat) : List Char := path ++ ':' :: decimal line ++ ": ".toList

/-- The orders read, and the error. There is no text where the file cannot be opened. -/
def loadOrders (path : List Char) (file : Option (List Char)) (instrument : InstrumentId) :
    List Command × Option (List Char) :=
  match file with
  | none => ([], some ("cannot open ".toList ++ path))
  | some text =>
    let (out, error) := readLines (loadLine instrument) 1 [] (getlines text)
    (out, error.map fun error => place path error.line ++ error.message)

namespace CommandFile

/-! ### The words of a line -/

/-- The words between the white space. -/
def words : List Char → List (List Char)
  | [] => []
  | c :: rest =>
    if isSpace c then words rest
    else if rest.head?.all isSpace then [c] :: words rest
    else
      match words rest with
      | [] => [[c]]
      | word :: others => (c :: word) :: others

/-- **`line >> word`** takes the first word. -/
theorem words_eq (line : List Char) :
    words line =
      match extractWord line with
      | none => []
      | some (word, rest) => word :: words rest := by
  induction line with
  | nil => rfl
  | cons c rest ih =>
    by_cases space : isSpace c = true
    · have skipped : extractWord (c :: rest) = extractWord rest := by
        unfold extractWord
        rw [List.dropWhile_cons_of_pos space]
      rw [skipped, ← ih, words, if_pos space]
    · have taken : ∀ c rest, ¬ isSpace c = true → extractWord (c :: rest) =
          some (c :: rest.takeWhile (!isSpace ·), rest.dropWhile (!isSpace ·)) := by
        intro c rest letter
        unfold extractWord
        simp [letter]
      rw [taken c rest space, words, if_neg space]
      cases rest with
      | nil => rfl
      | cons next others =>
        by_cases ends : isSpace next = true
        · simp [ends]
        · rw [taken next others ends] at ih
          simp [ends, ih]

theorem extractWord_of_words {line word : List Char} {others : List (List Char)}
    (same : words line = word :: others) : ∃ rest, extractWord line = some (word, rest) ∧ words rest = others := by
  rw [words_eq] at same
  cases extracted : extractWord line with
  | none =>
    rw [extracted] at same
    cases same
  | some found =>
    obtain ⟨found, rest⟩ := found
    rw [extracted] at same
    obtain ⟨rfl, rfl⟩ := List.cons.inj same
    exact ⟨rest, rfl, rfl⟩

/-- A line is its white space, its first word and the rest. -/
theorem extractWord_parts {line word rest : List Char} (extracted : extractWord line = some (word, rest)) :
    line.dropWhile isSpace = word ++ rest ∧ word ≠ [] ∧ (∀ c ∈ word, isSpace c = false) ∧
      ∀ c ∈ rest.head?, isSpace c = true := by
  unfold extractWord at extracted
  obtain ⟨nonempty, parts⟩ := Option.ite_none_left_eq_some.mp extracted
  obtain ⟨rfl, rfl⟩ := Prod.mk.inj (Option.some.inj parts)
  refine ⟨(List.takeWhile_append_dropWhile).symm, nonempty, fun c inside => ?_, fun c first => ?_⟩
  · have letter := List.mem_takeWhile_imp inside
    rwa [Bool.not_eq_true'] at letter
  · have stops := List.head?_dropWhile_not (!isSpace ·) (line.dropWhile isSpace)
    rw [Option.mem_def.mp first] at stops
    simpa using stops

theorem takeSign_plain {c : Char} (line : List Char) (noMinus : c ≠ '-') (noPlus : c ≠ '+') :
    takeSign (c :: line) = (false, c :: line) := by
  unfold takeSign
  split
  · rename_i same
    exact absurd (List.cons.inj same).1 noMinus
  · rename_i same
    exact absurd (List.cons.inj same).1 noPlus
  · rfl

theorem takeSign_append {word : List Char} (nonempty : word ≠ []) (rest : List Char) :
    takeSign (word ++ rest) = ((takeSign word).1, (takeSign word).2 ++ rest) := by
  cases word with
  | nil => exact absurd rfl nonempty
  | cons c others =>
    by_cases minus : c = '-'
    · subst minus
      rfl
    · by_cases plus : c = '+'
      · subst plus
        rfl
      · rw [takeSign_plain others minus plus]
        exact takeSign_plain (others ++ rest) minus plus

/-- A word that is a numeral throughout is read off the line. -/
theorem numeral_of_word {line word rest : List Char} (extracted : extractWord line = some (word, rest))
    {negative : Bool} {magnitude : Nat} (isNumeral : numeral word = some (negative, magnitude, [])) :
    numeral line = some (negative, magnitude, rest) := by
  obtain ⟨parts, nonempty, letters, ends⟩ := extractWord_parts extracted
  have noSpace : word.dropWhile isSpace = word := by
    cases word with
    | nil => rfl
    | cons c others =>
      rw [List.dropWhile_cons_of_neg]
      rw [letters c List.mem_cons_self]
      exact Bool.false_ne_true
  have stops : rest.takeWhile Char.isDigit = [] ∧ rest.dropWhile Char.isDigit = rest := by
    cases rest with
    | nil => exact ⟨rfl, rfl⟩
    | cons c others =>
      have blank : c.isDigit = false := by
        have space := ends c rfl
        unfold isSpace at space
        rw [decide_eq_true_eq] at space
        rcases space with rfl | rfl | rfl | rfl | rfl | rfl <;> rfl
      simp [blank]
  unfold numeral at isNumeral ⊢
  rw [noSpace] at isNumeral
  rw [parts, takeSign_append nonempty]
  generalize takeSign word = signed at isNumeral ⊢
  obtain ⟨sign, digits⟩ := signed
  dsimp only at isNumeral ⊢
  obtain ⟨found, read⟩ := Option.ite_none_left_eq_some.mp isNumeral
  obtain ⟨rfl, parts'⟩ := Prod.mk.inj (Option.some.inj read)
  obtain ⟨rfl, all⟩ := Prod.mk.inj parts'
  have digit : ∀ c ∈ digits, c.isDigit = true := List.dropWhile_eq_nil_iff.mp all
  rw [List.takeWhile_append_of_pos digit, List.dropWhile_append_of_pos digit, stops.1, stops.2,
    List.append_nil]
  rw [List.takeWhile_eq_self_iff.mpr digit] at found ⊢
  rw [if_neg found]

/-- What a word says as an `unsigned long`, or as a price, if it is a numeral throughout. -/
def asUnsigned (word : List Char) : Option UInt64 :=
  (extractUnsigned word).bind fun (value, rest) => if rest = [] then some value else none

def asSigned (word : List Char) : Option Int64 :=
  (extractSigned word).bind fun (value, rest) => if rest = [] then some value else none

theorem extractUnsigned_of_words {line word : List Char} {others : List (List Char)}
    (same : words line = word :: others) {value : UInt64} (isValue : asUnsigned word = some value) :
    ∃ rest, extractUnsigned line = some (value, rest) ∧ words rest = others := by
  obtain ⟨rest, extracted, follows⟩ := extractWord_of_words same
  refine ⟨rest, ?_, follows⟩
  obtain ⟨⟨value', rest'⟩, read, whole⟩ := Option.bind_eq_some_iff.mp isValue
  obtain ⟨rfl, same'⟩ := Option.ite_none_right_eq_some.mp whole
  obtain rfl := Option.some.inj same'
  unfold extractUnsigned at read ⊢
  cases isNumeral : numeral word with
  | none =>
    rw [isNumeral] at read
    cases read
  | some found =>
    obtain ⟨negative, magnitude, rest'⟩ := found
    simp only [isNumeral] at read
    obtain ⟨fits, same''⟩ := Option.ite_none_left_eq_some.mp read
    obtain ⟨rfl, rfl⟩ := Prod.mk.inj (Option.some.inj same'')
    simp only [numeral_of_word extracted isNumeral, if_neg fits]

theorem extractSigned_of_words {line word : List Char} {others : List (List Char)}
    (same : words line = word :: others) {value : Int64} (isValue : asSigned word = some value) :
    ∃ rest, extractSigned line = some (value, rest) ∧ words rest = others := by
  obtain ⟨rest, extracted, follows⟩ := extractWord_of_words same
  refine ⟨rest, ?_, follows⟩
  obtain ⟨⟨value', rest'⟩, read, whole⟩ := Option.bind_eq_some_iff.mp isValue
  obtain ⟨rfl, same'⟩ := Option.ite_none_right_eq_some.mp whole
  obtain rfl := Option.some.inj same'
  unfold extractSigned at read ⊢
  cases isNumeral : numeral word with
  | none =>
    rw [isNumeral] at read
    cases read
  | some found =>
    obtain ⟨negative, magnitude, rest'⟩ := found
    simp only [isNumeral] at read
    obtain ⟨fits, same''⟩ := Option.ite_none_left_eq_some.mp read
    obtain ⟨rfl, rfl⟩ := Prod.mk.inj (Option.some.inj same'')
    simp only [numeral_of_word extracted isNumeral, if_neg fits]

/-! ### What a line says -/

/-- The words that say a command. Numbers are numerals that 64 bits hold; an unsigned one with a minus sign
wraps. -/
inductive Spells (instrument : InstrumentId) : List (List Char) → Command → Prop
  | newOrder {kind id side type tif price quantity : List Char} {order : NewOrder}
      (isKind : kind = "N".toList ∨ kind = "NEW".toList) (isId : asUnsigned id = some order.id)
      (isSide : parseSide side = some order.side) (isType : parseType type = some order.type)
      (isTif : parseTif tif = some order.tif) (isPrice : asSigned price = some order.price)
      (isQuantity : asUnsigned quantity = some order.quantity) (here : order.instrument = instrument) :
      Spells instrument [kind, id, side, type, tif, price, quantity] (.newOrder order)
  | cancelOrder {kind id : List Char} {cancel : CancelOrder}
      (isKind : kind = "C".toList ∨ kind = "CANCEL".toList) (isId : asUnsigned id = some cancel.id) :
      Spells instrument [kind, id] (.cancelOrder cancel)

/-- A line says a command if its words begin with those of the command. What follows is not looked at. -/
def Says (instrument : InstrumentId) (line : List Char) (cmd : Command) : Prop :=
  ∃ spelled, Spells instrument spelled cmd ∧ spelled <+: words line

theorem keywords_apart {kind : List Char} (cancels : kind = "C".toList ∨ kind = "CANCEL".toList) :
    ¬ (kind = "N".toList ∨ kind = "NEW".toList) := by
  rcases cancels with rfl | rfl <;> decide

/-- The words of a new order, extracted one after the other. -/
theorem extractOrder_of_words {line id side type tif price quantity : List Char}
    (front : [id, side, type, tif, price, quantity] <+: words line) {order : NewOrder}
    (isId : asUnsigned id = some order.id) (isPrice : asSigned price = some order.price)
    (isQuantity : asUnsigned quantity = some order.quantity) :
    extractOrder line = some
      { id := order.id
        sideText := side
        typeText := type
        tifText := tif
        price := order.price
        quantity := order.quantity } := by
  obtain ⟨others, same⟩ := front
  obtain ⟨afterId, idRead, follows⟩ := extractUnsigned_of_words same.symm isId
  obtain ⟨afterSide, sideRead, follows⟩ := extractWord_of_words follows
  obtain ⟨afterType, typeRead, follows⟩ := extractWord_of_words follows
  obtain ⟨afterTif, tifRead, follows⟩ := extractWord_of_words follows
  obtain ⟨afterPrice, priceRead, follows⟩ := extractSigned_of_words follows isPrice
  obtain ⟨_, quantityRead, _⟩ := extractUnsigned_of_words follows isQuantity
  unfold extractOrder
  simp only [idRead, sideRead, typeRead, tifRead, priceRead, quantityRead, Option.bind_eq_bind,
    Option.bind_some, Option.pure_def]

end CommandFile

/-- **A line that says a command** is read as this command. -/
theorem ReplayDriver.parseLine_says {instrument : InstrumentId} {line : List Char} {cmd : Command}
    (said : Says instrument line cmd) : parseLine instrument line = .ok (some cmd) := by
  obtain ⟨spelled, spells, others, same⟩ := said
  cases spells with
  | newOrder isKind isId isSide isType isTif isPrice isQuantity here =>
    obtain ⟨rest, kindRead, follows⟩ := extractWord_of_words same.symm
    have read := extractOrder_of_words ⟨others, follows.symm⟩ isId isPrice isQuantity
    unfold parseLine
    simp only [kindRead, if_pos isKind, read, isSide, isType, isTif]
    rw [← here]
  | cancelOrder isKind isId =>
    obtain ⟨rest, kindRead, follows⟩ := extractWord_of_words same.symm
    obtain ⟨_, idRead, _⟩ := extractUnsigned_of_words follows isId
    unfold parseLine
    simp only [kindRead, if_neg (keywords_apart isKind), if_pos isKind, idRead]

/-! ### The loop -/

namespace CommandFile

section Loop

variable {readLine : List Char → Except (List Char) (Option Command)} {lines : List (List Char)}

variable (readLine) in
/-- The command that a line gives. -/
def commandOf (raw : List Char) : Option Command := (readLine (uncomment raw)).toOption.join

variable (readLine) in
def wellFormed (raw : List Char) : Bool := (readLine (uncomment raw)).isOk

/-- Lines that are well formed are read one after the other. -/
theorem readLines_ok (good : ∀ raw ∈ lines, wellFormed readLine raw = true) (lineNo : Nat)
    (out : List Command) (rest : List (List Char)) :
    readLines readLine lineNo out (lines ++ rest) =
      readLines readLine (lineNo + lines.length) (out ++ lines.filterMap (commandOf readLine)) rest := by
  induction lines generalizing lineNo out with
  | nil => rw [List.nil_append, List.filterMap_nil, List.append_nil, List.length_nil, Nat.add_zero]
  | cons raw others ih =>
    obtain ⟨here, later⟩ := List.forall_mem_cons.mp good
    have counted : lineNo + 1 + others.length = lineNo + (raw :: others).length := by
      rw [List.length_cons]
      omega
    rw [List.cons_append, readLines, ← counted]
    cases read : readLine (uncomment raw) with
    | error message =>
      unfold wellFormed at here
      rw [read] at here
      cases here
    | ok found =>
      have gives : commandOf readLine raw = found := by
        unfold commandOf
        rw [read]
        rfl
      cases found with
      | none =>
        rw [List.filterMap_cons_none gives]
        exact ih later (lineNo + 1) out
      | some cmd =>
        rw [List.filterMap_cons_some gives, List.append_cons]
        exact ih later (lineNo + 1) (out ++ [cmd])

variable (readLine lines) in
/-- **The loop** reads all lines, or stops at the first that is malformed. -/
theorem readLines_cases (lineNo : Nat) :
    ((∀ raw ∈ lines, wellFormed readLine raw = true) ∧
        readLines readLine lineNo [] lines = (lines.filterMap (commandOf readLine), none)) ∨
      ∃ good bad rest message, lines = good ++ bad :: rest ∧
        (∀ raw ∈ good, wellFormed readLine raw = true) ∧
          readLine (uncomment bad) = .error message ∧
            readLines readLine lineNo [] lines =
              (good.filterMap (commandOf readLine), some { line := lineNo + good.length, message }) := by
  have split := List.takeWhile_append_dropWhile (p := wellFormed readLine) (l := lines)
  have good : ∀ raw ∈ lines.takeWhile (wellFormed readLine), wellFormed readLine raw = true :=
    fun raw member => List.mem_takeWhile_imp member
  have stops := List.head?_dropWhile_not (wellFormed readLine) lines
  generalize lines.takeWhile (wellFormed readLine) = before at split good
  generalize lines.dropWhile (wellFormed readLine) = after at split stops
  rw [← split]
  have read := readLines_ok good lineNo [] after
  cases after with
  | nil =>
    rw [List.append_nil] at read ⊢
    exact Or.inl ⟨good, read⟩
  | cons bad rest =>
    right
    cases badRead : readLine (uncomment bad) with
    | error message =>
      refine ⟨before, bad, rest, message, rfl, good, badRead, read.trans ?_⟩
      rw [readLines, badRead]
      rfl
    | ok found =>
      replace stops : (readLine (uncomment bad)).isOk = false := stops
      rw [badRead] at stops
      cases stops

end Loop

/-- Readers that give the same commands stop at the same line. -/
theorem readLines_same {first second : List Char → Except (List Char) (Option Command)}
    (same : ∀ line, (first line).toOption = (second line).toOption) (lineNo : Nat) (out : List Command)
    (lines : List (List Char)) :
    (readLines first lineNo out lines).1 = (readLines second lineNo out lines).1 ∧
      (readLines first lineNo out lines).2.map (·.line) = (readLines second lineNo out lines).2.map (·.line) := by
  induction lines generalizing lineNo out with
  | nil => exact ⟨rfl, rfl⟩
  | cons raw rest ih =>
    have here := same (uncomment raw)
    rw [readLines, readLines]
    cases read : first (uncomment raw) with
    | error message =>
      cases read' : second (uncomment raw) with
      | error message' => exact ⟨rfl, rfl⟩
      | ok found =>
        rw [read, read'] at here
        cases here
    | ok found =>
      cases read' : second (uncomment raw) with
      | error message' =>
        rw [read, read'] at here
        cases here
      | ok found' =>
        rw [read, read'] at here
        obtain rfl := Option.some.inj here
        cases found with
        | none => exact ih (lineNo + 1) out
        | some cmd => exact ih (lineNo + 1) (out ++ [cmd])

theorem directives_cons (raw : List Char) (rest : List (List Char)) :
    directives (raw :: rest) =
      if isBlank (uncomment raw) = true then directives rest else uncomment raw :: directives rest := by
  unfold directives
  rw [List.map_cons, List.filter_cons]
  cases isBlank (uncomment raw) <;> rfl

/-- Lines that say commands, and blank ones between them. -/
theorem readLines_directives {instrument : InstrumentId} {lines : List (List Char)} {cmds : List Command}
    (said : List.Forall₂ (Says instrument) (directives lines) cmds) (lineNo : Nat) (out : List Command) :
    readLines (parseLine instrument) lineNo out lines = (out ++ cmds, none) := by
  induction lines generalizing cmds lineNo out with
  | nil =>
    cases said
    rw [List.append_nil]
    rfl
  | cons raw rest ih =>
    rw [directives_cons] at said
    rw [readLines]
    split_ifs at said with blank
    · have skipped : parseLine instrument (uncomment raw) = .ok none := by
        unfold parseLine
        rw [ClusterConfig.extractWord_eq_none_iff.mpr blank]
      rw [skipped]
      exact ih said (lineNo + 1) out
    · obtain ⟨cmd, others, here, later, rfl⟩ := List.forall₂_cons_left_iff.mp said
      rw [ReplayDriver.parseLine_says here, List.append_cons]
      exact ih later (lineNo + 1) (out ++ [cmd])

end CommandFile

/-! ### Both parsers -/

/-- Two malformed lines are the same to the loop, whatever is said of them. -/
theorem toOption_error (message : List Char) :
    (Except.error message : Except (List Char) (Option Command)).toOption = none := rfl

theorem loadLine_toOption (instrument : InstrumentId) (line : List Char) :
    (loadLine instrument line).toOption = (parseLine instrument line).toOption := by
  unfold loadLine parseLine
  cases extractWord line with
  | none => rfl
  | some found =>
    obtain ⟨kind, rest⟩ := found
    dsimp only
    split_ifs
    · cases extractOrder rest with
      | none => simp only [toOption_error]
      | some text =>
        dsimp only
        cases parseSide text.sideText with
        | none => simp only [toOption_error]
        | some side =>
          cases parseType text.typeText with
          | none => simp only [toOption_error]
          | some type =>
            cases parseTif text.tifText with
            | none => simp only [toOption_error]
            | some tif => rfl
    · cases extractUnsigned rest with
      | none => simp only [toOption_error]
      | some found => rfl
    · simp only [toOption_error]

/-- **The node program reads what the driver reads**: the same commands, up to the first malformed line,
which both report. -/
theorem loadOrders_agrees (instrument : InstrumentId) (path text : List Char) :
    (loadOrders path (some text) instrument).1 = (parse instrument text).1 ∧
      (∃ message, (loadOrders path (some text) instrument).2 =
        (parse instrument text).2.map fun error => place path error.line ++ message) ∧
        ∀ error ∈ (parse instrument text).2, ∃ good bad rest, getlines text = good ++ bad :: rest ∧
          (∀ raw ∈ good, wellFormed (parseLine instrument) raw = true) ∧
            wellFormed (parseLine instrument) bad = false ∧ error.line = good.length + 1 ∧
              (parse instrument text).1 = good.filterMap (commandOf (parseLine instrument)) := by
  obtain ⟨commands, stops⟩ := readLines_same (loadLine_toOption instrument) 1 [] (getlines text)
  refine ⟨commands, ?_, fun error stopped => ?_⟩
  · unfold loadOrders parse
    dsimp only
    cases read : (readLines (loadLine instrument) 1 [] (getlines text)).2 with
    | none =>
      rw [read] at stops
      refine ⟨[], ?_⟩
      rw [Option.map_eq_none_iff.mp stops.symm]
      rfl
    | some error =>
      rw [read] at stops
      obtain ⟨error', read', sameLine⟩ := Option.map_eq_some_iff.mp stops.symm
      refine ⟨error.message, ?_⟩
      rw [read', Option.map_some, Option.map_some, sameLine]
  · rcases readLines_cases (parseLine instrument) (getlines text) 1 with
      ⟨_, read⟩ | ⟨good, bad, rest, message, lines, before, malformed, read⟩
    · rw [Option.mem_def, parse, read] at stopped
      cases stopped
    · rw [Option.mem_def, parse, read] at stopped
      obtain rfl := Option.some.inj stopped
      refine ⟨good, bad, rest, lines, before, ?_, Nat.add_comm _ _, ?_⟩
      · unfold wellFormed
        rw [malformed]
        rfl
      · rw [parse, read]

theorem loadOrders_of_parse {instrument : InstrumentId} {text : List Char} {cmds : List Command}
    (read : parse instrument text = (cmds, none)) (path : List Char) :
    loadOrders path (some text) instrument = (cmds, none) := by
  obtain ⟨commands, stops⟩ := readLines_same (loadLine_toOption instrument) 1 [] (getlines text)
  replace read : readLines (parseLine instrument) 1 [] (getlines text) = (cmds, none) := read
  rw [read] at commands stops
  have accepted := Option.map_eq_none_iff.mp stops
  refine Prod.ext commands ?_
  unfold loadOrders
  dsimp only
  rw [accepted]
  rfl

/-- **A file in which every line says a command**, or is blank, is read as these commands by both. -/
theorem parse_directives {instrument : InstrumentId} {text : List Char} {cmds : List Command}
    (said : List.Forall₂ (Says instrument) (directives (getlines text)) cmds) (path : List Char) :
    parse instrument text = (cmds, none) ∧ loadOrders path (some text) instrument = (cmds, none) :=
  have read : parse instrument text = (cmds, none) := readLines_directives said 1 []
  ⟨read, loadOrders_of_parse read path⟩

/-- Short and long words, a comment, a blank line, more space than is needed, and no line break at the end. -/
def sampleFile : List Char := "NEW 1 B  L GTC -5 +10 # first\n\n\tC 1 now".toList

theorem parse_directives_sampleFile :
    parse 7 sampleFile =
        ([.newOrder ⟨1, 7, .buy, .limit, .goodTillCancel, -5, 10⟩, .cancelOrder ⟨1⟩], none) ∧
      loadOrders "f".toList (some sampleFile) 7 =
        ([.newOrder ⟨1, 7, .buy, .limit, .goodTillCancel, -5, 10⟩, .cancelOrder ⟨1⟩], none) := by
  have lines : directives (getlines sampleFile) =
      ["NEW 1 B  L GTC -5 +10 ".toList, "\tC 1 now".toList] := by decide +kernel
  refine parse_directives ?_ _
  rw [lines]
  refine .cons ⟨["NEW".toList, "1".toList, "B".toList, "L".toList, "GTC".toList, "-5".toList, "+10".toList],
    .newOrder ?_ ?_ ?_ ?_ ?_ ?_ ?_ rfl, ?_⟩ (.cons ⟨["C".toList, "1".toList], .cancelOrder ?_ ?_, ?_⟩ .nil)
  all_goals decide +kernel

/-! ### Writing a file -/

/-- The words of a command's line. -/
def Command.fields : Command → List (List Char)
  | .newOrder order =>
    ["N".toList, decimal order.id.toNat, order.side.toString, order.type.toString, order.tif.toString,
      signed order.price, decimal order.quantity.toNat]
  | .cancelOrder cancel => ["C".toList, decimal cancel.id.toNat]

/-- The command for another instrument. A line does not name one. -/
def Command.on (instrument : InstrumentId) : Command → Command
  | .newOrder order => .newOrder { order with instrument }
  | .cancelOrder cancel => .cancelOrder cancel

namespace CommandFile

def line (cmd : Command) : List Char := [' '].intercalate cmd.fields

def render (cmds : List Command) : List Char := cmds.flatMap fun cmd => line cmd ++ ['\n']

/-- A word that white space and comments leave alone. -/
structure Token (word : List Char) : Prop where
  nonempty : word ≠ []
  letter : ∀ c ∈ word, isSpace c = false ∧ c ≠ '#'

theorem Token.of_digits {word : List Char} (nonempty : word ≠ [])
    (digits : ∀ c ∈ word, c = '-' ∨ c.isDigit = true) : Token word := by
  have neither : ([' ', '\t', '\n', '\x0b', '\x0c', '\r', '#'].all fun c =>
      decide ¬ (c = '-' ∨ c.isDigit = true)) = true := by decide
  refine ⟨nonempty, fun c inside => ?_⟩
  have other : c ∉ [' ', '\t', '\n', '\x0b', '\x0c', '\r', '#'] := fun listed =>
    of_decide_eq_true (List.all_eq_true.mp neither c listed) (digits c inside)
  simp only [List.mem_cons, List.not_mem_nil, or_false, not_or] at other
  obtain ⟨space, tab, line, vertical, form, carriage, hash⟩ := other
  refine ⟨?_, hash⟩
  unfold isSpace
  simp only [space, tab, line, vertical, form, carriage, or_self, decide_false]

theorem token_decimal (n : Nat) : Token (decimal n) :=
  .of_digits Nat.toDigits_ne_nil fun _ inside =>
    Or.inr (Nat.isDigit_of_mem_toDigits (by decide) (by decide) inside)

theorem token_signed (price : Price) : Token (signed price) := by
  have digits : ∀ c ∈ decimal price.toInt.natAbs, c.isDigit = true := fun c inside =>
    Nat.isDigit_of_mem_toDigits (by decide) (by decide) inside
  unfold signed
  split_ifs
  · exact .of_digits (List.cons_ne_nil _ _)
      (List.forall_mem_cons.mpr ⟨Or.inl rfl, fun c inside => Or.inr (digits c inside)⟩)
  · exact .of_digits Nat.toDigits_ne_nil fun c inside => Or.inr (digits c inside)

theorem token_fields (cmd : Command) : ∀ word ∈ cmd.fields, Token word := by
  have decided : ∀ {word : List Char},
      word ≠ [] ∧ (word.all fun c => decide (isSpace c = false ∧ c ≠ '#')) = true → Token word :=
    fun both => ⟨both.1, fun c inside => of_decide_eq_true (List.all_eq_true.mp both.2 c inside)⟩
  cases cmd with
  | newOrder order =>
    have side : Token order.side.toString := by cases order.side <;> exact decided (by decide)
    have type : Token order.type.toString := by cases order.type <;> exact decided (by decide)
    have tif : Token order.tif.toString := by cases order.tif <;> exact decided (by decide)
    simp only [Command.fields, List.forall_mem_cons]
    exact ⟨decided (by decide), token_decimal _, side, type, tif, token_signed _, token_decimal _,
      fun _ none => absurd none List.not_mem_nil⟩
  | cancelOrder cancel =>
    simp only [Command.fields, List.forall_mem_cons]
    exact ⟨decided (by decide), token_decimal _, fun _ none => absurd none List.not_mem_nil⟩

/-! ### Reading it back -/

theorem words_append {word rest : List Char} (token : Token word)
    (ends : ∀ c ∈ rest.head?, isSpace c = true) : words (word ++ rest) = word :: words rest := by
  have letters : ∀ c ∈ word, (!isSpace c) = true := fun c inside => by rw [(token.letter c inside).1]; rfl
  have skips : (word ++ rest).dropWhile isSpace = word ++ rest := by
    obtain ⟨c, others, rfl⟩ := List.exists_cons_of_ne_nil token.nonempty
    rw [List.cons_append, List.dropWhile_cons_of_neg]
    rw [(token.letter c List.mem_cons_self).1]
    exact Bool.false_ne_true
  have stops : rest.takeWhile (!isSpace ·) = [] ∧ rest.dropWhile (!isSpace ·) = rest := by
    cases rest with
    | nil => exact ⟨rfl, rfl⟩
    | cons c others => simp [ends c rfl]
  have extracted : extractWord (word ++ rest) = some (word, rest) := by
    unfold extractWord
    rw [skips]
    dsimp only
    rw [List.takeWhile_append_of_pos letters, List.dropWhile_append_of_pos letters, stops.1, stops.2,
      List.append_nil, if_neg token.nonempty]
  rw [words_eq, extracted]

theorem words_intercalate {texts : List (List Char)} (tokens : ∀ word ∈ texts, Token word) :
    words ([' '].intercalate texts) = texts := by
  induction texts with
  | nil => rfl
  | cons word others ih =>
    obtain ⟨here, later⟩ := List.forall_mem_cons.mp tokens
    cases others with
    | nil =>
      have alone : words (word ++ []) = word :: words [] := words_append here fun _ none => nomatch none
      rw [List.append_nil] at alone
      rw [List.intercalate_singleton]
      exact alone
    | cons next more =>
      rw [List.intercalate_cons_cons, List.append_assoc]
      have split : words (word ++ ([' '] ++ [' '].intercalate (next :: more))) = _ :=
        words_append here fun c first => by
          obtain rfl := Option.some.inj first
          rfl
      rw [split]
      exact congrArg (word :: ·) (ih later)

theorem takeSign_digits {digits : List Char} (digit : ∀ c ∈ digits, c.isDigit = true) :
    takeSign digits = (false, digits) := by
  cases digits with
  | nil => rfl
  | cons c others =>
    have isDigit := digit c List.mem_cons_self
    refine takeSign_plain others (fun minus => ?_) fun plus => ?_
    · rw [minus] at isDigit
      exact absurd isDigit (by decide)
    · rw [plus] at isDigit
      exact absurd isDigit (by decide)

/-- What is read of digits, with and without a minus sign. -/
theorem numeral_digits (digits : List Char) (nonempty : digits ≠ [])
    (digit : ∀ c ∈ digits, c.isDigit = true) :
    numeral digits = some (false, Nat.ofDigitChars 10 digits 0, []) ∧
      numeral ('-' :: digits) = some (true, Nat.ofDigitChars 10 digits 0, []) := by
  have noSpace : ∀ word, Token word → word.dropWhile isSpace = word := by
    intro word token
    obtain ⟨c, others, rfl⟩ := List.exists_cons_of_ne_nil token.nonempty
    rw [List.dropWhile_cons_of_neg]
    rw [(token.letter c List.mem_cons_self).1]
    exact Bool.false_ne_true
  have all : digits.takeWhile Char.isDigit = digits := List.takeWhile_eq_self_iff.mpr digit
  have noRest : digits.dropWhile Char.isDigit = [] := List.dropWhile_eq_nil_iff.mpr digit
  constructor
  · unfold numeral
    rw [noSpace _ (.of_digits nonempty fun c inside => Or.inr (digit c inside)), takeSign_digits digit]
    dsimp only
    rw [all, noRest, if_neg nonempty]
  · unfold numeral
    rw [noSpace _ (.of_digits (List.cons_ne_nil _ _)
      (List.forall_mem_cons.mpr ⟨Or.inl rfl, fun c inside => Or.inr (digit c inside)⟩))]
    have sign : takeSign ('-' :: digits) = (true, digits) := rfl
    rw [sign]
    dsimp only
    rw [all, noRest, if_neg nonempty]

theorem asUnsigned_decimal (value : UInt64) : asUnsigned (decimal value.toNat) = some value := by
  have read := (numeral_digits (decimal value.toNat) Nat.toDigits_ne_nil fun c inside =>
    Nat.isDigit_of_mem_toDigits (by decide) (by decide) inside).1
  have back : Nat.ofDigitChars 10 (decimal value.toNat) 0 = value.toNat := Nat.ofDigitChars_ten_toDigits
  unfold asUnsigned extractUnsigned
  rw [read, back]
  dsimp only
  rw [if_neg (Nat.not_le.mpr value.toNat_lt), if_neg Bool.false_ne_true]
  show (if ([] : List Char) = [] then some (UInt64.ofNat value.toNat) else none) = some value
  rw [if_pos rfl, UInt64.ofNat_toNat]

theorem asSigned_signed (price : Price) : asSigned (signed price) = some price := by
  have digit : ∀ c ∈ decimal price.toInt.natAbs, c.isDigit = true := fun c inside =>
    Nat.isDigit_of_mem_toDigits (by decide) (by decide) inside
  obtain ⟨plain, minus⟩ := numeral_digits (decimal price.toInt.natAbs) Nat.toDigits_ne_nil digit
  have back : Nat.ofDigitChars 10 (decimal price.toInt.natAbs) 0 = price.toInt.natAbs :=
    Nat.ofDigitChars_ten_toDigits
  have low := price.le_toInt
  have high := price.toInt_lt
  rw [back] at plain minus
  have read : ∃ negative, numeral (signed price) = some (negative, price.toInt.natAbs, []) ∧
      (if negative = true then -(price.toInt.natAbs : Int) else price.toInt.natAbs) = price.toInt := by
    unfold signed
    split_ifs with negative
    · refine ⟨true, minus, ?_⟩
      rw [if_pos rfl]
      omega
    · refine ⟨false, plain, ?_⟩
      rw [if_neg Bool.false_ne_true]
      omega
  obtain ⟨negative, isNumeral, value⟩ := read
  unfold asSigned extractSigned
  rw [isNumeral]
  dsimp only
  rw [value, if_neg (by omega)]
  show (if ([] : List Char) = [] then some (Int64.ofInt price.toInt) else none) = some price
  rw [if_pos rfl, Int64.ofInt_toInt]

theorem spells_fields (instrument : InstrumentId) (cmd : Command) :
    Spells instrument cmd.fields (cmd.on instrument) := by
  cases cmd with
  | newOrder order =>
    refine .newOrder (Or.inl rfl) (asUnsigned_decimal _) ?_ ?_ ?_ (asSigned_signed _) (asUnsigned_decimal _) rfl
    · show parseSide order.side.toString = some order.side
      cases order.side <;> decide
    · show parseType order.type.toString = some order.type
      cases order.type <;> decide
    · show parseTif order.tif.toString = some order.tif
      cases order.tif <;> decide
  | cancelOrder cancel => exact .cancelOrder (Or.inl rfl) (asUnsigned_decimal _)

theorem getlines_append {text : List Char} (whole : '\n' ∉ text) (rest : List Char) :
    getlines (text ++ '\n' :: rest) = text :: getlines rest := by
  induction text with
  | nil => rfl
  | cons c others ih =>
    obtain ⟨other, later⟩ := not_or.mp (mt List.mem_cons.mpr whole)
    rw [List.cons_append, getlines, if_neg (Ne.symm other), ih later]

/-- What is written for a command has no comment and is one line. -/
theorem notMem_line (cmd : Command) : '#' ∉ line cmd ∧ '\n' ∉ line cmd := by
  have letters : ∀ c ∈ line cmd, c = ' ' ∨ isSpace c = false ∧ c ≠ '#' := by
    intro c inside
    unfold line at inside
    have tokens := token_fields cmd
    generalize cmd.fields = texts at inside tokens
    induction texts with
    | nil => cases inside
    | cons word others ih =>
      obtain ⟨here, later⟩ := List.forall_mem_cons.mp tokens
      cases others with
      | nil =>
        rw [List.intercalate_singleton] at inside
        exact Or.inr (here.letter c inside)
      | cons next more =>
        rw [List.intercalate_cons_cons, List.append_assoc] at inside
        rcases List.mem_append.mp inside with first | inside
        · exact Or.inr (here.letter c first)
        · rcases List.mem_append.mp inside with between | inside
          · exact Or.inl (List.mem_singleton.mp between)
          · exact ih inside later
  constructor
  · intro inside
    rcases letters '#' inside with space | ⟨_, other⟩
    · exact absurd space (by decide)
    · exact other rfl
  · intro inside
    rcases letters '\n' inside with space | ⟨other, _⟩
    · exact absurd space (by decide)
    · exact absurd other (by decide)

theorem directives_render (cmds : List Command) : directives (getlines (render cmds)) = cmds.map line := by
  induction cmds with
  | nil => rfl
  | cons cmd rest ih =>
    obtain ⟨noComment, whole⟩ := notMem_line cmd
    have same : uncomment (line cmd) = line cmd :=
      List.takeWhile_eq_self_iff.mpr fun c inside =>
        decide_eq_true fun comment => noComment (comment ▸ inside)
    have full : ¬ isBlank (uncomment (line cmd)) = true := by
      intro blank
      have nothing := words_eq (line cmd)
      rw [same] at blank
      rw [ClusterConfig.extractWord_eq_none_iff.mpr blank] at nothing
      unfold line at nothing
      rw [words_intercalate (token_fields cmd)] at nothing
      cases cmd <;> cases nothing
    show directives (getlines (line cmd ++ ['\n'] ++ render rest)) = _
    rw [List.append_assoc, List.singleton_append, getlines_append whole, directives_cons, if_neg full, same,
      ih, List.map_cons]

end CommandFile

/-- **Every list of commands has a file** that both programs read as these commands. -/
theorem parse_render (instrument : InstrumentId) (cmds : List Command) (path : List Char) :
    parse instrument (render cmds) = (cmds.map (·.on instrument), none) ∧
      loadOrders path (some (render cmds)) instrument = (cmds.map (·.on instrument), none) := by
  have said : List.Forall₂ (Says instrument) (directives (getlines (render cmds)))
      (cmds.map (·.on instrument)) := by
    rw [directives_render, List.forall₂_map_left_iff, List.forall₂_map_right_iff, List.forall₂_same]
    intro cmd _
    have same : words (line cmd) = cmd.fields := words_intercalate (token_fields cmd)
    exact ⟨cmd.fields, spells_fields instrument cmd, same ▸ List.prefix_rfl⟩
  have read : parse instrument (render cmds) = (cmds.map (·.on instrument), none) :=
    readLines_directives said 1 []
  exact ⟨read, loadOrders_of_parse read path⟩

end Sententia
