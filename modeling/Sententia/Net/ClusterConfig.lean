/-
**The cluster configuration** (`cluster_config.hpp`, `cluster_config.cpp`), and whether its ids are the ones
that were written.

A text is a list of characters. The stream extractions of the source are functions from what is left of a
line to the value and the rest; `unsigned long` has 64 bits. A minus sign is accepted and wraps.

The id is read with 64 bits and then cast to a `NodeId`, without the check the port gets. So the ids of an
accepted text are the written ones modulo `2 ^ 32` (`parseFrom_ok`), and they are what was written exactly
when every written id is from 1 to `2 ^ 32 - 1` (`asWritten_iff`).
-/

import Mathlib.Algebra.Group.Int.Defs
import Mathlib.Algebra.Group.Nat.Defs
import Mathlib.Data.List.Forall2
import Mathlib.Data.List.Nodup
import Sententia.Net.Message

namespace Sententia

structure PeerConfig where
  id : NodeId
  host : List Char
  port : UInt16
deriving Repr, DecidableEq

structure ClusterConfig where
  peers : List PeerConfig := []
deriving Repr, DecidableEq

structure ConfigError where
  line : Nat
  message : List Char
deriving Repr, DecidableEq

namespace ClusterConfig

/-! ### Streams -/

/-- `isspace` in the C locale. -/
def isSpace (c : Char) : Bool :=
  c = ' ' ∨ c = '\t' ∨ c = '\n' ∨ c = '\x0b' ∨ c = '\x0c' ∨ c = '\r'

/-- The lines that `std::getline` returns. What follows the last line break is a line unless it is empty. -/
def getlines : List Char → List (List Char)
  | [] => []
  | c :: rest =>
    if c = '\n' then [] :: getlines rest
    else
      match getlines rest with
      | [] => [[c]]
      | first :: others => (c :: first) :: others

/-- `line >> word` for a string. -/
def extractWord (line : List Char) : Option (List Char × List Char) :=
  let line := line.dropWhile isSpace
  let word := line.takeWhile (!isSpace ·)
  if word = [] then none else some (word, line.dropWhile (!isSpace ·))

/-- The sign of a numeral, and what follows it. -/
def takeSign : List Char → Bool × List Char
  | '-' :: rest => (true, rest)
  | '+' :: rest => (false, rest)
  | line => (false, line)

/-- The numeral a line starts with: the sign, the magnitude and what follows. -/
def numeral (line : List Char) : Option (Bool × Nat × List Char) :=
  let (negative, line) := takeSign (line.dropWhile isSpace)
  let digits := line.takeWhile Char.isDigit
  if digits = [] then none
  else some (negative, Nat.ofDigitChars 10 digits 0, line.dropWhile Char.isDigit)

/-- `line >> number` for an `unsigned long`: a magnitude that does not fit fails, a negative one wraps. -/
def extractUnsigned (line : List Char) : Option (UInt64 × List Char) :=
  match numeral line with
  | none => none
  | some (negative, magnitude, rest) =>
    if magnitude ≥ 2 ^ 64 then none
    else some (if negative then -UInt64.ofNat magnitude else UInt64.ofNat magnitude, rest)

/-! ### Parsing -/

/-- `line >> id >> peer.host >> port`. -/
def extractPeer (line : List Char) : Option (UInt64 × List Char × UInt64) := do
  let (id, line) ← extractUnsigned line
  let (host, line) ← extractWord line
  let (port, _) ← extractUnsigned line
  return (id, host, port)

/-- The line without its comment. -/
def uncomment (raw : List Char) : List Char := raw.takeWhile (· ≠ '#')

/-- The peer of a line, or none for a blank one. -/
def parseLine (lineNo : Nat) (line : List Char) : Except ConfigError (Option PeerConfig) :=
  match extractWord line with
  | none => .ok none
  | some (keyword, line) =>
    if keyword ≠ "node".toList then
      .error { line := lineNo, message := "unknown directive: ".toList ++ keyword }
    else
      match extractPeer line with
      | none => .error { line := lineNo, message := "expected: node <id> <host> <port>".toList }
      | some (id, host, port) =>
        if port = 0 ∨ port > 65535 then
          .error { line := lineNo, message := "port out of range: ".toList ++ Nat.toDigits 10 port.toNat }
        else .ok (some { id := id.toUInt32, host, port := port.toUInt16 })

/-- The loop over the lines. -/
def parseFrom (lineNo : Nat) (config : ClusterConfig) (seenIds : List NodeId) :
    List (List Char) → Except ConfigError ClusterConfig
  | [] => .ok config
  | raw :: rest =>
    match parseLine lineNo (uncomment raw) with
    | .error error => .error error
    | .ok none => parseFrom (lineNo + 1) config seenIds rest
    | .ok (some peer) =>
      -- Duplicate ids would make routing ambiguous.
      if peer.id ∈ seenIds then
        .error { line := lineNo, message := "duplicate node id: ".toList ++ Nat.toDigits 10 peer.id.toNat }
      else parseFrom (lineNo + 1) { peers := config.peers ++ [peer] } (peer.id :: seenIds) rest

def parseClusterConfig (text : List Char) : Except ConfigError ClusterConfig :=
  match parseFrom 1 {} [] (getlines text) with
  | .error error => .error error
  | .ok config =>
    if config.peers.isEmpty then
      .error { line := 0, message := "cluster config lists no nodes".toList }
    else .ok config

/-! ### What is written -/

def isBlank (line : List Char) : Bool := line.all isSpace

/-- The lines that are not blank once the comments are gone. -/
def directives (lines : List (List Char)) : List (List Char) :=
  (lines.map uncomment).filter (!isBlank ·)

/-- The number that is written after the keyword. -/
def writtenId (line : List Char) : Option Int :=
  match extractWord line with
  | none => none
  | some (_, rest) => (numeral rest).map fun (negative, magnitude, _) =>
      if negative then -(magnitude : Int) else magnitude

/-- The configuration says what the text says. -/
structure AsWritten (text : List Char) (config : ClusterConfig) : Prop where
  ids : List.Forall₂ (fun line peer => writtenId line = some (peer.id.toNat : Int))
    (directives (getlines text)) config.peers
  /-- Zero stands for an unknown peer and for no vote. -/
  reserved : ∀ peer ∈ config.peers, peer.id ≠ 0
  distinct : (config.peers.map (·.id)).Nodup
  ports : ∀ peer ∈ config.peers, 1 ≤ peer.port.toNat ∧ peer.port.toNat ≤ 65535
  apart : ∀ first ∈ (directives (getlines text)).zip config.peers,
    ∀ second ∈ (directives (getlines text)).zip config.peers,
      writtenId first.1 ≠ writtenId second.1 → first.2.id ≠ second.2.id

/-- Every written id is one that a `NodeId` can name a node with. -/
def IdsInRange (text : List Char) : Prop :=
  ∀ line ∈ directives (getlines text), ∀ id ∈ writtenId line, 1 ≤ id ∧ id < 2 ^ 32

/-- The peer has the id of the line, modulo `2 ^ 32`, and a port that can be dialled. -/
structure ParsedFrom (line : List Char) (peer : PeerConfig) : Prop where
  id : ∃ written : Int, writtenId line = some written ∧ (peer.id.toNat : Int) = written % 2 ^ 32
  port : 1 ≤ peer.port.toNat

/-! ### Lines -/

theorem extractWord_eq_none_iff {line : List Char} : extractWord line = none ↔ isBlank line = true := by
  unfold extractWord isBlank
  simp only [ite_eq_left_iff, reduceCtorEq, imp_false, not_not]
  induction line with
  | nil => simp
  | cons c rest ih =>
    by_cases space : isSpace c = true
    · simpa [List.dropWhile_cons, space] using ih
    · simp [space]

/-- What an `unsigned long` is read as. -/
theorem toNat_of_extractUnsigned {line rest : List Char} {value : UInt64}
    (read : extractUnsigned line = some (value, rest)) :
    ∃ negative magnitude, numeral line = some (negative, magnitude, rest) ∧
      (value.toNat : Int) = (if negative then -(magnitude : Int) else magnitude) % 2 ^ 64 := by
  unfold extractUnsigned at read
  cases written : numeral line with
  | none =>
    rw [written] at read
    cases read
  | some found =>
    obtain ⟨negative, magnitude, rest'⟩ := found
    simp only [written] at read
    obtain ⟨fits, same⟩ := Option.ite_none_left_eq_some.mp read
    obtain ⟨value', rest''⟩ := Prod.mk.inj (Option.some.inj same)
    refine ⟨negative, magnitude, by rw [rest''], ?_⟩
    have small : (UInt64.ofNat magnitude).toNat = magnitude :=
      UInt64.toNat_ofNat_of_lt' (Nat.lt_of_not_le fits)
    rw [← value']
    cases negative with
    | false =>
      rw [if_neg Bool.false_ne_true, if_neg Bool.false_ne_true, small]
      omega
    | true =>
      rw [if_pos rfl, if_pos rfl, UInt64.toNat_neg, small]
      show (((2 ^ 64 - magnitude) % 2 ^ 64 : Nat) : Int) = _
      omega

/-- **A line** that is accepted is blank, or gives a peer. -/
theorem parseLine_ok {lineNo : Nat} {line : List Char} {found : Option PeerConfig}
    (parsed : parseLine lineNo line = .ok found) :
    (isBlank line = true ∧ found = none) ∨
      (isBlank line = false ∧ ∃ peer, found = some peer ∧ ParsedFrom line peer) := by
  unfold parseLine at parsed
  cases keyworded : extractWord line with
  | none =>
    rw [keyworded] at parsed
    exact Or.inl ⟨extractWord_eq_none_iff.mp keyworded, (Except.ok.inj parsed).symm⟩
  | some word =>
    obtain ⟨keyword, rest⟩ := word
    have full : isBlank line = false := by
      refine Bool.eq_false_iff.mpr fun blank => ?_
      rw [extractWord_eq_none_iff.mpr blank] at keyworded
      cases keyworded
    simp only [keyworded] at parsed
    split_ifs at parsed with other
    cases fields : extractPeer rest with
    | none =>
      rw [fields] at parsed
      cases parsed
    | some read =>
      obtain ⟨id, host, port⟩ := read
      simp only [fields] at parsed
      split_ifs at parsed with outside
      rw [not_or] at outside
      obtain ⟨⟨id', rest'⟩, idRead, fields⟩ := Option.bind_eq_some_iff.mp fields
      obtain ⟨⟨host', rest''⟩, _, fields⟩ := Option.bind_eq_some_iff.mp fields
      obtain ⟨⟨port', rest'''⟩, _, fields⟩ := Option.bind_eq_some_iff.mp fields
      obtain ⟨rfl, same⟩ := Prod.mk.inj (Option.some.inj fields)
      obtain ⟨rfl, rfl⟩ := Prod.mk.inj same
      refine Or.inr ⟨full, _, (Except.ok.inj parsed).symm, ?_, ?_⟩
      · obtain ⟨negative, magnitude, written, value⟩ := toNat_of_extractUnsigned idRead
        refine ⟨if negative then -(magnitude : Int) else magnitude, ?_, ?_⟩
        · unfold writtenId
          rw [keyworded]
          simp only [written, Option.map_some]
        · show ((id'.toUInt32.toNat : Nat) : Int) = _
          rw [UInt64.toNat_toUInt32]
          generalize (if negative then -(magnitude : Int) else magnitude) = number at value ⊢
          omega
      · have positive : port'.toNat ≠ 0 := fun zero => outside.1 (UInt64.toNat.inj zero)
        have small : port'.toNat ≤ 65535 := UInt64.le_iff_toNat_le.mp (UInt64.not_lt.mp outside.2)
        show 1 ≤ port'.toUInt16.toNat
        rw [UInt64.toNat_toUInt16]
        omega

/-! ### The loop -/

/-- **The loop** adds one peer for each directive, and never an id a second time. -/
theorem parseFrom_ok (lines : List (List Char)) {lineNo : Nat} {config result : ClusterConfig}
    {seenIds : List NodeId} (seen : ∀ peer ∈ config.peers, peer.id ∈ seenIds)
    (distinct : (config.peers.map (·.id)).Nodup)
    (parsed : parseFrom lineNo config seenIds lines = .ok result) :
    (result.peers.map (·.id)).Nodup ∧ ∃ added, result.peers = config.peers ++ added ∧
      List.Forall₂ ParsedFrom (directives lines) added := by
  induction lines generalizing lineNo config seenIds with
  | nil =>
    obtain rfl := Except.ok.inj parsed
    exact ⟨distinct, [], (List.append_nil _).symm, .nil⟩
  | cons raw rest ih =>
    rw [parseFrom] at parsed
    cases line : parseLine lineNo (uncomment raw) with
    | error error =>
      rw [line] at parsed
      cases parsed
    | ok found =>
      rw [line] at parsed
      rcases parseLine_ok line with ⟨blank, rfl⟩ | ⟨full, peer, rfl, fromLine⟩
      · have skipped : directives (raw :: rest) = directives rest := by
          unfold directives
          rw [List.map_cons, List.filter_cons_of_neg (by rw [blank]; exact Bool.false_ne_true)]
        rw [skipped]
        exact ih seen distinct parsed
      · dsimp only at parsed
        split_ifs at parsed with again
        have kept : directives (raw :: rest) = uncomment raw :: directives rest := by
          unfold directives
          rw [List.map_cons, List.filter_cons_of_pos (by rw [full]; rfl)]
        have seen' : ∀ other ∈ config.peers ++ [peer], other.id ∈ peer.id :: seenIds := by
          intro other member
          rcases List.mem_append.mp member with old | new
          · exact List.mem_cons_of_mem _ (seen other old)
          · rw [List.mem_singleton.mp new]
            exact List.mem_cons_self
        have distinct' : ((config.peers ++ [peer]).map (·.id)).Nodup := by
          rw [List.map_append, List.map_singleton, List.nodup_append]
          refine ⟨distinct, List.nodup_singleton _, fun id old other new same => ?_⟩
          obtain ⟨known, member, rfl⟩ := List.mem_map.mp old
          rw [List.mem_singleton.mp new] at same
          exact again (same ▸ seen known member)
        obtain ⟨nodup, added, peers, fromLines⟩ := ih seen' distinct' parsed
        refine ⟨nodup, peer :: added, ?_, ?_⟩
        · rw [peers, List.append_assoc, List.singleton_append]
        · rw [kept]
          exact .cons fromLine fromLines

theorem parseClusterConfig_ok {text : List Char} {config : ClusterConfig}
    (parsed : parseClusterConfig text = .ok config) :
    (config.peers.map (·.id)).Nodup ∧
      List.Forall₂ ParsedFrom (directives (getlines text)) config.peers := by
  unfold parseClusterConfig at parsed
  cases looped : parseFrom 1 {} [] (getlines text) with
  | error error =>
    rw [looped] at parsed
    cases parsed
  | ok result =>
    simp only [looped] at parsed
    split_ifs at parsed with zero
    obtain rfl := Except.ok.inj parsed
    obtain ⟨distinct, added, peers, fromLines⟩ :=
      parseFrom_ok (getlines text) (fun _ member => absurd member List.not_mem_nil) List.nodup_nil looped
    rw [List.nil_append] at peers
    exact ⟨distinct, peers ▸ fromLines⟩

/-! ### The ids -/

/-- Whatever is on the one side of two related lists has a partner on the other. -/
theorem exists_partner {α β : Type} {R : α → β → Prop} {first : List α} {second : List β}
    (related : List.Forall₂ R first second) {a : α} (member : a ∈ first) : ∃ b ∈ second, R a b := by
  induction related with
  | nil => cases member
  | cons here _ ih =>
    rcases List.mem_cons.mp member with rfl | later
    · exact ⟨_, List.mem_cons_self, here⟩
    · obtain ⟨b, listed, there⟩ := ih later
      exact ⟨b, List.mem_cons_of_mem _ listed, there⟩

theorem ParsedFrom.asWritten {line : List Char} {peer : PeerConfig} (fromLine : ParsedFrom line peer)
    (inRange : ∀ id ∈ writtenId line, 1 ≤ id ∧ id < 2 ^ 32) :
    writtenId line = some (peer.id.toNat : Int) ∧ peer.id ≠ 0 := by
  obtain ⟨written, isWritten, reduced⟩ := fromLine.id
  obtain ⟨positive, small⟩ := inRange written isWritten
  have same : (peer.id.toNat : Int) = written := by omega
  refine ⟨same ▸ isWritten, fun zero => ?_⟩
  rw [zero] at same
  have zero : ((0 : NodeId).toNat : Int) = 0 := rfl
  omega

/-- **The ids are what was written**, in exactly those accepted texts in which every written id is from 1 to
`2 ^ 32 - 1`. -/
theorem asWritten_iff {text : List Char} {config : ClusterConfig}
    (accepted : parseClusterConfig text = .ok config) : AsWritten text config ↔ IdsInRange text := by
  obtain ⟨distinct, fromLines⟩ := parseClusterConfig_ok accepted
  constructor
  · intro asWritten line member id written
    obtain ⟨peer, listed, same⟩ := exists_partner asWritten.ids member
    rw [Option.mem_def, same, Option.some.injEq] at written
    have named : peer.id.toNat ≠ 0 := fun zero => asWritten.reserved peer listed (UInt32.toNat.inj zero)
    have small := peer.id.toNat_lt
    omega
  · intro inRange
    have kept := (List.forall₂_and_left _ _).mpr ⟨inRange, fromLines⟩
    have partner : ∀ peer ∈ config.peers, ∃ line ∈ directives (getlines text),
        (∀ id ∈ writtenId line, 1 ≤ id ∧ id < 2 ^ 32) ∧ ParsedFrom line peer := fun peer listed =>
      exists_partner kept.flip listed
    have ids := kept.imp fun line peer both => (both.2.asWritten both.1).1
    refine ⟨ids, fun peer listed => ?_, distinct, fun peer listed => ?_, ?_⟩
    · obtain ⟨line, _, small, fromLine⟩ := partner peer listed
      exact (fromLine.asWritten small).2
    · obtain ⟨line, _, _, fromLine⟩ := partner peer listed
      exact ⟨fromLine.port, Nat.le_of_lt_succ peer.port.toNat_lt⟩
    · intro first listed second listed' differ same
      refine differ ?_
      rw [List.forall₂_zip ids listed, List.forall₂_zip ids listed', same]

/-- Two lines, one with a comment. -/
def goodText : List Char := "node 1 h 7101 # first\nnode 2 h 7102".toList

theorem asWritten_iff_goodText : ∃ config, parseClusterConfig goodText = .ok config ∧
    (AsWritten goodText config ↔ IdsInRange goodText) ∧ config.peers.map (·.id) = [1, 2] :=
  have accepted : parseClusterConfig goodText =
      .ok { peers := [⟨1, ['h'], 7101⟩, ⟨2, ['h'], 7102⟩] } := by decide +kernel
  ⟨_, accepted, asWritten_iff accepted, rfl⟩

/-- The id is one more than fits. -/
def wrappedText : List Char := "node 4294967297 h 7101".toList

/-- It becomes node 1. A zero is accepted as it is. -/
theorem parse_wrappedText :
    parseClusterConfig wrappedText = .ok { peers := [⟨1, ['h'], 7101⟩] } ∧
      ¬ AsWritten wrappedText { peers := [⟨1, ['h'], 7101⟩] } ∧
        parseClusterConfig "node 0 h 7101".toList = .ok { peers := [⟨0, ['h'], 7101⟩] } ∧
          ¬ AsWritten "node 0 h 7101".toList { peers := [⟨0, ['h'], 7101⟩] } := by
  refine ⟨by decide +kernel, fun asWritten => ?_, by decide +kernel, fun asWritten => ?_⟩
  · have lines : directives (getlines wrappedText) = [wrappedText] := by decide +kernel
    have ids := asWritten.ids
    rw [lines, List.forall₂_cons] at ids
    have written : writtenId wrappedText = some 4294967297 := by decide +kernel
    rw [written] at ids
    exact absurd ids.1 (by decide)
  · exact asWritten.reserved _ List.mem_cons_self rfl

end ClusterConfig

end Sententia
