/-
**Leader completeness.** When every leader has a quorum of ballots from voters whose logs its own log was
at least as up to date as, what a set of nodes that meets every quorum has accepted of a term's log, up to
an entry of that term, every later leader starts from.

* `Elected` — the ballots behind the leaders; every move keeps it.
* **`leader_completeness`** — by strong induction on the later term: a voter in both sets had the entries
  when it voted, or had lost them to a leader in between, which the induction excludes.
* `Chosen` fronts are comparable (`Chosen.comparable`), so logs that are `Decided` agree (`Decided.agree`)
  and a leader has what was decided by its term (`Decided.front_lead`).
-/

import Sententia.Library.LogHistory

namespace Sententia.Library

variable {Node Entry : Type*} [DecidableEq Node]

namespace LogHistory

/-- Every leader was elected by a quorum of ballots for the log it started from. -/
structure Elected (termOf : Entry → Nat) (quorum : List Node → Prop)
    (history : LogHistory Node Entry) : Prop where
  current : ∀ {voter term choice log log'}, history.ballot voter term choice log log' →
    term ≤ history.term voter
  follows : ∀ {voter term choice log log'}, history.ballot voter term choice log log' →
    Follows termOf history.lead log
  upToDate : ∀ {voter term choice log log'}, history.ballot voter term choice log log' →
    UpToDate termOf log log'
  retained : ∀ {voter term choice log log'}, history.ballot voter term choice log log' →
    ∀ {earlier count}, earlier < term → count ≤ history.acked voter earlier →
      history.Retains voter log earlier count (term - 1)
  elected : ∀ {term}, history.led term → ∃ voters leader, quorum voters ∧
    ∀ voter ∈ voters, ∃ log, history.ballot voter term leader log (history.base term)

namespace Elected

variable {termOf : Entry → Nat} {quorum : List Node → Prop} {history : LogHistory Node Entry}
  {node : Node}

theorem raise (elected : history.Elected termOf quorum) {term : Nat}
    (higher : history.term node ≤ term) : (history.raise node term).Elected termOf quorum :=
  { elected with
    current := fun {voter term' _ _ _} cast => by
      have before := elected.current cast
      show term' ≤ Function.update history.term node term voter
      by_cases same : voter = node
      · subst same
        rw [Function.update_self]
        exact before.trans higher
      · rw [Function.update_of_ne same]
        exact before }

omit [DecidableEq Node] in
/-- **A node with a quorum of ballots for its log starts to lead.** -/
theorem elect (elected : history.Elected termOf quorum) (sound : history.Sound termOf)
    (free : ¬ history.led (history.term node)) {voters : List Node} (enough : quorum voters)
    (votes : ∀ voter ∈ voters, ∃ log,
      history.ballot voter (history.term node) node log (history.log node)) :
    (history.elect node).Elected termOf quorum := by
  have silent := sound.unled _ free
  have grows : ∀ term, history.lead term <+: (history.elect node).lead term :=
    grows_update (silent ▸ List.nil_prefix)
  refine
    { current := elected.current
      follows := fun cast => (elected.follows cast).mono grows
      upToDate := elected.upToDate
      retained := fun {voter term _ _ _} cast {earlier count} less reached => ?_
      elected := fun {term} led => ?_ }
  · have inside := reached.trans (sound.acked_le voter earlier)
    unfold Retains
    rw [take_eq_of_front (grows earlier) inside]
    refine (elected.retained cast less reached).imp_right
      fun ⟨later, above, within, took, without⟩ => ⟨later, above, within, took, ?_⟩
    have different : later ≠ history.term node := fun isNew => free (isNew ▸ sound.took_led took)
    show ¬ _ <+: Function.update history.base (history.term node) (history.log node) later
    rw [Function.update_of_ne different]
    exact without
  · by_cases same : term = history.term node
    · subst same
      refine ⟨voters, node, enough, fun voter member => ?_⟩
      show ∃ log, history.ballot voter _ node log (Function.update history.base _ (history.log node) _)
      rw [Function.update_self]
      exact votes voter member
    · obtain ⟨voters', leader, enough', votes'⟩ := elected.elected (led.resolve_right same)
      refine ⟨voters', leader, enough', fun voter member => ?_⟩
      show ∃ log, history.ballot voter term leader log (Function.update history.base _ (history.log node) _)
      rw [Function.update_of_ne same]
      exact votes' voter member

omit [DecidableEq Node] in
/-- Accepting more in one's own term leaves the ballots of that and earlier terms as they were. -/
theorem of_accept {history' : LogHistory Node Entry} (elected : history.Elected termOf quorum)
    (sound : history.Sound termOf) (sameTerm : history'.term = history.term)
    (sameLed : history'.led = history.led) (sameBase : history'.base = history.base)
    (sameBallot : history'.ballot = history.ballot)
    (grows : ∀ term, history.lead term <+: history'.lead term)
    (took : ∀ {any term}, history.took any term → history'.took any term)
    (acked : ∀ {any term count}, count ≤ history'.acked any term →
      count ≤ history.acked any term ∨ (any = node ∧ term = history.term node)) :
    history'.Elected termOf quorum := by
  refine
    { current := fun cast => ?_
      follows := fun cast => ?_
      upToDate := fun cast => elected.upToDate (sameBallot ▸ cast)
      retained := fun {voter term _ _ _} cast {earlier count} less reached => ?_
      elected := fun {term} led => ?_ }
  · rw [sameTerm]
    exact elected.current (sameBallot ▸ cast)
  · exact (elected.follows (sameBallot ▸ cast)).mono grows
  · rw [sameBallot] at cast
    rcases acked reached with before | ⟨rfl, rfl⟩
    · have inside := before.trans (sound.acked_le voter earlier)
      unfold Retains
      rw [take_eq_of_front (grows earlier) inside, sameBase]
      exact (elected.retained cast less before).imp_right
        fun ⟨later, above, within, took', without⟩ => ⟨later, above, within, took took', without⟩
    · have current := elected.current cast
      omega
  · rw [sameBallot, sameBase]
    exact elected.elected (sameLed ▸ led)

theorem write (elected : history.Elected termOf quorum) (sound : history.Sound termOf)
    {entry : Entry} (leading : history.log node = history.lead (history.term node)) :
    (history.write node entry).Elected termOf quorum :=
  elected.of_accept sound rfl rfl rfl rfl (grows_update (leading ▸ List.prefix_append _ _))
    (fun took => took) fun reached => (le_of_raiseAck reached).imp_right fun new => ⟨new.1, new.2.1⟩

theorem ack (elected : history.Elected termOf quorum) (sound : history.Sound termOf) (count : Nat) :
    (history.ack node count).Elected termOf quorum :=
  elected.of_accept sound rfl rfl rfl rfl (fun _ => List.prefix_rfl) (fun took => took)
    fun reached => (le_of_raiseAck reached).imp_right fun new => ⟨new.1, new.2.1⟩

theorem takeOver (elected : history.Elected termOf quorum) (sound : history.Sound termOf)
    (leader : List Entry) : (history.takeOver node leader).Elected termOf quorum :=
  elected.of_accept sound rfl rfl rfl rfl (fun _ => List.prefix_rfl) Or.inl
    fun reached => (le_of_raiseAck reached).imp_right fun new => ⟨new.1, new.2.1⟩

theorem receive [DecidableEq Entry] (elected : history.Elected termOf quorum)
    (sound : history.Sound termOf) (log : List Entry) (count : Nat) :
    (history.receive node log count).Elected termOf quorum := by
  rcases history.receive_cases node log count with ⟨_, equation⟩ | ⟨_, equation⟩
  · rw [equation]
    exact elected.ack sound count
  · rw [equation]
    exact elected.takeOver sound log

omit [DecidableEq Node] in
/-- **A node votes** in a term without a leader, for a log at least as up to date as its own. -/
theorem vote (elected : history.Elected termOf quorum) (sound : history.Sound termOf)
    {candidate : Node} (free : ¬ history.led (history.term node))
    (upToDate : UpToDate termOf (history.log node) (history.log candidate)) :
    (history.vote node candidate).Elected termOf quorum := by
  refine
    { current := fun cast => ?_
      follows := fun cast => ?_
      upToDate := fun cast => ?_
      retained := fun {voter term _ _ _} cast {earlier count} less reached => ?_
      elected := fun {term} led => ?_ }
  · rcases cast with old | ⟨rfl, rfl, _⟩
    · exact elected.current old
    · exact Nat.le_refl _
  · rcases cast with old | ⟨rfl, rfl, rfl, rfl, rfl⟩
    · exact elected.follows old
    · exact sound.follows _
  · rcases cast with old | ⟨rfl, rfl, rfl, rfl, rfl⟩
    · exact elected.upToDate old
    · exact upToDate
  · rcases cast with old | ⟨rfl, rfl, rfl, rfl, rfl⟩
    · exact elected.retained old less reached
    · refine (sound.retained reached).imp_right
        fun ⟨later, above, within, took, without⟩ => ⟨later, above, ?_, took, without⟩
      -- Nobody has taken over the log of a term without a leader.
      have different : later ≠ history.term voter := fun isNew => free (isNew ▸ sound.took_led took)
      omega
  · obtain ⟨voters, leader, enough, votes⟩ := elected.elected led
    refine ⟨voters, leader, enough, fun voter member => ?_⟩
    obtain ⟨log, cast⟩ := votes voter member
    exact ⟨log, Or.inl cast⟩

end Elected

/-! ### Completeness -/

section Completeness

variable {termOf : Entry → Nat} {quorum : List Node → Prop} {history : LogHistory Node Entry}

omit [DecidableEq Node]

/-- The last term of a log bounds the terms of its entries. -/
theorem Sound.le_lastTerm (sound : history.Sound termOf) {log : List Entry}
    (follows : Follows termOf history.lead log) {entry : Entry} (member : entry ∈ log) :
    termOf entry ≤ lastTerm termOf log := by
  have front := follows.front_lastTerm (List.length_pos_of_mem member)
  exact sound.lead_terms _ entry (front.subset member)

/-- A leader that starts from an entry of a term starts from all that the leader of that term started
from. -/
theorem Sound.base_lastTerm (sound : history.Sound termOf) {term : Nat}
    (nonempty : 0 < (history.base term).length) :
    history.base (lastTerm termOf (history.base term)) <+: history.base term := by
  have follows := (sound.leadFollows term).of_front (sound.base_front term)
  have front := follows.front_lastTerm nonempty
  refine List.prefix_of_prefix_length_le (sound.base_front _) front ?_
  -- The last entry is of that term, so it comes after the base of that term.
  by_contra shorter
  have last : (history.base term).length - 1 <
      (history.base (lastTerm termOf (history.base term))).length := by omega
  have same := getElem_of_front front
    (show (history.base term).length - 1 < (history.base term).length by omega)
  rw [getElem_of_front (sound.base_front _) last, Option.some_inj] at same
  have earlier := sound.base_terms _ _ (List.getElem_mem last)
  rw [same, ← lastTerm_eq termOf nonempty] at earlier
  exact Nat.lt_irrefl _ earlier

/-- **Leader completeness.** -/
theorem leader_completeness (sound : history.Sound termOf) (elected : history.Elected termOf quorum)
    {holders : List Node} (meets : ∀ voters, quorum voters → ∃ node ∈ holders, node ∈ voters)
    {term k : Nat} (inside : k < (history.lead term).length)
    (own : termOf (history.lead term)[k] = term) (acks : ∀ node ∈ holders, k < history.acked node term)
    (later : Nat) (led : history.led later) (after : term < later) :
    (history.lead term).take (k + 1) <+: history.base later := by
  induction later using Nat.strong_induction_on with
  | _ later ih =>
    obtain ⟨voters, leader, enough, votes⟩ := elected.elected led
    obtain ⟨node, holds, voted⟩ := meets voters enough
    obtain ⟨log, cast⟩ := votes node voted
    have follows := elected.follows cast
    rcases elected.retained cast after (acks node holds) with held | ⟨between, above, below, took, without⟩
    · -- The voter has the entries, so its last term is not before `term`.
      have long : k < log.length := by
        have bound := held.length_le
        rw [List.length_take, Nat.min_eq_left inside] at bound
        exact bound
      have atLeast : term ≤ lastTerm termOf log := by
        have kept : log[k]? = some (history.lead term)[k] := by
          have front := getElem_of_front held
            (show k < ((history.lead term).take (k + 1)).length by rw [List.length_take]; omega)
          rw [front, List.getElem_take]
        have member : (history.lead term)[k] ∈ log := List.mem_of_getElem? kept
        exact own ▸ sound.le_lastTerm follows member
      have baseFollows := (sound.leadFollows later).of_front (sound.base_front later)
      rcases elected.upToDate cast with newer | ⟨sameTerm, longer⟩
      · have nonempty : 0 < (history.base later).length := by
          by_contra empty
          have isNil : history.base later = [] := List.length_eq_zero_iff.mp (by omega)
          rw [isNil] at newer
          exact Nat.not_lt_zero _ newer
        have front := baseFollows.front_lastTerm nonempty
        have earlier : lastTerm termOf (history.base later) < later := by
          rw [lastTerm_eq termOf nonempty]
          exact sound.base_terms later _ (List.getElem_mem _)
        have wasLed : history.led (lastTerm termOf (history.base later)) := by
          by_contra unled
          rw [sound.unled _ unled] at front
          rw [List.prefix_nil.mp front] at nonempty
          exact Nat.lt_irrefl _ nonempty
        exact (ih _ earlier wasLed (by omega)).trans (sound.base_lastTerm nonempty)
      · have front := follows.front_lastTerm (by omega)
        have front' := baseFollows.front_lastTerm (by omega)
        rw [← sameTerm] at front'
        exact held.trans (List.prefix_of_prefix_length_le front front' longer)
    · exact absurd (ih between (by omega) (sound.took_led took) above) without

/-- The entries of a term's log up to `k`, an entry of that term, are accepted by nodes that meet every
quorum. -/
def Chosen (termOf : Entry → Nat) (quorum : List Node → Prop) (history : LogHistory Node Entry)
    (term k : Nat) : Prop :=
  ∃ inside : k < (history.lead term).length, termOf (history.lead term)[k] = term ∧
    ∃ holders : List Node, (∀ voters, quorum voters → ∃ node ∈ holders, node ∈ voters) ∧
      ∀ node ∈ holders, k < history.acked node term

/-- **Chosen fronts are comparable.** -/
theorem Chosen.comparable (sound : history.Sound termOf) (elected : history.Elected termOf quorum)
    {term term' k k' : Nat} (chosen : Chosen termOf quorum history term k)
    (chosen' : Chosen termOf quorum history term' k') :
    (history.lead term).take (k + 1) <+: (history.lead term').take (k' + 1) ∨
      (history.lead term').take (k' + 1) <+: (history.lead term).take (k + 1) := by
  -- The leader of the later term started from what was chosen in the earlier one.
  have ordered : ∀ {first second i j}, Chosen termOf quorum history first i →
      Chosen termOf quorum history second j → first < second →
        (history.lead first).take (i + 1) <+: (history.lead second).take (j + 1) ∨
          (history.lead second).take (j + 1) <+: (history.lead first).take (i + 1) := by
    rintro first second i j ⟨inside, own, holders, meets, acks⟩ ⟨inside', _⟩ before
    have led : history.led second := by
      by_contra unled
      rw [sound.unled _ unled] at inside'
      exact Nat.not_lt_zero _ inside'
    have complete := leader_completeness sound elected meets inside own acks second led before
    exact List.prefix_or_prefix_of_prefix (complete.trans (sound.base_front second))
      (List.take_prefix _ _)
  rcases Nat.lt_trichotomy term term' with before | rfl | after
  · exact ordered chosen chosen' before
  · rcases Nat.le_total k k' with less | more
    · exact Or.inl (List.take_prefix_take_left (Nat.succ_le_succ less))
    · exact Or.inr (List.take_prefix_take_left (Nat.succ_le_succ more))
  · exact (ordered chosen' chosen after).symm

/-! ### What is decided -/

/-- What is chosen stays chosen. -/
theorem Chosen.mono {history' : LogHistory Node Entry} {term k : Nat}
    (chosen : Chosen termOf quorum history term k) (grows : history.Grows history') :
    Chosen termOf quorum history' term k := by
  obtain ⟨inside, own, holders, meets, acks⟩ := chosen
  have front := grows.lead term
  have inside' := inside.trans_le front.length_le
  have same : (history'.lead term)[k] = (history.lead term)[k] := by
    have here := getElem_of_front front inside
    rw [List.getElem?_eq_getElem inside', Option.some_inj] at here
    exact here
  exact ⟨inside', same.symm ▸ own, holders, meets,
    fun node member => (acks node member).trans_le (grows.acked node term)⟩

/-- A log is decided by a term if nothing is in it, or all of it is a front that is chosen in that term or an
earlier one. -/
def Decided (termOf : Entry → Nat) (quorum : List Node → Prop) (history : LogHistory Node Entry)
    (bound : Nat) (log : List Entry) : Prop :=
  log = [] ∨ ∃ term k, term ≤ bound ∧ Chosen termOf quorum history term k ∧
    log <+: (history.lead term).take (k + 1)

namespace Decided

variable {log log' : List Entry} {bound bound' : Nat}

theorem of_front (decided : Decided termOf quorum history bound log) (front : log' <+: log) :
    Decided termOf quorum history bound log' := by
  rcases decided with rfl | ⟨term, k, below, chosen, inside⟩
  · exact Or.inl (List.prefix_nil.mp front)
  · exact Or.inr ⟨term, k, below, chosen, front.trans inside⟩

/-- What is decided stays decided. -/
theorem mono {history' : LogHistory Node Entry} (decided : Decided termOf quorum history bound log)
    (grows : history.Grows history') (later : bound ≤ bound') :
    Decided termOf quorum history' bound' log := by
  refine decided.imp_right fun ⟨term, k, below, chosen, inside⟩ =>
    ⟨term, k, below.trans later, chosen.mono grows, ?_⟩
  obtain ⟨within, _⟩ := chosen
  rwa [take_eq_of_front (grows.lead term) within]

/-- **Decided logs are comparable.** -/
theorem comparable (sound : history.Sound termOf) (elected : history.Elected termOf quorum)
    (decided : Decided termOf quorum history bound log)
    (decided' : Decided termOf quorum history bound' log') : log <+: log' ∨ log' <+: log := by
  rcases decided with rfl | ⟨term, k, _, chosen, inside⟩
  · exact Or.inl List.nil_prefix
  rcases decided' with rfl | ⟨term', k', _, chosen', inside'⟩
  · exact Or.inr List.nil_prefix
  rcases chosen.comparable sound elected chosen' with front | front
  · exact List.prefix_or_prefix_of_prefix (inside.trans front) inside'
  · exact List.prefix_or_prefix_of_prefix inside (inside'.trans front)

/-- **Decided logs agree** wherever both have an entry. -/
theorem agree (sound : history.Sound termOf) (elected : history.Elected termOf quorum)
    (decided : Decided termOf quorum history bound log)
    (decided' : Decided termOf quorum history bound' log') {k : Nat} {entry entry' : Entry}
    (found : log[k]? = some entry) (found' : log'[k]? = some entry') : entry = entry' := by
  have inside := (List.getElem?_eq_some_iff.mp found).1
  have inside' := (List.getElem?_eq_some_iff.mp found').1
  rcases decided.comparable sound elected decided' with front | front
  · rw [getElem_of_front front inside, ← List.getElem?_eq_getElem inside, found] at found'
    exact Option.some.inj found'
  · rw [getElem_of_front front inside', ← List.getElem?_eq_getElem inside', found'] at found
    exact (Option.some.inj found).symm

/-- **A leader has what was decided by its term.** -/
theorem front_lead (sound : history.Sound termOf) (elected : history.Elected termOf quorum)
    (decided : Decided termOf quorum history bound log) {term : Nat} (led : history.led term)
    (later : bound ≤ term) : log <+: history.lead term := by
  rcases decided with rfl | ⟨earlier, k, below, ⟨inside, own, holders, meets, acks⟩, front⟩
  · exact List.nil_prefix
  rcases Nat.eq_or_lt_of_le (below.trans later) with rfl | before
  · exact front.trans (List.take_prefix _ _)
  · have complete := leader_completeness sound elected meets inside own acks term led before
    exact front.trans (complete.trans (sound.base_front term))

end Decided

/-- The node has accepted every entry of the term among the first `count` that its leader has written. -/
structure Covers (termOf : Entry → Nat) (history : LogHistory Node Entry) (term : Nat) (node : Node)
    (count : Nat) : Prop where
  inside : count ≤ (history.lead term).length
  acked : ∀ k (written : k < (history.lead term).length), k < count →
    termOf (history.lead term)[k] = term → k < history.acked node term

namespace Covers

variable {term count : Nat} {node : Node}

theorem zero : Covers termOf history term node 0 :=
  ⟨Nat.zero_le _, fun _ _ below => absurd below (Nat.not_lt_zero _)⟩

theorem of_le (covers : Covers termOf history term node count) {fewer : Nat} (less : fewer ≤ count) :
    Covers termOf history term node fewer :=
  ⟨less.trans covers.inside, fun k written below => covers.acked k written (below.trans_le less)⟩

theorem mono {history' : LogHistory Node Entry} (covers : Covers termOf history term node count)
    (grows : history.Grows history') : Covers termOf history' term node count where
  inside := covers.inside.trans (grows.lead term).length_le
  acked k written below own := by
    have before := below.trans_le covers.inside
    have same := getElem_of_front (grows.lead term) before
    rw [List.getElem?_eq_getElem written, Option.some_inj] at same
    rw [same] at own
    exact (covers.acked k before below own).trans_le (grows.acked node term)

/-- A log that is a front of the log of its node's term covers it. -/
theorem of_front (sound : history.Sound termOf) (front : history.log node <+: history.lead term)
    (inTerm : history.term node = term) :
    Covers termOf history term node (history.log node).length where
  inside := front.length_le
  acked k written below own := by
    have same := getElem_of_front front below
    rw [List.getElem?_eq_getElem written, Option.some_inj] at same
    rw [same, ← inTerm] at own
    exact inTerm ▸ sound.own below own

/-- **An entry of the term that enough nodes cover is chosen**, with all that precedes it. -/
theorem chosen {k : Nat} {holders : List Node}
    (meets : ∀ voters, quorum voters → ∃ node ∈ holders, node ∈ voters)
    (inside : k < (history.lead term).length) (own : termOf (history.lead term)[k] = term)
    (covered : ∀ node ∈ holders, Covers termOf history term node (k + 1)) :
    Chosen termOf quorum history term k :=
  ⟨inside, own, holders, meets, fun node member =>
    (covered node member).acked k inside (Nat.lt_succ_self k) own⟩

end Covers

end Completeness

end LogHistory

end Sententia.Library
