/-
**The history of a replicated log with terms and leaders.** `LogHistory` holds every node's term and
log, the log each term's leader has written so far (`lead`) and the one it started from (`base`), how much
of a leader's log each node has accepted (`acked`), and the ballots behind the leaders.

Six moves make a history: a node raises its term, starts to lead, writes, acknowledges what it holds,
takes over a leader's log, votes. Each keeps `Sound`, whose heart is `retained`: what a node has accepted of
a term's log it holds, unless it has taken over the log of a later leader that did not start from it.
-/

import Sententia.Library.LeaderLog

namespace Sententia.Library

variable {Node Entry : Type*} [DecidableEq Node]

structure LogHistory (Node Entry : Type*) where
  term : Node → Nat
  log : Node → List Entry
  /-- The terms that have had a leader. -/
  led : Nat → Prop
  /-- What the leader of a term has written, with what it started from. -/
  lead : Nat → List Entry
  base : Nat → List Entry
  /-- How many entries of a term's log a node has accepted in that term. -/
  acked : Node → Nat → Nat
  /-- In which terms a node has taken over the leader's log. -/
  took : Node → Nat → Prop
  /-- Who has voted in which term for whom, with the logs of both. -/
  ballot : Node → Nat → Node → List Entry → List Entry → Prop

/-- One log is at least as up to date as another. -/
def UpToDate (termOf : Entry → Nat) (voter candidate : List Entry) : Prop :=
  lastTerm termOf voter < lastTerm termOf candidate ∨
    (lastTerm termOf voter = lastTerm termOf candidate ∧ voter.length ≤ candidate.length)

/-- Record that a node has accepted at least `count` entries of a term's log. -/
def raiseAck (acked : Node → Nat → Nat) (node : Node) (term count : Nat) : Node → Nat → Nat :=
  fun any other => if any = node ∧ other = term then max (acked any other) count else acked any other

theorem le_raiseAck (acked : Node → Nat → Nat) (node : Node) (term count : Nat) (any : Node)
    (other : Nat) : acked any other ≤ raiseAck acked node term count any other := by
  unfold raiseAck
  split_ifs
  · exact Nat.le_max_left _ _
  · exact Nat.le_refl _

theorem raiseAck_self (acked : Node → Nat → Nat) (node : Node) (term count : Nat) :
    count ≤ raiseAck acked node term count node term := by
  unfold raiseAck
  rw [if_pos ⟨rfl, rfl⟩]
  exact Nat.le_max_right _ _

/-- What is newly accepted is accepted by the node in its term. -/
theorem le_of_raiseAck {acked : Node → Nat → Nat} {node any : Node} {term other count k : Nat}
    (reached : k ≤ raiseAck acked node term count any other) :
    k ≤ acked any other ∨ (any = node ∧ other = term ∧ k ≤ count) := by
  unfold raiseAck at reached
  split_ifs at reached with here
  · rcases Nat.le_total (acked any other) count with below | above
    · rw [Nat.max_eq_right below] at reached
      exact Or.inr ⟨here.1, here.2, reached⟩
    · rw [Nat.max_eq_left above] at reached
      exact Or.inl reached
  · exact Or.inl reached

namespace LogHistory

/-! ### The moves -/

def raise (history : LogHistory Node Entry) (node : Node) (term : Nat) : LogHistory Node Entry :=
  { history with term := Function.update history.term node term }

/-- The node starts to lead its term from the log it has. -/
def elect (history : LogHistory Node Entry) (node : Node) : LogHistory Node Entry :=
  { history with
    led := fun term => history.led term ∨ term = history.term node
    lead := Function.update history.lead (history.term node) (history.log node)
    base := Function.update history.base (history.term node) (history.log node) }

/-- The leader of a term writes an entry. -/
def write (history : LogHistory Node Entry) (node : Node) (entry : Entry) : LogHistory Node Entry :=
  { history with
    log := Function.update history.log node (history.log node ++ [entry])
    lead := Function.update history.lead (history.term node) (history.log node ++ [entry])
    acked := raiseAck history.acked node (history.term node) (history.log node ++ [entry]).length }

/-- The node acknowledges entries of its term's log that it holds. -/
def ack (history : LogHistory Node Entry) (node : Node) (count : Nat) : LogHistory Node Entry :=
  { history with acked := raiseAck history.acked node (history.term node) count }

/-- The node takes over a front of its term's log. -/
def takeOver (history : LogHistory Node Entry) (node : Node) (log : List Entry) :
    LogHistory Node Entry :=
  { history with
    log := Function.update history.log node log
    acked := raiseAck history.acked node (history.term node) log.length
    took := fun any term => history.took any term ∨ (any = node ∧ term = history.term node) }

/-- The node votes in its term. -/
def vote (history : LogHistory Node Entry) (voter candidate : Node) : LogHistory Node Entry :=
  { history with
    ballot := fun node term choice log log' => history.ballot node term choice log log' ∨
      (node = voter ∧ term = history.term voter ∧ choice = candidate ∧ log = history.log voter ∧
        log' = history.log candidate) }

/-! ### Growing -/

/-- Nothing is taken back. -/
structure Grows (history history' : LogHistory Node Entry) : Prop where
  lead : ∀ term, history.lead term <+: history'.lead term
  led : ∀ {term}, history.led term → history'.led term
  base : ∀ {term}, history.led term → history'.base term = history.base term
  acked : ∀ node term, history.acked node term ≤ history'.acked node term

namespace Grows

variable {history history' history'' : LogHistory Node Entry} {node : Node}

omit [DecidableEq Node] in
theorem refl (history : LogHistory Node Entry) : history.Grows history :=
  ⟨fun _ => List.prefix_rfl, fun led => led, fun _ => rfl, fun _ _ => Nat.le_refl _⟩

omit [DecidableEq Node] in
theorem trans (first : history.Grows history') (second : history'.Grows history'') :
    history.Grows history'' where
  lead term := (first.lead term).trans (second.lead term)
  led led := second.led (first.led led)
  base led := (second.base (first.led led)).trans (first.base led)
  acked node term := (first.acked node term).trans (second.acked node term)

theorem raise (history : LogHistory Node Entry) (node : Node) (term : Nat) :
    history.Grows (history.raise node term) :=
  ⟨fun _ => List.prefix_rfl, fun led => led, fun _ => rfl, fun _ _ => Nat.le_refl _⟩

omit [DecidableEq Node] in
theorem elect (silent : history.lead (history.term node) = [])
    (free : ¬ history.led (history.term node)) : history.Grows (history.elect node) where
  lead := grows_update (silent ▸ List.nil_prefix)
  led := Or.inl
  base {term} led := by
    have different : term ≠ history.term node := fun same => free (same ▸ led)
    exact Function.update_of_ne different _ _
  acked _ _ := Nat.le_refl _

theorem write (leading : history.log node = history.lead (history.term node)) (entry : Entry) :
    history.Grows (history.write node entry) where
  lead := grows_update (leading ▸ List.prefix_append _ _)
  led led := led
  base _ := rfl
  acked := le_raiseAck _ _ _ _

theorem ack (history : LogHistory Node Entry) (node : Node) (count : Nat) :
    history.Grows (history.ack node count) :=
  ⟨fun _ => List.prefix_rfl, fun led => led, fun _ => rfl, le_raiseAck _ _ _ _⟩

theorem takeOver (history : LogHistory Node Entry) (node : Node) (log : List Entry) :
    history.Grows (history.takeOver node log) :=
  ⟨fun _ => List.prefix_rfl, fun led => led, fun _ => rfl, le_raiseAck _ _ _ _⟩

omit [DecidableEq Node] in
theorem vote (history : LogHistory Node Entry) (voter candidate : Node) :
    history.Grows (history.vote voter candidate) :=
  ⟨fun _ => List.prefix_rfl, fun led => led, fun _ => rfl, fun _ _ => Nat.le_refl _⟩

end Grows

/-! ### Soundness -/

/-- A node's log still has what it accepted, or the log of a later leader without it took its place. -/
def Retains (history : LogHistory Node Entry) (node : Node) (log : List Entry) (term count below : Nat) :
    Prop :=
  (history.lead term).take count <+: log ∨ ∃ later, term < later ∧ later ≤ below ∧
    history.took node later ∧ ¬ (history.lead term).take count <+: history.base later

structure Sound (termOf : Entry → Nat) (history : LogHistory Node Entry) : Prop where
  follows : ∀ node, Follows termOf history.lead (history.log node)
  leadFollows : ∀ term, Follows termOf history.lead (history.lead term)
  base_front : ∀ term, history.base term <+: history.lead term
  /-- A leader starts from entries of earlier terms. -/
  base_terms : ∀ term, ∀ entry ∈ history.base term, termOf entry < term
  /-- What a leader writes is of its term. -/
  own_terms : ∀ {term k} (inside : k < (history.lead term).length),
    (history.base term).length ≤ k → termOf (history.lead term)[k] = term
  log_terms : ∀ node, ∀ entry ∈ history.log node, termOf entry ≤ history.term node
  unled : ∀ term, ¬ history.led term → history.lead term = []
  took_led : ∀ {node term}, history.took node term → history.led term
  acked_le : ∀ node term, history.acked node term ≤ (history.lead term).length
  future : ∀ node term, history.term node < term → history.acked node term = 0
  retained : ∀ {node term count}, count ≤ history.acked node term →
    history.Retains node (history.log node) term count (history.term node)
  /-- Entries of a node's own term are accepted. -/
  own : ∀ {node k} (inside : k < (history.log node).length),
    termOf (history.log node)[k] = history.term node → k < history.acked node (history.term node)

namespace Sound

variable {termOf : Entry → Nat} {history : LogHistory Node Entry} {node : Node}

omit [DecidableEq Node] in
/-- No entry of a leader's log is of a later term. -/
theorem lead_terms (sound : history.Sound termOf) (term : Nat) :
    ∀ entry ∈ history.lead term, termOf entry ≤ term := by
  intro entry member
  obtain ⟨k, inside, rfl⟩ := List.mem_iff_getElem.mp member
  by_cases started : (history.base term).length ≤ k
  · exact Nat.le_of_eq (sound.own_terms inside started)
  · have inside' : k < (history.base term).length := Nat.lt_of_not_le started
    have found := getElem_of_front (sound.base_front term) inside'
    rw [List.getElem?_eq_getElem inside, Option.some_inj] at found
    rw [found]
    exact Nat.le_of_lt (sound.base_terms term _ (List.getElem_mem inside'))

/-- **A node raises its term.** -/
theorem raise (sound : history.Sound termOf) {term : Nat} (higher : history.term node ≤ term) :
    (history.raise node term).Sound termOf := by
  have terms : ∀ any, history.term any ≤ (history.raise node term).term any := by
    intro any
    show _ ≤ Function.update history.term node term any
    by_cases same : any = node
    · rw [same, Function.update_self]
      exact higher
    · rw [Function.update_of_ne same]
  exact
    { sound with
      log_terms := fun any entry member => (sound.log_terms any entry member).trans (terms any)
      future := fun any later less => sound.future any later ((terms any).trans_lt less)
      retained := fun {any term' count} reached =>
        (sound.retained reached).imp_right fun ⟨later, above, within, rest⟩ =>
          ⟨later, above, within.trans (terms any), rest⟩
      own := fun {any k} inside ofTerm => by
        have bounded := sound.log_terms any _ (List.getElem_mem inside)
        -- An entry of the new term is one of the old term.
        have same : (history.raise node term).term any = history.term any :=
          Nat.le_antisymm (ofTerm ▸ bounded) (terms any)
        rw [same] at ofTerm ⊢
        exact sound.own inside ofTerm }

omit [DecidableEq Node] in
/-- **A node starts to lead** a term that had no leader. -/
theorem elect (sound : history.Sound termOf) (free : ¬ history.led (history.term node)) :
    (history.elect node).Sound termOf := by
  have silent := sound.unled _ free
  have grows : ∀ term, history.lead term <+: (history.elect node).lead term :=
    grows_update (silent ▸ List.nil_prefix)
  have others : ∀ {term}, term ≠ history.term node →
      (history.elect node).lead term = history.lead term ∧
        (history.elect node).base term = history.base term :=
    fun different => ⟨Function.update_of_ne different _ _, Function.update_of_ne different _ _⟩
  have here : (history.elect node).lead (history.term node) = history.log node ∧
      (history.elect node).base (history.term node) = history.log node :=
    ⟨Function.update_self _ _ _, Function.update_self _ _ _⟩
  have unacked : ∀ any, history.acked any (history.term node) = 0 := by
    intro any
    have bound := sound.acked_le any (history.term node)
    rw [silent, List.length_nil] at bound
    exact Nat.le_zero.mp bound
  refine ⟨fun any => (sound.follows any).mono grows, fun term => ?_, fun term => ?_, fun term => ?_,
    fun {term k} inside started => ?_, sound.log_terms, fun term unled => ?_,
    fun took => Or.inl (sound.took_led took), fun any term => ?_, sound.future,
    fun {any term count} reached => ?_, sound.own⟩
  · by_cases same : term = history.term node
    · rw [same, here.1]
      exact (sound.follows node).mono grows
    · rw [(others same).1]
      exact (sound.leadFollows term).mono grows
  · by_cases same : term = history.term node
    · rw [same, here.1, here.2]
    · rw [(others same).1, (others same).2]
      exact sound.base_front term
  · by_cases same : term = history.term node
    · rw [same, here.2]
      intro entry member
      exact Nat.lt_of_le_of_ne (sound.log_terms node entry member)
        ((sound.follows node).term_ne silent member)
    · rw [(others same).2]
      exact sound.base_terms term
  · by_cases same : term = history.term node
    · subst same
      rw [here.2] at started
      rw [here.1] at inside
      omega
    · simp only [(others same).1, (others same).2] at inside started ⊢
      exact sound.own_terms inside started
  · have different : term ≠ history.term node := fun same => unled (Or.inr same)
    rw [(others different).1]
    exact sound.unled term fun led => unled (Or.inl led)
  · exact (sound.acked_le any term).trans (grows term).length_le
  · by_cases same : term = history.term node
    · have none : count = 0 := by
        have unacked' := unacked any
        rw [← same] at unacked'
        exact Nat.le_zero.mp (unacked' ▸ reached)
      rw [none]
      exact Or.inl (List.take_zero ▸ List.nil_prefix)
    · unfold Retains
      rw [(others same).1]
      refine (sound.retained reached).imp_right fun ⟨later, above, within, took, without⟩ => ?_
      refine ⟨later, above, within, took, ?_⟩
      have different : later ≠ history.term node := fun isNew => free (isNew ▸ sound.took_led took)
      rw [(others different).2]
      exact without

/-- **The leader of a term writes.** -/
theorem write (sound : history.Sound termOf) {entry : Entry}
    (leading : history.log node = history.lead (history.term node))
    (led : history.led (history.term node)) (ofTerm : termOf entry = history.term node) :
    (history.write node entry).Sound termOf := by
  have here : (history.write node entry).lead (history.term node) = history.log node ++ [entry] :=
    Function.update_self _ _ _
  have others : ∀ {term}, term ≠ history.term node →
      (history.write node entry).lead term = history.lead term :=
    fun different => Function.update_of_ne different _ _
  have grows : ∀ term, history.lead term <+: (history.write node entry).lead term :=
    grows_update (leading ▸ List.prefix_append _ _)
  have ownLog : (history.write node entry).log node = history.log node ++ [entry] :=
    Function.update_self _ _ _
  have otherLog : ∀ {any}, any ≠ node → (history.write node entry).log any = history.log any :=
    fun different => Function.update_of_ne different _ _
  have written : Follows termOf (history.write node entry).lead (history.log node ++ [entry]) :=
    ((sound.follows node).mono grows).append (ofTerm ▸ here)
  refine ⟨fun any => ?_, fun term => ?_, fun term => (sound.base_front term).trans (grows term),
    sound.base_terms, fun {term k} inside started => ?_, fun any => ?_, fun term unled => ?_,
    sound.took_led, fun any term => ?_, fun any term less => ?_, fun {any term count} reached => ?_,
    fun {any k} inside isOwn => ?_⟩
  · by_cases same : any = node
    · rw [same, ownLog]
      exact written
    · rw [otherLog same]
      exact (sound.follows any).mono grows
  · by_cases same : term = history.term node
    · rw [same, here]
      exact written
    · rw [others same]
      exact (sound.leadFollows term).mono grows
  · by_cases same : term = history.term node
    · subst same
      simp only [here] at inside ⊢
      by_cases old : k < (history.log node).length
      · rw [List.getElem_append_left old]
        simp only [leading] at old ⊢
        exact sound.own_terms old started
      · rw [List.length_append, List.length_singleton] at inside
        have last : k = (history.log node).length := by omega
        subst last
        rw [List.getElem_append_right (Nat.le_refl _)]
        simpa using ofTerm
    · simp only [others same] at inside ⊢
      exact sound.own_terms inside started
  · by_cases same : any = node
    · subst same
      rw [ownLog]
      intro other member
      rcases List.mem_append.mp member with old | new
      · exact sound.log_terms any other old
      · rw [List.mem_singleton.mp new, ofTerm]
        exact Nat.le_refl _
    · rw [otherLog same]
      exact sound.log_terms any
  · have different : term ≠ history.term node := fun same => unled (same ▸ led)
    rw [others different]
    exact sound.unled term unled
  · rcases le_of_raiseAck (Nat.le_refl ((history.write node entry).acked any term)) with
      old | ⟨_, rfl, new⟩
    · exact old.trans ((sound.acked_le any term).trans (grows term).length_le)
    · rw [here]
      exact new
  · have elsewhere : ¬ (any = node ∧ term = history.term node) := by
      rintro ⟨rfl, rfl⟩
      exact Nat.lt_irrefl _ less
    exact (if_neg elsewhere).trans (sound.future any term less)
  · rcases le_of_raiseAck reached with old | ⟨rfl, rfl, new⟩
    · have sameFront : ((history.write node entry).lead term).take count =
          (history.lead term).take count :=
        take_eq_of_front (grows term) (old.trans (sound.acked_le any term))
      unfold Retains
      rw [sameFront]
      refine (sound.retained old).imp_left fun held => held.trans ?_
      by_cases same : any = node
      · rw [same, ownLog]
        exact List.prefix_append _ _
      · rw [otherLog same]
    · refine Or.inl ?_
      rw [here, ownLog]
      exact List.take_prefix _ _
  · by_cases same : any = node
    · subst same
      simp only [ownLog] at inside isOwn
      by_cases old : k < (history.log any).length
      · rw [List.getElem_append_left old] at isOwn
        exact (sound.own old isOwn).trans_le (le_raiseAck _ _ _ _ _ _)
      · exact inside.trans_le (raiseAck_self _ _ _ _)
    · simp only [otherLog same] at inside isOwn
      exact (sound.own inside isOwn).trans_le (le_raiseAck _ _ _ _ _ _)

/-- **A node acknowledges** entries of its term's log that it holds. -/
theorem ack (sound : history.Sound termOf) {count : Nat}
    (inside : count ≤ (history.lead (history.term node)).length)
    (held : (history.lead (history.term node)).take count <+: history.log node) :
    (history.ack node count).Sound termOf := by
  refine
    { sound with
      acked_le := fun any term => ?_
      future := fun any term less => ?_
      retained := fun {any term k} reached => ?_
      own := fun {any k} inside' isOwn =>
        (sound.own inside' isOwn).trans_le (le_raiseAck _ _ _ _ _ _) }
  · rcases le_of_raiseAck (Nat.le_refl ((history.ack node count).acked any term)) with
      old | ⟨_, rfl, new⟩
    · exact old.trans (sound.acked_le any term)
    · exact new.trans inside
  · have elsewhere : ¬ (any = node ∧ term = history.term node) := by
      rintro ⟨rfl, rfl⟩
      exact Nat.lt_irrefl _ less
    exact (if_neg elsewhere).trans (sound.future any term less)
  · rcases le_of_raiseAck reached with old | ⟨rfl, rfl, new⟩
    · exact sound.retained old
    · exact Or.inl ((List.take_prefix_take_left new).trans held)

end Sound

/-- The log either stops short of the new one or conflicts with it somewhere. -/
def Yields (log leader : List Entry) : Prop :=
  log <+: leader ∨ ∃ i, i < leader.length ∧ i < log.length ∧ log.take i = leader.take i ∧
    log[i]? ≠ leader[i]?

/-- What a log shares with the leader's log it keeps when it yields to a front of that log. -/
theorem Yields.keeps {log leader full shared : List Entry} (yields : Yields log leader)
    (front : leader <+: full) (held : shared <+: log) (common : shared <+: full) :
    shared <+: leader := by
  rcases yields with short | ⟨i, inside, held', agree, differ⟩
  · exact held.trans short
  · by_cases below : shared.length ≤ i
    · have kept : shared = (leader.take i).take shared.length := by
        rw [← agree, List.take_take, Nat.min_eq_left below]
        exact List.prefix_iff_eq_take.mp held
      rw [kept]
      exact (List.take_prefix _ _).trans (List.take_prefix _ _)
    · have inside' : i < shared.length := Nat.lt_of_not_le below
      have same : full[i]? = leader[i]? := by
        rw [getElem_of_front front inside, List.getElem?_eq_getElem inside]
      rw [getElem_of_front held inside', ← same, getElem_of_front common inside'] at differ
      exact absurd rfl differ

/-- **A node takes over** a front of its term's log. -/
theorem Sound.takeOver {termOf : Entry → Nat} {history : LogHistory Node Entry} {node : Node}
    (sound : history.Sound termOf) {leader : List Entry}
    (led : history.led (history.term node)) (front : leader <+: history.lead (history.term node))
    (yields : Yields (history.log node) leader) : (history.takeOver node leader).Sound termOf := by
  have ownLog : (history.takeOver node leader).log node = leader := Function.update_self _ _ _
  have otherLog : ∀ {any}, any ≠ node → (history.takeOver node leader).log any = history.log any :=
    fun different => Function.update_of_ne different _ _
  have fronts : ∀ {count}, count ≤ leader.length →
      (history.lead (history.term node)).take count <+: leader := by
    intro count inside
    rw [take_eq_of_front front inside]
    exact List.take_prefix _ _
  refine
    { sound with
      follows := fun any => ?_
      log_terms := fun any => ?_
      took_led := fun {any term} took => ?_
      acked_le := fun any term => ?_
      future := fun any term less => ?_
      retained := fun {any term count} reached => ?_
      own := fun {any k} inside isOwn => ?_ }
  · by_cases same : any = node
    · rw [same, ownLog]
      exact (sound.leadFollows _).of_front front
    · rw [otherLog same]
      exact sound.follows any
  · by_cases same : any = node
    · rw [same, ownLog]
      exact fun entry member => sound.lead_terms _ entry (front.subset member)
    · rw [otherLog same]
      exact sound.log_terms any
  · rcases took with old | ⟨_, rfl⟩
    · exact sound.took_led old
    · exact led
  · rcases le_of_raiseAck (Nat.le_refl ((history.takeOver node leader).acked any term)) with
      old | ⟨_, rfl, new⟩
    · exact old.trans (sound.acked_le any term)
    · exact new.trans front.length_le
  · have elsewhere : ¬ (any = node ∧ term = history.term node) := by
      rintro ⟨rfl, rfl⟩
      exact Nat.lt_irrefl _ less
    exact (if_neg elsewhere).trans (sound.future any term less)
  · rcases le_of_raiseAck reached with old | ⟨rfl, rfl, new⟩
    · rcases sound.retained old with held | ⟨later, above, within, took, without⟩
      · by_cases same : any = node
        · subst same
          rw [ownLog]
          -- An earlier term's entries stay if the leader started from them.
          rcases Nat.lt_trichotomy term (history.term any) with earlier | rfl | later
          · by_cases started : (history.lead term).take count <+: history.base (history.term any)
            · exact Or.inl (yields.keeps front held (started.trans (sound.base_front _)))
            · exact Or.inr ⟨_, earlier, Nat.le_refl _, Or.inr ⟨rfl, rfl⟩, started⟩
          · exact Or.inl (yields.keeps front held (List.take_prefix _ _))
          · rw [sound.future any term later] at old
            rw [Nat.le_zero.mp old]
            exact Or.inl (List.take_zero ▸ List.nil_prefix)
        · rw [otherLog same]
          exact Or.inl held
      · exact Or.inr ⟨later, above, within, Or.inl took, without⟩
    · rw [ownLog]
      exact Or.inl (fronts new)
  · by_cases same : any = node
    · subst same
      simp only [ownLog] at inside
      exact inside.trans_le (raiseAck_self _ _ _ _)
    · simp only [otherLog same] at inside isOwn
      exact (sound.own inside isOwn).trans_le (le_raiseAck _ _ _ _ _ _)

/-! ### The start -/

/-- Nothing is written. -/
def fresh (term : Node → Nat) (led : Nat → Prop) : LogHistory Node Entry where
  term := term
  log _ := []
  led := led
  lead _ := []
  base _ := []
  acked _ _ := 0
  took _ _ := False
  ballot _ _ _ _ _ := False

omit [DecidableEq Node] in
theorem sound_fresh (termOf : Entry → Nat) (term : Node → Nat) (led : Nat → Prop) :
    (fresh term led).Sound termOf where
  follows _ := .nil
  leadFollows _ := .nil
  base_front _ := List.prefix_rfl
  base_terms _ _ member := nomatch member
  own_terms inside := absurd inside (Nat.not_lt_zero _)
  log_terms _ _ member := nomatch member
  unled _ _ := rfl
  took_led took := took.elim
  acked_le _ _ := Nat.le_refl _
  future _ _ _ := rfl
  retained reached := by
    rw [Nat.le_zero.mp reached]
    exact Or.inl List.prefix_rfl
  own inside := absurd inside (Nat.not_lt_zero _)

/-! ### A follower's step -/

/-- The node ends up with `log`, its own or a front of its term's log, and acknowledges `count` entries
of it. -/
def receive [DecidableEq Entry] (history : LogHistory Node Entry) (node : Node) (log : List Entry)
    (count : Nat) : LogHistory Node Entry :=
  if log = history.log node then history.ack node count else history.takeOver node log

section Receive

variable [DecidableEq Entry] {termOf : Entry → Nat} {history : LogHistory Node Entry} {node : Node}
  {log : List Entry} {count : Nat}

theorem receive_cases (history : LogHistory Node Entry) (node : Node) (log : List Entry)
    (count : Nat) :
    (log = history.log node ∧ history.receive node log count = history.ack node count) ∨
      (log ≠ history.log node ∧ history.receive node log count = history.takeOver node log) := by
  by_cases same : log = history.log node
  · exact Or.inl ⟨same, if_pos same⟩
  · exact Or.inr ⟨same, if_neg same⟩

/-- Only the node's log, its acknowledgements and what it took over change. -/
theorem receive_frame (history : LogHistory Node Entry) (node : Node) (log : List Entry)
    (count : Nat) :
    history.receive node log count =
      { history with
        log := Function.update history.log node log
        acked := (history.receive node log count).acked
        took := (history.receive node log count).took } := by
  rcases history.receive_cases node log count with ⟨same, equation⟩ | ⟨_, equation⟩
  · rw [equation, same]
    unfold ack
    rw [Function.update_eq_self]
  · rw [equation]
    rfl

theorem Grows.receive (history : LogHistory Node Entry) (node : Node) (log : List Entry)
    (count : Nat) : history.Grows (history.receive node log count) := by
  rcases history.receive_cases node log count with ⟨_, equation⟩ | ⟨_, equation⟩
  · rw [equation]
    exact .ack history node count
  · rw [equation]
    exact .takeOver history node log

/-- **A follower's step keeps the history sound.** -/
theorem Sound.receive (sound : history.Sound termOf) (led : history.led (history.term node))
    (inside : count ≤ (history.lead (history.term node)).length)
    (kept : log = history.log node →
      (history.lead (history.term node)).take count <+: history.log node)
    (taken : log ≠ history.log node →
      log <+: history.lead (history.term node) ∧ Yields (history.log node) log) :
    (history.receive node log count).Sound termOf := by
  rcases history.receive_cases node log count with ⟨same, equation⟩ | ⟨different, equation⟩
  · rw [equation]
    exact sound.ack inside (kept same)
  · rw [equation]
    exact sound.takeOver led (taken different).1 (taken different).2

/-- What is acknowledged is accepted. -/
theorem le_acked_receive (covered : count ≤ log.length) :
    count ≤ (history.receive node log count).acked node (history.term node) := by
  rcases history.receive_cases node log count with ⟨_, equation⟩ | ⟨_, equation⟩
  · rw [equation]
    exact raiseAck_self _ _ _ _
  · rw [equation]
    exact covered.trans (raiseAck_self _ _ _ _)

/-- What a node takes over changes its log. -/
theorem took_receive {any : Node} {term : Nat}
    (took : (history.receive node log count).took any term) :
    history.took any term ∨ (any = node ∧ term = history.term node ∧ log ≠ history.log node) := by
  rcases history.receive_cases node log count with ⟨_, equation⟩ | ⟨different, equation⟩
  · rw [equation] at took
    exact Or.inl took
  · rw [equation] at took
    exact took.imp_right fun new => ⟨new.1, new.2, different⟩

end Receive

end LogHistory

end Sententia.Library
