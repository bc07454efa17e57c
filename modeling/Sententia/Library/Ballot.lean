/-
**Votes and winners.** A history of who voted for whom in which term, and who has won a term. A member
votes once in a term; a winner has the votes of a majority; hence a term has at most one winner.

A history only grows, and one voter's step writes only that voter's votes: `Grows voter` is the frame
under which the other members' view of the history stays valid.
-/

import Mathlib.Logic.Function.Basic
import Sententia.Library.Quorum

namespace Sententia.Library

variable {Node : Type*} [DecidableEq Node]

structure VoteHistory (Node : Type*) where
  /-- The vote a node has cast in a term, if any. -/
  voted : Node → Nat → Option Node
  won : Nat → Node → Prop

namespace VoteHistory

/-- Nobody has voted yet. -/
def empty : VoteHistory Node where
  voted _ _ := none
  won _ _ := False

/-- Every winner has the votes of a majority. -/
def Sound (history : VoteHistory Node) (members : List Node) : Prop :=
  ∀ term node, history.won term node →
    ∃ ballot, Majority members ballot ∧ ∀ voter ∈ ballot, history.voted voter term = some node

omit [DecidableEq Node] in
theorem sound_empty (members : List Node) : (empty : VoteHistory Node).Sound members :=
  fun _ _ won => won.elim

/-- **At most one winner a term**: two majorities share a voter, and it voted once. -/
theorem Sound.winner_unique {history : VoteHistory Node} {members : List Node}
    (sound : history.Sound members) {term : Nat} {first second : Node}
    (won : history.won term first) (won' : history.won term second) : first = second := by
  obtain ⟨ballot, majority, votes⟩ := sound term first won
  obtain ⟨ballot', majority', votes'⟩ := sound term second won'
  obtain ⟨voter, inBallot, inBallot'⟩ := majority.meets majority'
  have same := (votes voter inBallot).symm.trans (votes' voter inBallot')
  exact Option.some.inj same

/-- One voter's step: other voters' votes are as they were, nothing is taken back. -/
structure Grows (voter : Node) (history history' : VoteHistory Node) : Prop where
  others : ∀ {node term}, node ≠ voter → history'.voted node term = history.voted node term
  kept : ∀ {node term choice}, history.voted node term = some choice →
    history'.voted node term = some choice
  won : ∀ {term node}, history.won term node → history'.won term node

omit [DecidableEq Node] in
theorem Grows.refl (voter : Node) (history : VoteHistory Node) : history.Grows voter history :=
  ⟨fun _ => rfl, fun same => same, fun same => same⟩

omit [DecidableEq Node] in
theorem Grows.trans {voter : Node} {first second third : VoteHistory Node}
    (grows : first.Grows voter second) (grows' : second.Grows voter third) :
    first.Grows voter third where
  others different := (grows'.others different).trans (grows.others different)
  kept voted := grows'.kept (grows.kept voted)
  won wins := grows'.won (grows.won wins)

/-- Cast a vote. -/
def vote (history : VoteHistory Node) (voter : Node) (term : Nat) (choice : Node) :
    VoteHistory Node where
  voted node term' := if node = voter ∧ term' = term then some choice else history.voted node term'
  won := history.won

theorem voted_vote_self (history : VoteHistory Node) (voter : Node) (term : Nat) (choice : Node) :
    (history.vote voter term choice).voted voter term = some choice :=
  if_pos ⟨rfl, rfl⟩

/-- Casting a vote where none, or the same one, was cast. -/
theorem grows_vote {history : VoteHistory Node} {voter choice : Node} {term : Nat}
    (free : history.voted voter term = none ∨ history.voted voter term = some choice) :
    history.Grows voter (history.vote voter term choice) where
  others different := if_neg fun both => different both.1
  kept {node term' choice'} voted := by
    show (if node = voter ∧ term' = term then some choice else history.voted node term') = _
    by_cases here : node = voter ∧ term' = term
    · obtain ⟨rfl, rfl⟩ := here
      rw [if_pos ⟨rfl, rfl⟩]
      rcases free with empty | same
      · rw [empty] at voted
        cases voted
      · exact same.symm.trans voted
    · rw [if_neg here]
      exact voted
  won wins := wins

/-- Record a winner. -/
def win (history : VoteHistory Node) (term : Nat) (node : Node) : VoteHistory Node where
  voted := history.voted
  won term' node' := history.won term' node' ∨ (term' = term ∧ node' = node)

omit [DecidableEq Node] in
theorem grows_win (history : VoteHistory Node) (voter : Node) (term : Nat) (node : Node) :
    history.Grows voter (history.win term node) :=
  ⟨fun _ => rfl, fun same => same, Or.inl⟩

omit [DecidableEq Node] in
/-- The votes behind earlier winners stay. -/
theorem Sound.mono {history history' : VoteHistory Node} {members : List Node} {voter : Node}
    (sound : history.Sound members) (grows : history.Grows voter history')
    (sameWinners : ∀ {term node}, history'.won term node → history.won term node) :
    history'.Sound members := by
  intro term node won
  obtain ⟨ballot, majority, votes⟩ := sound term node (sameWinners won)
  exact ⟨ballot, majority, fun other member => grows.kept (votes other member)⟩

omit [DecidableEq Node] in
/-- **A majority of votes makes a winner.** -/
theorem Sound.win {history : VoteHistory Node} {members ballot : List Node} {term : Nat}
    {node : Node} (sound : history.Sound members) (majority : Majority members ballot)
    (votes : ∀ voter ∈ ballot, history.voted voter term = some node) :
    (history.win term node).Sound members := by
  intro term' node' won
  rcases won with before | ⟨rfl, rfl⟩
  · exact sound term' node' before
  · exact ⟨ballot, majority, votes⟩

end VoteHistory

end Sententia.Library
