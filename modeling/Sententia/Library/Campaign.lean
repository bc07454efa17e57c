/-
**Elections over replicated logs.** A campaign joins the votes of a cluster with the history of its logs.
Some nodes stand in their term, some lead theirs; six moves make a campaign: a node observes a term, stands,
votes, wins, writes, receives entries.

* `Campaign.Sound` — what ties votes and logs together: a candidate that can still win has ballots for the log
  it has, and a leader's log is the log of its term.
* `Sound.completeness` — **leader completeness**: an entry of a term that a majority has accepted in that term
  is what every leader of a later term starts from.
-/

import Sententia.Library.Ballot
import Sententia.Library.LeaderCompleteness

namespace Sententia.Library

variable {Node Entry : Type*} [DecidableEq Node]

structure Campaign (Node Entry : Type*) where
  votes : VoteHistory Node
  logs : LogHistory Node Entry

namespace Campaign

structure Sound (termOf : Entry → Nat) (members : List Node) (stands leads : Node → Prop)
    (campaign : Campaign Node Entry) : Prop where
  votes : campaign.votes.Sound members
  logs : campaign.logs.Sound termOf
  elected : campaign.logs.Elected termOf (Majority members)
  led : ∀ {term}, campaign.logs.led term ↔ ∃ node, campaign.votes.won term node
  /-- Whoever is voted for has reached the term. -/
  cast : ∀ {voter term choice}, campaign.votes.voted voter term = some choice →
    term ≤ campaign.logs.term choice
  unwon : ∀ {node}, stands node → ¬ campaign.votes.won (campaign.logs.term node) node
  /-- A vote that may still count was cast for the log that the candidate has. -/
  supported : ∀ {node voter}, stands node → ¬ campaign.logs.led (campaign.logs.term node) →
    campaign.votes.voted voter (campaign.logs.term node) = some node →
      ∃ log, campaign.logs.ballot voter (campaign.logs.term node) node log (campaign.logs.log node)
  office : ∀ {node}, leads node → campaign.votes.won (campaign.logs.term node) node ∧
    campaign.logs.log node = campaign.logs.lead (campaign.logs.term node)

/-- One node's step: nothing is taken back, and the other nodes keep their terms and logs. -/
structure Grows (node : Node) (campaign campaign' : Campaign Node Entry) : Prop where
  votes : campaign.votes.Grows node campaign'.votes
  logs : campaign.logs.Grows campaign'.logs
  term : ∀ any, campaign.logs.term any ≤ campaign'.logs.term any
  others : ∀ {other}, other ≠ node → campaign'.logs.term other = campaign.logs.term other ∧
    campaign'.logs.log other = campaign.logs.log other

omit [DecidableEq Node] in
theorem Grows.refl (node : Node) (campaign : Campaign Node Entry) : campaign.Grows node campaign :=
  ⟨.refl _ _, .refl _, fun _ => Nat.le_refl _, fun _ => ⟨rfl, rfl⟩⟩

omit [DecidableEq Node] in
theorem Grows.trans {node : Node} {first second third : Campaign Node Entry}
    (grows : first.Grows node second) (grows' : second.Grows node third) : first.Grows node third where
  votes := grows.votes.trans grows'.votes
  logs := grows.logs.trans grows'.logs
  term any := (grows.term any).trans (grows'.term any)
  others different :=
    ⟨(grows'.others different).1.trans (grows.others different).1,
      (grows'.others different).2.trans (grows.others different).2⟩

namespace Sound

variable {termOf : Entry → Nat} {members : List Node} {stands leads stands' leads' : Node → Prop}
  {campaign : Campaign Node Entry} {node : Node}

/-- Two leaders of one term are one. -/
theorem leader_unique (sound : campaign.Sound termOf members stands leads) {other : Node}
    (won : campaign.votes.won (campaign.logs.term node) node) (leading : leads other)
    (sameTerm : campaign.logs.term other = campaign.logs.term node) : other = node := by
  have won' := (sound.office leading).1
  rw [sameTerm] at won'
  exact sound.votes.winner_unique won' won

/-! ### The moves -/

omit [DecidableEq Node] in
/-- A node may give up standing or leading at any time. -/
theorem fewer (sound : campaign.Sound termOf members stands leads)
    (standing : ∀ any, stands' any → stands any) (leading : ∀ any, leads' any → leads any) :
    campaign.Sound termOf members stands' leads' :=
  { sound with
    unwon := fun isCandidate => sound.unwon (standing _ isCandidate)
    supported := fun isCandidate => sound.supported (standing _ isCandidate)
    office := fun isLeader => sound.office (leading _ isLeader) }

theorem term_raise (campaign : Campaign Node Entry) {term : Nat}
    (higher : campaign.logs.term node ≤ term) (any : Node) :
    campaign.logs.term any ≤ (campaign.logs.raise node term).term any := by
  show _ ≤ Function.update campaign.logs.term node term any
  by_cases same : any = node
  · rw [same, Function.update_self]
    exact higher
  · rw [Function.update_of_ne same]

theorem grows_raise (campaign : Campaign Node Entry) {term : Nat}
    (higher : campaign.logs.term node ≤ term) :
    campaign.Grows node { campaign with logs := campaign.logs.raise node term } where
  votes := .refl _ _
  logs := .raise _ _ _
  term := term_raise campaign higher
  others different := ⟨Function.update_of_ne different _ _, rfl⟩

/-- **A node observes a term**, and neither stands nor leads in it. -/
theorem observe (sound : campaign.Sound termOf members stands leads) {term : Nat}
    (higher : campaign.logs.term node ≤ term) (notStanding : ¬ stands node) (notLeading : ¬ leads node) :
    Sound termOf members stands leads { campaign with logs := campaign.logs.raise node term } := by
  have still : ∀ {any}, any ≠ node →
      (campaign.logs.raise node term).term any = campaign.logs.term any :=
    fun different => Function.update_of_ne different _ _
  exact
    { votes := sound.votes
      logs := sound.logs.raise higher
      elected := sound.elected.raise higher
      led := sound.led
      cast := fun voted => (sound.cast voted).trans (term_raise campaign higher _)
      unwon := fun {any} isCandidate => by
        simp only [still fun same : any = node => notStanding (same ▸ isCandidate)]
        exact sound.unwon isCandidate
      supported := fun {any voter} isCandidate => by
        simp only [still fun same : any = node => notStanding (same ▸ isCandidate)]
        exact sound.supported isCandidate
      office := fun {any} isLeader => by
        simp only [still fun same : any = node => notLeading (same ▸ isLeader)]
        exact sound.office isLeader }

/-- **A node votes** in its term. If the candidate still stands in it, its log must be at least as up to
date as the voter's. -/
theorem vote (sound : campaign.Sound termOf members stands leads) {choice : Node}
    (free : campaign.votes.voted node (campaign.logs.term node) = none ∨
      campaign.votes.voted node (campaign.logs.term node) = some choice)
    (reached : campaign.logs.term node ≤ campaign.logs.term choice)
    (upToDate : stands choice → campaign.logs.term choice = campaign.logs.term node →
      UpToDate termOf (campaign.logs.log node) (campaign.logs.log choice)) :
    ∃ logs, campaign.Grows node ⟨campaign.votes.vote node (campaign.logs.term node) choice, logs⟩ ∧
      Sound termOf members stands leads
        ⟨campaign.votes.vote node (campaign.logs.term node) choice, logs⟩ ∧
      logs.log = campaign.logs.log ∧ logs.term = campaign.logs.term := by
  have grows := VoteHistory.grows_vote free
  have votes := sound.votes.mono grows fun won => won
  have cast : ∀ {voter term choice'},
      (campaign.votes.vote node (campaign.logs.term node) choice).voted voter term = some choice' →
        campaign.votes.voted voter term = some choice' ∨
          (voter = node ∧ term = campaign.logs.term node ∧ choice' = choice) := by
    intro voter term choice' voted
    by_cases here : voter = node ∧ term = campaign.logs.term node
    · have isChoice := (if_pos here).symm.trans voted
      exact Or.inr ⟨here.1, here.2, (Option.some.inj isChoice).symm⟩
    · exact Or.inl ((if_neg here).symm.trans voted)
  have inTerm : ∀ {voter term choice'},
      (campaign.votes.vote node (campaign.logs.term node) choice).voted voter term = some choice' →
        term ≤ campaign.logs.term choice' := by
    intro voter term choice' voted
    rcases cast voted with old | ⟨_, rfl, rfl⟩
    · exact sound.cast old
    · exact reached
  by_cases counts : stands choice ∧ campaign.logs.term choice = campaign.logs.term node ∧
      ¬ campaign.logs.led (campaign.logs.term node)
  · obtain ⟨standing, sameTerm, unled⟩ := counts
    refine ⟨campaign.logs.vote node choice, ⟨grows, .vote _ _ _, fun _ => Nat.le_refl _,
      fun _ => ⟨rfl, rfl⟩⟩, ?_, rfl, rfl⟩
    exact
      { votes := votes
        logs := { sound.logs with }
        elected := sound.elected.vote sound.logs unled (upToDate standing sameTerm)
        led := sound.led
        cast := inTerm
        unwon := sound.unwon
        office := sound.office
        supported := fun {any voter} isCandidate unled voted => by
          rcases cast voted with old | ⟨rfl, ofTerm, rfl⟩
          · exact (sound.supported isCandidate unled old).imp fun _ => Or.inl
          · exact ⟨_, Or.inr ⟨rfl, ofTerm, rfl, rfl, rfl⟩⟩ }
  · refine ⟨campaign.logs, ⟨grows, .refl _, fun _ => Nat.le_refl _, fun _ => ⟨rfl, rfl⟩⟩, ?_, rfl, rfl⟩
    exact
      { sound with
        votes := votes
        cast := inTerm
        supported := fun {any voter} isCandidate unled voted => by
          rcases cast voted with old | ⟨rfl, ofTerm, rfl⟩
          · exact sound.supported isCandidate unled old
          · exact absurd ⟨isCandidate, ofTerm, ofTerm ▸ unled⟩ counts }

/-- **A node stands** in a term after its own. -/
theorem stand (sound : campaign.Sound termOf members stands leads) {term : Nat}
    (higher : campaign.logs.term node < term) (notStanding : ¬ stands node) (notLeading : ¬ leads node)
    (free : campaign.votes.voted node term = none)
    (standing : ∀ any, stands' any → any = node ∨ stands any)
    (leading : ∀ any, leads' any → leads any) :
    ∃ logs, campaign.Grows node ⟨campaign.votes.vote node term node, logs⟩ ∧
      Sound termOf members stands' leads' ⟨campaign.votes.vote node term node, logs⟩ ∧
      logs.log = campaign.logs.log ∧ logs.term node = term := by
  have here : (campaign.logs.raise node term).term node = term := Function.update_self _ _ _
  -- Nobody has voted for the node in a term that it has not reached.
  have unvoted : ∀ voter, campaign.votes.voted voter term ≠ some node := fun voter voted =>
    absurd (sound.cast voted) (Nat.not_le.mpr higher)
  have unwon : ¬ campaign.votes.won term node := by
    intro won
    obtain ⟨ballot, majority, votes⟩ := sound.votes term node won
    obtain ⟨voter, member, _⟩ := majority.meets majority
    exact unvoted voter (votes voter member)
  have observed := sound.observe (Nat.le_of_lt higher) notStanding notLeading
  have candidacy : Sound termOf members stands' leads'
      { campaign with logs := campaign.logs.raise node term } :=
    { observed with
      unwon := fun {any} isCandidate => by
        rcases standing any isCandidate with rfl | before
        · rw [here]
          exact unwon
        · exact observed.unwon before
      supported := fun {any voter} isCandidate => by
        rcases standing any isCandidate with rfl | before
        · rw [here]
          exact fun _ voted => absurd voted (unvoted voter)
        · exact observed.supported before
      office := fun isLeader => observed.office (leading _ isLeader) }
  have unbound : campaign.votes.voted node ((campaign.logs.raise node term).term node) = none := by
    rw [here]
    exact free
  have cast := candidacy.vote (Or.inl unbound) (Nat.le_refl _) fun _ _ =>
    Or.inr ⟨rfl, Nat.le_refl _⟩
  rw [here] at cast
  obtain ⟨logs, grows, sound', sameLog, sameTerm⟩ := cast
  refine ⟨logs, (grows_raise campaign (Nat.le_of_lt higher)).trans grows, sound', sameLog, ?_⟩
  rw [sameTerm]
  exact here

/-- **A candidate wins** with the votes of a majority. -/
theorem win (sound : campaign.Sound termOf members stands leads) {voters : List Node}
    (standing : stands node) (majority : Majority members voters)
    (votes : ∀ voter ∈ voters, campaign.votes.voted voter (campaign.logs.term node) = some node)
    (standing' : ∀ any, stands' any → stands any ∧ any ≠ node)
    (leading' : ∀ any, leads' any → any = node ∨ leads any) :
    let campaign' : Campaign Node Entry :=
      ⟨campaign.votes.win (campaign.logs.term node) node, campaign.logs.elect node⟩
    campaign.Grows node campaign' ∧ campaign'.Sound termOf members stands' leads' ∧
      campaign'.logs.base (campaign.logs.term node) = campaign.logs.log node ∧
        campaign'.logs.led (campaign.logs.term node) := by
  have votesSound := sound.votes.win majority votes
  have unled : ¬ campaign.logs.led (campaign.logs.term node) := by
    intro led
    obtain ⟨other, won⟩ := sound.led.mp led
    have same := votesSound.winner_unique (Or.inl won) (Or.inr ⟨rfl, rfl⟩)
    exact sound.unwon standing (same ▸ won)
  have silent := sound.logs.unled _ unled
  have ballots : ∀ voter ∈ voters, ∃ log,
      campaign.logs.ballot voter (campaign.logs.term node) node log (campaign.logs.log node) :=
    fun voter member => sound.supported standing unled (votes voter member)
  refine ⟨⟨VoteHistory.grows_win _ _ _ _, .elect silent unled, fun _ => Nat.le_refl _,
    fun _ => ⟨rfl, rfl⟩⟩, ?_, Function.update_self _ _ _, Or.inr rfl⟩
  exact
    { votes := votesSound
      logs := sound.logs.elect unled
      elected := sound.elected.elect sound.logs unled majority ballots
      led := fun {term} => by
        constructor
        · rintro (before | rfl)
          · exact (sound.led.mp before).imp fun _ => Or.inl
          · exact ⟨node, Or.inr ⟨rfl, rfl⟩⟩
        · rintro ⟨other, before | ⟨rfl, _⟩⟩
          · exact Or.inl (sound.led.mpr ⟨other, before⟩)
          · exact Or.inr rfl
      cast := sound.cast
      unwon := fun {any} isCandidate => by
        obtain ⟨before, other⟩ := standing' any isCandidate
        rintro (won | ⟨_, same⟩)
        · exact sound.unwon before won
        · exact other same
      supported := fun {any voter} isCandidate unled =>
        sound.supported (standing' any isCandidate).1 fun led => unled (Or.inl led)
      office := fun {any} isLeader => by
        by_cases same : any = node
        · subst same
          have written : (campaign.logs.elect any).lead (campaign.logs.term any) =
              campaign.logs.log any := Function.update_self _ _ _
          exact ⟨Or.inr ⟨rfl, rfl⟩, written.symm⟩
        · obtain ⟨won, written⟩ := sound.office ((leading' any isLeader).resolve_left same)
          refine ⟨Or.inl won, written.trans (Function.update_of_ne (fun sameTerm => unled ?_) _ _).symm⟩
          rw [← sameTerm]
          exact sound.led.mpr ⟨any, won⟩ }

/-- **A leader writes** an entry of its term. -/
theorem write (sound : campaign.Sound termOf members stands leads) (leading : leads node)
    (notStanding : ¬ stands node) {entry : Entry} (ofTerm : termOf entry = campaign.logs.term node) :
    let campaign' : Campaign Node Entry := { campaign with logs := campaign.logs.write node entry }
    campaign.Grows node campaign' ∧ campaign'.Sound termOf members stands leads ∧
      campaign'.logs.log node = campaign.logs.log node ++ [entry] := by
  obtain ⟨won, written⟩ := sound.office leading
  have led := sound.led.mpr ⟨node, won⟩
  have others : ∀ {any}, any ≠ node →
      (campaign.logs.write node entry).log any = campaign.logs.log any :=
    fun different => Function.update_of_ne different _ _
  have here : (campaign.logs.write node entry).log node = campaign.logs.log node ++ [entry] :=
    Function.update_self _ _ _
  refine ⟨⟨.refl _ _, .write written entry, fun _ => Nat.le_refl _, fun different =>
    ⟨rfl, others different⟩⟩, ?_, here⟩
  exact
    { votes := sound.votes
      logs := sound.logs.write written led ofTerm
      elected := sound.elected.write sound.logs written
      led := sound.led
      cast := sound.cast
      unwon := sound.unwon
      supported := fun {any voter} isCandidate => by
        simp only [others fun same : any = node => notStanding (same ▸ isCandidate)]
        exact sound.supported isCandidate
      office := fun {any} isLeader => by
        by_cases same : any = node
        · subst same
          have grown : (campaign.logs.write any entry).lead (campaign.logs.term any) =
              campaign.logs.log any ++ [entry] := Function.update_self _ _ _
          exact ⟨won, here.trans grown.symm⟩
        · obtain ⟨won', written'⟩ := sound.office isLeader
          refine ⟨won', (others same).trans (written'.trans (Function.update_of_ne ?_ _ _).symm)⟩
          exact fun sameTerm => same (sound.leader_unique won isLeader sameTerm) }

omit [DecidableEq Node] in
/-- **A node receives entries**, which neither a candidate nor a leader does. -/
theorem receive (sound : campaign.Sound termOf members stands leads) {logs : LogHistory Node Entry}
    (sound' : logs.Sound termOf) (elected : logs.Elected termOf (Majority members))
    (same : ∃ log acked took, logs = { campaign.logs with log, acked, took } ∧
      ∀ other, other ≠ node → log other = campaign.logs.log other)
    (notStanding : ¬ stands node) (notLeading : ¬ leads node) :
    Sound termOf members stands leads { campaign with logs } := by
  obtain ⟨log, acked, took, rfl, others⟩ := same
  exact
    { votes := sound.votes
      logs := sound'
      elected := elected
      led := sound.led
      cast := sound.cast
      unwon := sound.unwon
      supported := fun {any voter} isCandidate => by
        simp only [others any fun same => notStanding (same ▸ isCandidate)]
        exact sound.supported isCandidate
      office := fun {any} isLeader => by
        simp only [others any fun same => notLeading (same ▸ isLeader)]
        exact sound.office isLeader }

/-! ### Completeness -/

/-- **Leader completeness.** -/
theorem completeness (sound : campaign.Sound termOf members stands leads) {holders : List Node}
    (majority : Majority members holders) {term k : Nat}
    (inside : k < (campaign.logs.lead term).length) (own : termOf (campaign.logs.lead term)[k] = term)
    (acks : ∀ holder ∈ holders, k < campaign.logs.acked holder term) {later : Nat}
    (led : campaign.logs.led later) (after : term < later) :
    (campaign.logs.lead term).take (k + 1) <+: campaign.logs.base later :=
  LogHistory.leader_completeness sound.logs sound.elected (fun _ enough => majority.meets enough) inside
    own acks later led after

end Sound

/-! ### The start -/

/-- Nobody has voted and nothing is written. -/
def fresh : Campaign Node Entry where
  votes := .empty
  logs := .fresh (fun _ => 0) fun _ => False

omit [DecidableEq Node] in
theorem sound_fresh (termOf : Entry → Nat) (members : List Node) :
    (fresh : Campaign Node Entry).Sound termOf members (fun _ => False) fun _ => False where
  votes := VoteHistory.sound_empty members
  logs := LogHistory.sound_fresh termOf _ _
  elected :=
    { current := fun cast => cast.elim
      follows := fun cast => cast.elim
      upToDate := fun cast => cast.elim
      retained := fun cast => cast.elim
      elected := fun led => led.elim }
  led := ⟨fun led => led.elim, fun ⟨_, won⟩ => won.elim⟩
  cast voted := nomatch voted
  unwon isCandidate := isCandidate.elim
  supported isCandidate := isCandidate.elim
  office isLeader := isLeader.elim

end Campaign

end Sententia.Library
