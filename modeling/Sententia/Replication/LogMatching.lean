/-
**Log matching over many terms.** Terms and roles are set from outside; the caller keeps four rules:
terms never go down, a term has one primary and one tenure, a primary keeps its term, and no primary is
handed an `AppendEntries` (`Orderly`). Under them every log, and every log a message is a slice of, follows
the leaders' logs, whatever has since become of the log it was cut from.

A backup may send too (it answers responses meant for the primary it was); its slices follow the leaders
like any other log, so the invariant asks nothing of the sender.
-/

import Sententia.Replication.FollowerSpec
import Sententia.Replication.ReplicatorCluster

namespace Sententia

open Library

namespace ReplicatorCluster

/-! ### The caller's rules -/

/-- The node an `AppendEntries` would be handed to, if that is what the label delivers. -/
def appendTarget (cluster : ReplicatorCluster) (index : Nat) : Option NodeId :=
  cluster.inFlight[index]?.bind fun envelope => match envelope.message with
    | .appendEntries _ => some envelope.target
    | _ => none

/-- The rules the caller keeps. -/
def Orderly (cluster : ReplicatorCluster) : Label → Prop
  | .setTerm id term => (cluster.nodes id).term ≤ term ∧
      ((cluster.nodes id).role = .primary → term = (cluster.nodes id).term)
  | .setRole id role => role = .primary → (cluster.nodes id).role = .primary ∨
      (cluster.nodes id).term ∉ cluster.tenures.map Prod.fst
  | .compactLog _ => False
  | .deliver index _ => ∀ target ∈ cluster.appendTarget index, (cluster.nodes target).role ≠ .primary
  | _ => True

instance (cluster : ReplicatorCluster) : ∀ label, Decidable (cluster.Orderly label)
  | .setTerm _ _ => inferInstanceAs (Decidable (_ ∧ _))
  | .setRole _ _ => inferInstanceAs (Decidable (_ → _))
  | .compactLog _ => isFalse not_false
  | .deliver index _ => Option.decidableForallMem (p := fun target => (cluster.nodes target).role ≠ .primary)
      (cluster.appendTarget index)
  | .submit _ _ _ => isTrue trivial
  | .tick _ _ => isTrue trivial
  | .peerUp _ _ _ => isTrue trivial
  | .peerDown _ _ => isTrue trivial
  | .duplicate _ => isTrue trivial
  | .lose _ => isTrue trivial

theorem appendTarget_eq {cluster : ReplicatorCluster} {index : Nat} {envelope : Envelope}
    (found : cluster.inFlight[index]? = some envelope) {msg : AppendEntries}
    (content : envelope.message = .appendEntries msg) :
    cluster.appendTarget index = some envelope.target := by
  unfold appendTarget
  rw [found, Option.bind_some, content]

/-- Fresh replicators, in any terms and roles. -/
def replicators (members : List NodeId) (instrument : InstrumentId) (roles : NodeId → Role)
    (terms : NodeId → Nat) (modes : NodeId → ReplicationMode) (windows sizes : NodeId → Nat) :
    ReplicatorCluster where
  members := members
  nodes id :=
    (({ self := id, role := roles id, mode := modes id, engine := { instrument } } :
      Replicator).setClusterSize (sizes id)).setTerm (terms id) |>.setSyncWindow (windows id)
  tenures := (members.filter fun id => roles id = .primary).map fun id => (terms id, id)

/-- A term that had no primary gets one. -/
theorem sole_append {tenures : List (Nat × NodeId)} {newTerm : Nat} {id : NodeId}
    (sole : ∀ {term first second}, (term, first) ∈ tenures → (term, second) ∈ tenures →
      first = second) (free : newTerm ∉ tenures.map Prod.fst) {term : Nat} {first second : NodeId}
    (isFirst : (term, first) ∈ tenures ++ [(newTerm, id)])
    (isSecond : (term, second) ∈ tenures ++ [(newTerm, id)]) : first = second := by
  have fresh : ∀ node, (newTerm, node) ∉ tenures := fun node old => free (List.mem_map_of_mem old)
  rcases List.mem_append.mp isFirst with old | new
  · rcases List.mem_append.mp isSecond with old' | new'
    · exact sole old old'
    · cases List.mem_singleton.mp new'
      exact absurd old (fresh first)
  · cases List.mem_singleton.mp new
    rcases List.mem_append.mp isSecond with old' | new'
    · exact absurd old' (fresh second)
    · cases List.mem_singleton.mp new'
      rfl

/-! ### The invariant -/

/-- The message carries a log that follows the leaders. -/
def Slices (lead : Nat → List LogEntry) (msg : AppendEntries) : Prop :=
  ∃ leader, Numbered leader ∧ Follows LogEntry.term lead leader ∧ msg.Carries leader ∧
    msg.prevTerm = lastTerm LogEntry.term (leader.take msg.prevSeq)

structure MatchingInvariant (lead : Nat → List LogEntry) (cluster : ReplicatorCluster) : Prop where
  whole : ∀ id ∈ cluster.members, (cluster.nodes id).log.Whole
  follows : ∀ id ∈ cluster.members, Follows LogEntry.term lead (cluster.nodes id).log.entries
  leads : ∀ id ∈ cluster.members, (cluster.nodes id).role = .primary →
    (cluster.nodes id).log.entries = lead (cluster.nodes id).term ∧
      ((cluster.nodes id).term, id) ∈ cluster.tenures
  unled : ∀ term, term ∉ cluster.tenures.map Prod.fst → lead term = []
  sole : ∀ {term first second}, (term, first) ∈ cluster.tenures → (term, second) ∈ cluster.tenures →
    first = second
  messages : ∀ envelope ∈ cluster.inFlight, ∀ msg, envelope.message = .appendEntries msg →
    Slices lead msg

theorem Slices.mono {lead lead' : Nat → List LogEntry} {msg : AppendEntries}
    (slices : Slices lead msg) (grows : ∀ term, lead term <+: lead' term) : Slices lead' msg := by
  obtain ⟨leader, numbered, follows, carries, prevTerm⟩ := slices
  exact ⟨leader, numbered, follows.mono grows, carries, prevTerm⟩

/-- What a replicator sends are slices of its log. -/
theorem slices_of_appendOf {lead : Nat → List LogEntry} {rep : Replicator} {msg : AppendEntries}
    (built : rep.AppendOf msg) (whole : rep.log.Whole)
    (follows : Follows LogEntry.term lead rep.log.entries) : Slices lead msg := by
  obtain ⟨leader, front, carries⟩ := built.carries whole.retains
  refine ⟨leader, ?_, follows.of_front front, carries, ?_⟩
  · rw [List.prefix_iff_eq_take.mp front]
    exact whole.retains.numbered.take _
  · rw [built.prevTerm whole, take_eq_of_front front carries.inside]

namespace MatchingInvariant

variable {lead lead' : Nat → List LogEntry} {cluster : ReplicatorCluster}

/-- **A node moves**, and the leaders' logs grow at no other primary's term. -/
theorem act (inv : MatchingInvariant lead cluster) {id : NodeId} {result : Replicator × Transport}
    {tenures : List (Nat × NodeId)} (grows : ∀ term, lead term <+: lead' term)
    (undisturbed : ∀ other ∈ cluster.members, other ≠ id → (cluster.nodes other).role = .primary →
      lead' (cluster.nodes other).term = lead (cluster.nodes other).term)
    (kept : cluster.tenures ⊆ tenures)
    (unled : ∀ term, term ∉ tenures.map Prod.fst → lead' term = [])
    (sole : ∀ {term first second}, (term, first) ∈ tenures → (term, second) ∈ tenures →
      first = second)
    (whole : result.1.log.Whole) (follows : Follows LogEntry.term lead' result.1.log.entries)
    (leads : result.1.role = .primary → result.1.log.entries = lead' result.1.term ∧
      (result.1.term, id) ∈ tenures)
    (appends : ∀ message ∈ result.2.sent, ∀ append, message.2 = .appendEntries append →
      result.1.AppendOf append) :
    MatchingInvariant lead' { cluster.act id result with tenures } := by
  refine ⟨fun other member => ?_, fun other member => ?_, fun other member => ?_, unled, sole,
    fun envelope isMessage msg content => ?_⟩
  · show (Function.update cluster.nodes id result.1 other).log.Whole
    by_cases same : other = id
    · rw [same, Function.update_self]
      exact whole
    · rw [Function.update_of_ne same]
      exact inv.whole other member
  · show Follows LogEntry.term lead' (Function.update cluster.nodes id result.1 other).log.entries
    by_cases same : other = id
    · rw [same, Function.update_self]
      exact follows
    · rw [Function.update_of_ne same]
      exact (inv.follows other member).mono grows
  · show (Function.update cluster.nodes id result.1 other).role = .primary →
      (Function.update cluster.nodes id result.1 other).log.entries =
        lead' (Function.update cluster.nodes id result.1 other).term ∧
          ((Function.update cluster.nodes id result.1 other).term, other) ∈ tenures
    by_cases same : other = id
    · rw [same, Function.update_self]
      exact leads
    · rw [Function.update_of_ne same]
      intro leading
      obtain ⟨written, tenure⟩ := inv.leads other member leading
      rw [undisturbed other member same leading]
      exact ⟨written, kept tenure⟩
  · rcases List.mem_append.mp isMessage with old | new
    · exact (inv.messages envelope old msg content).mono grows
    · obtain ⟨message, isSent, rfl⟩ := List.mem_map.mp new
      exact slices_of_appendOf (appends message isSent msg content) whole follows

/-- A node moves and keeps its log, role and term. -/
theorem act_steady (inv : MatchingInvariant lead cluster) {id : NodeId} (member : id ∈ cluster.members)
    {result : Replicator × Transport} (steady : (cluster.nodes id).Steady result) :
    MatchingInvariant lead (cluster.act id result) := by
  refine inv.act (fun _ => List.prefix_rfl) (fun _ _ _ _ => rfl) (List.Subset.refl _) inv.unled
    inv.sole ?_ ?_ (fun leading => ?_) fun message isSent append content => ?_
  · rw [steady.log]
    exact inv.whole id member
  · rw [steady.log]
    exact inv.follows id member
  · rw [steady.role] at leading
    rw [steady.log, steady.term]
    exact inv.leads id member leading
  · obtain ⟨append', content', built⟩ := steady.appends message isSent
    rw [content'] at content
    cases content
    exact built

/-- Losing messages, or seeing them twice. -/
theorem reshuffle (inv : MatchingInvariant lead cluster) {inFlight : List Envelope}
    (known : inFlight ⊆ cluster.inFlight) : MatchingInvariant lead { cluster with inFlight } :=
  { inv with messages := fun envelope isMessage => inv.messages envelope (known isMessage) }

/-- **A primary accepts a command**: the log of its term grows. -/
theorem act_accept (inv : MatchingInvariant lead cluster) {id : NodeId} (member : id ∈ cluster.members)
    (leading : (cluster.nodes id).role = .primary) {cmd : Command} {result : Replicator × Transport}
    {link : Link} (sends : ((cluster.nodes id).accept cmd).Sends { link } result.1 result.2) :
    ∃ lead', MatchingInvariant lead' (cluster.act id result) := by
  obtain ⟨written, tenure⟩ := inv.leads id member leading
  obtain ⟨term, _, whole, entry, ofTerm, entries⟩ := sends.accepted (inv.whole id member)
  -- The log of the term becomes the primary's new log.
  have front : lead (cluster.nodes id).term <+: result.1.log.entries := by
    rw [← written, entries]
    exact List.prefix_append _ _
  have grows := grows_update front
  refine ⟨Function.update lead (cluster.nodes id).term result.1.log.entries,
    inv.act grows (fun other isMember different leading' => ?_) (List.Subset.refl _)
      (fun any silent => ?_) inv.sole ?_ ?_ (fun _ => ?_) fun message isSent append content => ?_⟩
  · refine Function.update_of_ne (fun sameTerm => different ?_) _ _
    have tenure' := (inv.leads other isMember leading').2
    rw [sameTerm] at tenure'
    exact inv.sole tenure' tenure
  · refine (Function.update_of_ne (fun sameTerm => silent ?_) _ _).trans (inv.unled any silent)
    rw [sameTerm]
    exact List.mem_map_of_mem tenure
  · exact whole
  · rw [entries] at grows ⊢
    refine ((inv.follows id member).mono grows).append ?_
    rw [ofTerm]
    exact Function.update_self _ _ _
  · rw [term, Function.update_self]
    exact ⟨rfl, tenure⟩
  · obtain ⟨append', content', built⟩ := sends.appends message isSent
    rw [content'] at content
    cases content
    exact built

/-- **A node becomes primary** in a term that has had none. -/
theorem act_lead (inv : MatchingInvariant lead cluster) {id : NodeId} (member : id ∈ cluster.members)
    (free : (cluster.nodes id).term ∉ cluster.tenures.map Prod.fst) {rep : Replicator} {link : Link}
    (log : rep.log = (cluster.nodes id).log) (term : rep.term = (cluster.nodes id).term) :
    ∃ lead', MatchingInvariant lead'
      { cluster.act id (rep, { link }) with
        tenures := cluster.tenures ++ [((cluster.nodes id).term, id)] } := by
  have silent := inv.unled _ free
  have front : lead (cluster.nodes id).term <+: (cluster.nodes id).log.entries := by
    rw [silent]
    exact List.nil_prefix
  have grows := grows_update front
  refine ⟨Function.update lead (cluster.nodes id).term (cluster.nodes id).log.entries,
    inv.act grows (fun other isMember _ leading => ?_) (List.subset_append_left _ _)
      (fun any unnamed => ?_) ?_ ?_ ?_ (fun _ => ?_) fun message isSent => ?_⟩
  · refine Function.update_of_ne (fun sameTerm => free ?_) _ _
    rw [← sameTerm]
    exact List.mem_map_of_mem (inv.leads other isMember leading).2
  · rw [List.map_append, List.mem_append, not_or] at unnamed
    refine (Function.update_of_ne (fun sameTerm => unnamed.2 ?_) _ _).trans (inv.unled any unnamed.1)
    rw [sameTerm]
    exact List.mem_singleton_self _
  · exact sole_append inv.sole free
  · show rep.log.Whole
    rw [log]
    exact inv.whole id member
  · show Follows LogEntry.term _ rep.log.entries
    rw [log]
    exact (inv.follows id member).mono grows
  · show rep.log.entries = Function.update lead _ _ rep.term ∧ (rep.term, id) ∈ _
    rw [log, term, Function.update_self]
    exact ⟨rfl, List.mem_append_right _ (List.mem_singleton_self _)⟩
  · cases isSent

/-- **A backup is handed an `AppendEntries`.** -/
theorem act_receive (inv : MatchingInvariant lead cluster) {id : NodeId}
    (member : id ∈ cluster.members) (following : (cluster.nodes id).role ≠ .primary)
    {msg : AppendEntries} (slices : Slices lead msg) (link : Link) (source : NodeId) :
    MatchingInvariant lead
      (cluster.act id ((cluster.nodes id).handleAppendEntries { link } source msg)) := by
  obtain ⟨leader, numbered, leaderFollows, carries, prevTerm⟩ := slices
  have whole := inv.whole id member
  have follows := inv.follows id member
  obtain ⟨answer, answers, net⟩ := Replicator.answers_of_follows numbered leaderFollows whole follows
    carries prevTerm { link } source
  obtain ⟨⟨_, _, _, _, _, _, frame⟩, log⟩ := answers.frame
  refine inv.act (fun _ => List.prefix_rfl) (fun _ _ _ _ => rfl) (List.Subset.refl _) inv.unled
    inv.sole ?_ ?_ (fun leading => ?_) fun message isSent append content => ?_
  · rcases log with same | ⟨whole', _⟩
    · rw [same]
      exact whole
    · exact whole'
  · rcases log with same | ⟨_, all⟩
    · rw [same]
      exact follows
    · rw [all]
      exact leaderFollows
  · rw [frame] at leading
    exact absurd leading following
  · rw [net] at isSent
    rcases Transport.sent_send { link } source (.appendResponse answer) with ⟨_, grown⟩ | ⟨_, same⟩
    · rw [grown] at isSent
      rw [List.mem_singleton.mp isSent] at content
      cases content
    · rw [same] at isSent
      cases isSent

/-- **Every orderly step keeps the invariant.** -/
theorem step (inv : MatchingInvariant lead cluster) {label : Label} {next : ReplicatorCluster}
    (orderly : cluster.Orderly label) (enabled : cluster.step label = some next) :
    ∃ lead', MatchingInvariant lead' next := by
  cases label with
  | submit id cmd link =>
    obtain ⟨member, moved⟩ := Option.ite_none_right_eq_some.mp enabled
    obtain rfl := Option.some.inj moved
    rcases (cluster.nodes id).submit_cases { link } cmd with ⟨sends, _⟩ | ⟨leading, sends, _⟩
    · exact ⟨lead, { inv.act_steady member (sends.steady rfl rfl rfl) with }⟩
    · have acted : ∃ lead', MatchingInvariant lead' (cluster.act id (_, _)) :=
        inv.act_accept member leading sends
      obtain ⟨lead', acted⟩ := acted
      exact ⟨lead', { acted with }⟩
  | tick id link =>
    obtain ⟨member, moved⟩ := Option.ite_none_right_eq_some.mp enabled
    obtain rfl := Option.some.inj moved
    exact ⟨lead, inv.act_steady member ((cluster.nodes id).tick_steady link)⟩
  | compactLog id => exact orderly.elim
  | peerUp id peer link =>
    obtain ⟨⟨member, _⟩, moved⟩ := Option.ite_none_right_eq_some.mp enabled
    obtain rfl := Option.some.inj moved
    exact ⟨lead, inv.act_steady member ((cluster.nodes id).onPeerUp_steady link peer)⟩
  | peerDown id peer =>
    obtain ⟨member, moved⟩ := Option.ite_none_right_eq_some.mp enabled
    obtain rfl := Option.some.inj moved
    exact ⟨lead, inv.act_steady member (Replicator.steady_silent rfl rfl rfl)⟩
  | setTerm id term =>
    obtain ⟨member, moved⟩ := Option.ite_none_right_eq_some.mp enabled
    obtain rfl := Option.some.inj moved
    obtain ⟨_, settled⟩ := orderly
    refine ⟨lead, inv.act (fun _ => List.prefix_rfl) (fun _ _ _ _ => rfl) (List.Subset.refl _)
      inv.unled inv.sole (inv.whole id member) (inv.follows id member) (fun leading => ?_)
      fun message isSent => nomatch isSent⟩
    show (cluster.nodes id).log.entries = lead term ∧ (term, id) ∈ cluster.tenures
    rw [settled leading]
    exact inv.leads id member leading
  | setRole id role =>
    obtain ⟨member, moved⟩ := Option.ite_none_right_eq_some.mp enabled
    obtain rfl := Option.some.inj moved
    obtain ⟨backups, stats, changed⟩ := (cluster.nodes id).setRole_frame role
    rw [changed]
    by_cases rises : role = .primary ∧ (cluster.nodes id).role ≠ .primary
    · rw [if_pos rises]
      exact inv.act_lead member ((orderly rises.1).resolve_left rises.2) rfl rfl
    · rw [if_neg rises]
      refine ⟨lead, inv.act (fun _ => List.prefix_rfl) (fun _ _ _ _ => rfl) (List.Subset.refl _)
        inv.unled inv.sole (inv.whole id member) (inv.follows id member) (fun leading => ?_)
        fun message isSent => nomatch isSent⟩
      have already : (cluster.nodes id).role = .primary := by
        by_contra other
        exact rises ⟨leading, other⟩
      exact inv.leads id member already
  | deliver index link =>
    obtain ⟨envelope, found, enabled'⟩ := Option.bind_eq_some_iff.mp enabled
    obtain ⟨member, moved⟩ := Option.ite_none_right_eq_some.mp enabled'
    obtain rfl := Option.some.inj moved
    have isMessage := List.mem_of_getElem? found
    have removed : MatchingInvariant lead
        { cluster with inFlight := cluster.inFlight.eraseIdx index } :=
      inv.reshuffle List.eraseIdx_subset
    by_cases isAppend : ∃ msg, envelope.message = .appendEntries msg
    · obtain ⟨msg, content⟩ := isAppend
      have received := removed.act_receive member (orderly _ (appendTarget_eq found content))
        (inv.messages envelope isMessage msg content) link envelope.source
      rw [content]
      exact ⟨lead, { received with }⟩
    · have steady := (cluster.nodes envelope.target).onMessage_steady link envelope.source
        (not_exists.mp isAppend)
      exact ⟨lead, { removed.act_steady member steady with }⟩
  | duplicate index =>
    obtain ⟨envelope, found, rfl⟩ := Option.map_eq_some_iff.mp enabled
    have isMessage := List.mem_of_getElem? found
    refine ⟨lead, inv.reshuffle (List.append_subset.mpr ⟨List.Subset.refl _, ?_⟩)⟩
    simpa using isMessage
  | lose index =>
    obtain ⟨_, moved⟩ := Option.ite_none_right_eq_some.mp enabled
    obtain rfl := Option.some.inj moved
    exact ⟨lead, inv.reshuffle List.eraseIdx_subset⟩

end MatchingInvariant

section Start

variable {members : List NodeId} {instrument : InstrumentId} {roles : NodeId → Role}
  {terms : NodeId → Nat} {modes : NodeId → ReplicationMode} {windows sizes : NodeId → Nat}

theorem mem_tenures_replicators {term : Nat} {id : NodeId} :
    (term, id) ∈ (replicators members instrument roles terms modes windows sizes).tenures ↔
      id ∈ members ∧ roles id = .primary ∧ terms id = term := by
  show (term, id) ∈ List.map _ _ ↔ _
  simp only [List.mem_map, List.mem_filter, decide_eq_true_eq, Prod.mk.injEq]
  constructor
  · rintro ⟨_, ⟨member, leading⟩, sameTerm, rfl⟩
    exact ⟨member, leading, sameTerm⟩
  · rintro ⟨member, leading, sameTerm⟩
    exact ⟨id, ⟨member, leading⟩, sameTerm, rfl⟩

theorem sole_replicators
    (oneEach : ∀ first ∈ members, ∀ second ∈ members, roles first = .primary →
      roles second = .primary → terms first = terms second → first = second)
    {term : Nat} {first second : NodeId}
    (isFirst : (term, first) ∈ (replicators members instrument roles terms modes windows sizes).tenures)
    (isSecond : (term, second) ∈ (replicators members instrument roles terms modes windows sizes).tenures) :
    first = second := by
  obtain ⟨member, leading, sameTerm⟩ := mem_tenures_replicators.mp isFirst
  obtain ⟨member', leading', sameTerm'⟩ := mem_tenures_replicators.mp isSecond
  exact oneEach first member second member' leading leading' (sameTerm.trans sameTerm'.symm)

end Start

theorem matchingInvariant_replicators {members : List NodeId} (instrument : InstrumentId)
    {roles : NodeId → Role} {terms : NodeId → Nat} (modes : NodeId → ReplicationMode)
    (windows sizes : NodeId → Nat)
    (oneEach : ∀ first ∈ members, ∀ second ∈ members, roles first = .primary →
      roles second = .primary → terms first = terms second → first = second) :
    MatchingInvariant (fun _ => [])
      (replicators members instrument roles terms modes windows sizes) := by
  refine ⟨fun _ _ => CommandLog.whole_empty, fun _ _ => Follows.nil, fun id member leading => ?_,
    fun _ _ => rfl, fun {term first second} isFirst isSecond => ?_, fun envelope isMessage => ?_⟩
  · exact ⟨rfl, mem_tenures_replicators.mpr ⟨member, leading, rfl⟩⟩
  · exact sole_replicators oneEach isFirst isSecond
  · cases isMessage

/-- **Log matching.** After every orderly schedule, two logs that hold an entry of the same sequence
number and term hold the same command there and are identical below it. -/
theorem logMatching {members : List NodeId} (instrument : InstrumentId) {roles : NodeId → Role}
    {terms : NodeId → Nat} (modes : NodeId → ReplicationMode) (windows sizes : NodeId → Nat)
    (oneEach : ∀ first ∈ members, ∀ second ∈ members, roles first = .primary →
      roles second = .primary → terms first = terms second → first = second)
    (labels : List Label) {cluster : ReplicatorCluster}
    (orderly : Guarded step Orderly
      (replicators members instrument roles terms modes windows sizes) labels)
    (ran : run step (replicators members instrument roles terms modes windows sizes) labels =
      some cluster) :
    ∀ first ∈ members, ∀ second ∈ members, ∀ seq entry entry',
      (cluster.nodes first).log.at? seq = some entry →
      (cluster.nodes second).log.at? seq = some entry' → entry.term = entry'.term →
        entry.command = entry'.command ∧ ∀ earlier < seq,
          (cluster.nodes first).log.at? earlier = (cluster.nodes second).log.at? earlier := by
  have reached : cluster.members = members ∧ ∃ lead, MatchingInvariant lead cluster :=
    run_invariant (fun cluster => cluster.members = members ∧ ∃ lead, MatchingInvariant lead cluster)
      (fun {_ _ _} ⟨sameMembers, lead, holds⟩ orderly enabled =>
        ⟨(members_step enabled).trans sameMembers, holds.step orderly enabled⟩)
      ⟨rfl, _, matchingInvariant_replicators instrument modes windows sizes oneEach⟩ orderly ran
  obtain ⟨rfl, lead, inv⟩ := reached
  intro first member second member' seq entry entry' found found' sameTerm
  have whole := inv.whole first member
  have whole' := inv.whole second member'
  cases seq with
  | zero =>
    rw [whole.at?_zero] at found
    cases found
  | succ k =>
    rw [whole.at?_succ] at found
    rw [whole'.at?_succ] at found'
    obtain ⟨inside, rfl⟩ := List.getElem?_eq_some_iff.mp found
    obtain ⟨inside', rfl⟩ := List.getElem?_eq_some_iff.mp found'
    have agree := (inv.follows first member).matching (inv.follows second member') inside inside'
      sameTerm
    have same : ∀ i ≤ k,
        (cluster.nodes first).log.entries[i]? = (cluster.nodes second).log.entries[i]? := by
      intro i below
      have atPosition := congrArg (fun entries => entries[i]?) agree
      simp only [List.getElem?_take, if_pos (Nat.lt_succ_of_le below)] at atPosition
      exact atPosition
    constructor
    · have last := same k (Nat.le_refl k)
      rw [List.getElem?_eq_getElem inside, List.getElem?_eq_getElem inside'] at last
      exact congrArg LogEntry.command (Option.some.inj last)
    · intro earlier below
      cases earlier with
      | zero => rw [whole.at?_zero, whole'.at?_zero]
      | succ i =>
        rw [whole.at?_succ, whole'.at?_succ]
        exact same i (by omega)

/-- Three backups. -/
def threeBackups : ReplicatorCluster :=
  replicators [1, 2, 3] 1 (fun _ => .backup) (fun _ => 0) (fun _ => .asynchronous) (fun _ => 1)
    fun _ => 3

/-- Node 1 leads term 1 and replicates one of two commands; node 2 leads term 2 and overwrites the
other. -/
def overwritten : List Label :=
  [.setTerm 1 1, .setRole 1 .primary, .peerUp 1 2 {}, .deliver 0 {}, .deliver 0 {},
    .submit 1 (restingSell 1) {}, .deliver 0 {}, .deliver 0 {}, .lose 0,
    .submit 1 (restingSell 2) {}, .lose 0, .setRole 1 .backup, .setTerm 1 2, .setTerm 2 2,
    .setRole 2 .primary, .submit 2 (restingSell 3) {}, .peerUp 2 1 {}, .deliver 0 {}, .deliver 0 {},
    .deliver 0 {}]

theorem logMatching_overwritten :
    ∃ cluster, run step threeBackups overwritten = some cluster ∧
      (cluster.nodes 1).stats.conflictingEntriesTruncated = 1 ∧
      (cluster.nodes 1).log.at? 2 = some { seq := 2, term := 2, command := restingSell 3 } ∧
      (cluster.nodes 2).log.at? 2 = some { seq := 2, term := 2, command := restingSell 3 } ∧
      ∀ earlier < 2, (cluster.nodes 1).log.at? earlier = (cluster.nodes 2).log.at? earlier :=
  have ran : run step threeBackups overwritten =
      some ((run step threeBackups overwritten).get (by decide +kernel)) := (Option.some_get _).symm
  have first : (((run step threeBackups overwritten).get (by decide +kernel)).nodes 1).log.at? 2 =
      some { seq := 2, term := 2, command := restingSell 3 } := by decide +kernel
  have second : (((run step threeBackups overwritten).get (by decide +kernel)).nodes 2).log.at? 2 =
      some { seq := 2, term := 2, command := restingSell 3 } := by decide +kernel
  have matching := logMatching 1 (fun _ => .asynchronous) (fun _ => 1) (fun _ => 3)
    (by rintro _ _ _ _ ⟨⟩) overwritten
    (by decide +kernel) ran 1 (by decide) 2 (by decide) 2 _ _ first second rfl
  ⟨_, ran, by decide +kernel, first, second, matching.2⟩

end ReplicatorCluster

end Sententia
