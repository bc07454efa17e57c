/-
**When match points are sound.** A primary takes a backup's whole log head as its match point. That is more
than the answered message vouches for: the log may end in a leftover of an older leader, the answer may be
of an earlier term, and a backup that handles a response sends slices of its own log in the primary's term.

`leftover_counted` runs into the first of these: a primary commits an entry that only it holds. In every run
whose steps avoid the three (`Vouched`), `matchPoints_sound` holds.
-/

import Sententia.Replication.LogMatching
import Sententia.Replication.ReplicaHistory

namespace Sententia

open Library

namespace ReplicatorCluster

/-- Every entry a primary counts a backup for is in that backup's log, unless the backup has taken entries
from the leader of a later term. -/
def MatchPointsSound (cluster : ReplicatorCluster) : Prop :=
  ∀ primary ∈ cluster.members, ∀ backup ∈ cluster.members,
    (cluster.nodes primary).role = .primary → ∀ state,
      (cluster.nodes primary).backups.find? backup = some state → ∀ seq ≤ state.matchSeq, ∀ entry,
        (cluster.nodes primary).log.at? seq = some entry →
          (cluster.nodes backup).log.at? seq = some entry ∨
            ∃ later, (cluster.nodes primary).term < later ∧ (backup, later) ∈ cluster.taken

/-! ### The condition -/

/-- What is asked of a message that is handed to a node. -/
def VouchedDelivery (rep : Replicator) (link : Link) (source : NodeId) : Message → Prop
  | .appendEntries msg => msg.term ≤ rep.term ∧ rep.NoTail msg
  | .appendResponse msg => rep.Silent link source msg ∧
      (rep.role = .primary → msg.ok = true → rep.term ≤ msg.term ∨
        msg.lastLogSeq ≤ ((rep.backups.find? source).getD {}).matchSeq)
  | _ => True

instance (rep : Replicator) (link : Link) (source : NodeId) :
    ∀ message, Decidable (VouchedDelivery rep link source message)
  | .appendEntries _ => inferInstanceAs (Decidable (_ ∧ _))
  | .appendResponse _ => inferInstanceAs (Decidable (_ ∧ _))
  | .hello _ => isTrue trivial
  | .heartbeat _ => isTrue trivial
  | .commandForward _ => isTrue trivial
  | .eventAck _ => isTrue trivial
  | .requestVote _ => isTrue trivial
  | .voteResponse _ => isTrue trivial

/-- The caller keeps its rules, a follower has the term of the message it is handed, no accepted message
leaves a tail it does not vouch for, only primaries send, and acknowledgements of earlier terms raise no
match point. -/
def Vouched (cluster : ReplicatorCluster) (label : Label) : Prop :=
  cluster.Orderly label ∧ match label with
    | .deliver index link => ∀ envelope ∈ cluster.inFlight[index]?,
        VouchedDelivery (cluster.nodes envelope.target) link envelope.source envelope.message
    | _ => True

instance (cluster : ReplicatorCluster) (label : Label) : Decidable (cluster.Vouched label) := by
  unfold Vouched
  cases label <;> infer_instance

/-! ### The invariant -/

/-- What a message in flight says about the history. -/
def Truthful (history : LogHistory NodeId LogEntry) (envelope : Envelope) : Prop :=
  match envelope.message with
  | .appendEntries msg => msg.Backed history
  | .appendResponse msg => msg.ok = true → msg.lastLogSeq ≤ history.acked envelope.source msg.term
  | _ => True

structure VouchedInvariant (history : LogHistory NodeId LogEntry) (cluster : ReplicatorCluster) :
    Prop where
  sound : history.Sound LogEntry.term
  term : ∀ id ∈ cluster.members, history.term id = (cluster.nodes id).term
  whole : ∀ id ∈ cluster.members, (cluster.nodes id).log.Whole
  log : ∀ id ∈ cluster.members, history.log id = (cluster.nodes id).log.entries
  led : ∀ term, history.led term ↔ term ∈ cluster.tenures.map Prod.fst
  sole : ∀ {term first second}, (term, first) ∈ cluster.tenures → (term, second) ∈ cluster.tenures →
    first = second
  leads : ∀ id ∈ cluster.members, (cluster.nodes id).role = .primary →
    (cluster.nodes id).log.entries = history.lead (cluster.nodes id).term ∧
      ((cluster.nodes id).term, id) ∈ cluster.tenures
  points : ∀ id ∈ cluster.members, (cluster.nodes id).role = .primary →
    (cluster.nodes id).MatchedBy fun backup => history.acked backup (cluster.nodes id).term
  messages : ∀ envelope ∈ cluster.inFlight, Truthful history envelope
  taken : ∀ {id term}, history.took id term → (id, term) ∈ cluster.taken

theorem Truthful.mono {history history' : LogHistory NodeId LogEntry} {envelope : Envelope}
    (truthful : Truthful history envelope) (grows : history.Grows history') :
    Truthful history' envelope := by
  unfold Truthful at truthful ⊢
  split at truthful
  · exact truthful.mono grows
  · exact fun ok => (truthful ok).trans (grows.acked _ _)
  · trivial

namespace VouchedInvariant

variable {history history' : LogHistory NodeId LogEntry} {cluster : ReplicatorCluster}

/-- **A node moves**, the history grows with it, and the other primaries' logs stay theirs. -/
theorem act (inv : VouchedInvariant history cluster) {id : NodeId} {result : Replicator × Transport}
    {tenures : List (Nat × NodeId)} {taken : List (NodeId × Nat)}
    (sound : history'.Sound LogEntry.term) (grows : history.Grows history')
    (others : ∀ other, other ≠ id →
      history'.term other = history.term other ∧ history'.log other = history.log other)
    (undisturbed : ∀ other ∈ cluster.members, other ≠ id → (cluster.nodes other).role = .primary →
      history'.lead (cluster.nodes other).term = history.lead (cluster.nodes other).term)
    (term : history'.term id = result.1.term) (whole : result.1.log.Whole)
    (log : history'.log id = result.1.log.entries) (kept : cluster.tenures ⊆ tenures)
    (led : ∀ term, history'.led term ↔ term ∈ tenures.map Prod.fst)
    (sole : ∀ {term first second}, (term, first) ∈ tenures → (term, second) ∈ tenures →
      first = second)
    (leads : result.1.role = .primary → result.1.log.entries = history'.lead result.1.term ∧
      (result.1.term, id) ∈ tenures)
    (points : result.1.role = .primary →
      result.1.MatchedBy fun backup => history'.acked backup result.1.term)
    (sent : ∀ envelope ∈ result.2.outgoing id, Truthful history' envelope)
    (isTaken : ∀ {id term}, history'.took id term → (id, term) ∈ taken) :
    VouchedInvariant history' { cluster.act id result with tenures, taken } := by
  have moved : ∀ other ∈ cluster.members,
      (other = id ∧ (Function.update cluster.nodes id result.1 other) = result.1) ∨
        (other ≠ id ∧ (Function.update cluster.nodes id result.1 other) = cluster.nodes other) := by
    intro other _
    by_cases same : other = id
    · exact Or.inl ⟨same, by rw [same, Function.update_self]⟩
    · exact Or.inr ⟨same, Function.update_of_ne same _ _⟩
  refine ⟨sound, fun other member => ?_, fun other member => ?_, fun other member => ?_, led, sole,
    fun other member => ?_, fun other member => ?_, fun envelope isMessage => ?_, isTaken⟩
  · show history'.term other = (Function.update cluster.nodes id result.1 other).term
    rcases moved other member with ⟨same, now⟩ | ⟨different, now⟩
    · rw [now, same]
      exact term
    · rw [now, (others other different).1]
      exact inv.term other member
  · show (Function.update cluster.nodes id result.1 other).log.Whole
    rcases moved other member with ⟨_, now⟩ | ⟨_, now⟩
    · rw [now]
      exact whole
    · rw [now]
      exact inv.whole other member
  · show history'.log other = (Function.update cluster.nodes id result.1 other).log.entries
    rcases moved other member with ⟨same, now⟩ | ⟨different, now⟩
    · rw [now, same]
      exact log
    · rw [now, (others other different).2]
      exact inv.log other member
  · show (Function.update cluster.nodes id result.1 other).role = .primary →
      (Function.update cluster.nodes id result.1 other).log.entries =
        history'.lead (Function.update cluster.nodes id result.1 other).term ∧
          ((Function.update cluster.nodes id result.1 other).term, other) ∈ tenures
    rcases moved other member with ⟨same, now⟩ | ⟨different, now⟩
    · rw [now, same]
      exact leads
    · rw [now]
      intro leading
      obtain ⟨written, tenure⟩ := inv.leads other member leading
      rw [undisturbed other member different leading]
      exact ⟨written, kept tenure⟩
  · show (Function.update cluster.nodes id result.1 other).role = .primary →
      (Function.update cluster.nodes id result.1 other).MatchedBy fun backup =>
        history'.acked backup (Function.update cluster.nodes id result.1 other).term
    rcases moved other member with ⟨_, now⟩ | ⟨_, now⟩
    · rw [now]
      exact points
    · rw [now]
      exact fun leading => (inv.points other member leading).mono fun backup => grows.acked _ _
  · rcases List.mem_append.mp isMessage with old | new
    · exact (inv.messages envelope old).mono grows
    · exact sent envelope new

/-- A node moves and keeps its log, role and term. -/
theorem act_steady (inv : VouchedInvariant history cluster) {id : NodeId}
    (member : id ∈ cluster.members) {result : Replicator × Transport}
    (steady : (cluster.nodes id).Steady result)
    (points : (cluster.nodes id).role = .primary →
      result.1.MatchedBy fun backup => history.acked backup (cluster.nodes id).term)
    (silent : (cluster.nodes id).role ≠ .primary → result.2.sent = []) :
    VouchedInvariant history (cluster.act id result) := by
  refine inv.act inv.sound (.refl history) (fun _ _ => ⟨rfl, rfl⟩) (fun _ _ _ _ => rfl) ?_ ?_ ?_
    (List.Subset.refl _) inv.led inv.sole (fun leading => ?_) (fun leading => ?_)
    (fun envelope isSent => ?_) inv.taken
  · rw [steady.term]
    exact inv.term id member
  · rw [steady.log]
    exact inv.whole id member
  · rw [steady.log]
    exact inv.log id member
  · rw [steady.role] at leading
    rw [steady.log, steady.term]
    exact inv.leads id member leading
  · rw [steady.role] at leading
    rw [steady.term]
    exact points leading
  · obtain ⟨message, inSent, rfl⟩ := List.mem_map.mp isSent
    by_cases leading : (cluster.nodes id).role = .primary
    · obtain ⟨append, content, built⟩ := steady.appends message inSent
      obtain ⟨written, tenure⟩ := inv.leads id member leading
      unfold Truthful
      simp only [content]
      refine .of_appendOf built ?_ ?_ ?_
      · rw [steady.log]
        exact inv.whole id member
      · rw [steady.term]
        exact (inv.led _).mpr (List.mem_map_of_mem tenure)
      · rw [steady.log, steady.term]
        exact written
    · rw [silent leading] at inSent
      cases inSent

/-- Losing messages, or seeing them twice. -/
theorem reshuffle (inv : VouchedInvariant history cluster) {inFlight : List Envelope}
    (known : inFlight ⊆ cluster.inFlight) : VouchedInvariant history { cluster with inFlight } :=
  { inv with messages := fun envelope isMessage => inv.messages envelope (known isMessage) }

/-- A term has one primary at a time. -/
theorem eq_of_term (inv : VouchedInvariant history cluster) {id other : NodeId}
    (member : other ∈ cluster.members) (leading : (cluster.nodes other).role = .primary)
    (tenure : ((cluster.nodes id).term, id) ∈ cluster.tenures)
    (sameTerm : (cluster.nodes other).term = (cluster.nodes id).term) : other = id := by
  have tenure' := (inv.leads other member leading).2
  rw [sameTerm] at tenure'
  exact inv.sole tenure' tenure

/-- **A primary accepts a command.** -/
theorem act_accept (inv : VouchedInvariant history cluster) {id : NodeId}
    (member : id ∈ cluster.members) (leading : (cluster.nodes id).role = .primary) {cmd : Command}
    {result : Replicator × Transport} {link : Link}
    (sends : ((cluster.nodes id).accept cmd).Sends { link } result.1 result.2) :
    ∃ history', VouchedInvariant history' (cluster.act id result) := by
  obtain ⟨written, tenure⟩ := inv.leads id member leading
  have sameTerm := inv.term id member
  have sameLog := inv.log id member
  have led := (inv.led _).mpr (List.mem_map_of_mem tenure)
  obtain ⟨term, _, isWhole, entry, ofTerm, entries⟩ := sends.accepted (inv.whole id member)
  rw [← sameLog] at entries
  have leads : history.log id = history.lead (history.term id) := by
    rw [sameLog, sameTerm]
    exact written
  rw [← sameTerm] at ofTerm
  have grows := LogHistory.Grows.write leads entry
  have ownLog : (history.write id entry).log id = result.1.log.entries := by
    rw [entries]
    exact Function.update_self _ _ _
  have ownLead : result.1.log.entries = (history.write id entry).lead result.1.term := by
    have here : (history.write id entry).lead (history.term id) = history.log id ++ [entry] :=
      Function.update_self _ _ _
    rw [term, ← sameTerm, entries, here]
  refine ⟨history.write id entry, inv.act
    (inv.sound.write leads (by rw [sameTerm]; exact led) ofTerm) grows
    (fun other different => ⟨rfl, Function.update_of_ne different _ _⟩)
    (fun other isMember different leading' => ?_) ?_ isWhole ownLog (List.Subset.refl _) inv.led inv.sole
    (fun _ => ⟨ownLead, by rw [term]; exact tenure⟩) (fun _ => ?_) (fun envelope isSent => ?_) inv.taken⟩
  · refine Function.update_of_ne (fun same => different ?_) _ _
    exact inv.eq_of_term isMember leading' tenure (same.trans sameTerm)
  · rw [term]
    exact sameTerm
  · obtain ⟨_, _, _, _, _, accepts⟩ := (cluster.nodes id).accept_frame cmd
    refine Replicator.Files.of_sends ?_ sends
    rw [accepts, term]
    exact (inv.points id member leading).mono fun backup => grows.acked _ _
  · obtain ⟨message, inSent, rfl⟩ := List.mem_map.mp isSent
    obtain ⟨append, content, built⟩ := sends.appends message inSent
    unfold Truthful
    simp only [content]
    exact .of_appendOf built isWhole (by rw [term]; exact led) ownLead

/-- **A node becomes primary** in a term that has had none. -/
theorem act_lead (inv : VouchedInvariant history cluster) {id : NodeId}
    (member : id ∈ cluster.members) (following : (cluster.nodes id).role ≠ .primary)
    (free : (cluster.nodes id).term ∉ cluster.tenures.map Prod.fst) {link : Link} :
    ∃ history', VouchedInvariant history'
      { cluster.act id ((cluster.nodes id).setRole .primary, { link }) with
        tenures := cluster.tenures ++ [((cluster.nodes id).term, id)] } := by
  have sameTerm := inv.term id member
  have free' : ¬ history.led (history.term id) := by
    rw [inv.led, sameTerm]
    exact free
  have grows := LogHistory.Grows.elect (inv.sound.unled _ free') free'
  obtain ⟨backups, stats, changed⟩ := (cluster.nodes id).setRole_frame .primary
  have here : (history.elect id).lead (history.term id) = history.log id := Function.update_self _ _ _
  have unmatched := Replicator.matchedBy_setRole following
    fun backup => (history.elect id).acked backup (cluster.nodes id).term
  rw [changed] at unmatched ⊢
  refine ⟨history.elect id, inv.act (inv.sound.elect free') grows (fun _ _ => ⟨rfl, rfl⟩)
    (fun other isMember _ leading => ?_) sameTerm (inv.whole id member) (inv.log id member)
    (List.subset_append_left _ _) (fun any => ?_) ?_ (fun _ => ⟨?_, ?_⟩) (fun _ => unmatched)
    (fun envelope isSent => nomatch isSent) inv.taken⟩
  · refine Function.update_of_ne (fun same => free ?_) _ _
    rw [← sameTerm, ← same]
    exact List.mem_map_of_mem (inv.leads other isMember leading).2
  · show history.led any ∨ any = history.term id ↔ _
    rw [List.map_append, List.mem_append, inv.led, sameTerm, List.map_singleton, List.mem_singleton]
  · exact sole_append inv.sole free
  · show (cluster.nodes id).log.entries = (history.elect id).lead (cluster.nodes id).term
    rw [← sameTerm, here]
    exact (inv.log id member).symm
  · exact List.mem_append_right _ (List.mem_singleton_self _)

/-- **A backup is handed an `AppendEntries`** of its term. -/
theorem act_receive (inv : VouchedInvariant history cluster) {id : NodeId}
    (member : id ∈ cluster.members) (following : (cluster.nodes id).role ≠ .primary)
    {msg : AppendEntries} (backed : msg.Backed history)
    (settled : msg.term ≤ (cluster.nodes id).term) (noTail : (cluster.nodes id).NoTail msg)
    (link : Link) (source : NodeId) {taken : List (NodeId × Nat)} (known : cluster.taken ⊆ taken)
    (noted : takes (cluster.nodes id) msg = true → (id, msg.term) ∈ taken) :
    ∃ history', VouchedInvariant history'
      { cluster.act id ((cluster.nodes id).handleAppendEntries { link } source msg) with taken } := by
  have sameTerm := inv.term id member
  obtain ⟨leader, answer, history', _, _, answers, net, receives⟩ := backed.receives inv.sound
    (inv.whole id member) (inv.log id member) sameTerm settled { link } source
  obtain ⟨⟨_, _, _, _, _, _, frame⟩, _⟩ := answers.frame
  obtain ⟨log, acked, took, moved, others⟩ := receives.frame
  have sameRole : ((cluster.nodes id).handleAppendEntries { link } source msg).1.role =
      (cluster.nodes id).role := by rw [frame]
  refine ⟨history', inv.act receives.sound receives.grows (fun other different => ?_)
    (fun _ _ _ _ => ?_) ?_ receives.whole receives.log (List.Subset.refl _) (fun term => ?_) inv.sole
    (fun leading => ?_) (fun leading => ?_) (fun envelope isSent => ?_) fun {any term} tookIt => ?_⟩
  · rw [moved]
    exact ⟨rfl, others other different⟩
  · rw [moved]
  · rw [moved, frame]
    exact sameTerm
  · rw [moved]
    exact inv.led term
  · exact absurd (sameRole ▸ leading) following
  · exact absurd (sameRole ▸ leading) following
  · obtain ⟨message, inSent, rfl⟩ := List.mem_map.mp isSent
    rw [net] at inSent
    rcases Transport.sent_send { link } source (.appendResponse answer) with ⟨_, grown⟩ | ⟨_, same⟩
    · rw [grown] at inSent
      obtain rfl := List.mem_singleton.mp inSent
      exact receives.acks noTail
    · rw [same] at inSent
      cases inSent
  · rcases receives.took tookIt with old | ⟨rfl, rfl, takesIt⟩
    · exact known (inv.taken old)
    · refine noted ?_
      unfold takes
      exact decide_eq_true takesIt

/-- A node is given a higher term; a primary keeps its own. -/
theorem act_setTerm (inv : VouchedInvariant history cluster) {id : NodeId}
    (member : id ∈ cluster.members) {term : Nat} (higher : (cluster.nodes id).term ≤ term)
    (settled : (cluster.nodes id).role = .primary → term = (cluster.nodes id).term) {link : Link} :
    VouchedInvariant (history.raise id term)
      (cluster.act id ((cluster.nodes id).setTerm term, { link })) := by
  rw [← inv.term id member] at higher
  refine inv.act (inv.sound.raise higher) (.raise history id term)
    (fun other different => ⟨Function.update_of_ne different _ _, rfl⟩) (fun _ _ _ _ => rfl)
    (Function.update_self _ _ _) (inv.whole id member) (inv.log id member) (List.Subset.refl _) inv.led
    inv.sole (fun leading => ?_) (fun leading => ?_) (fun envelope isSent => nomatch isSent) inv.taken
  · show (cluster.nodes id).log.entries = history.lead term ∧ (term, id) ∈ cluster.tenures
    rw [settled leading]
    exact inv.leads id member leading
  · show (cluster.nodes id).MatchedBy fun backup => history.acked backup term
    rw [settled leading]
    exact inv.points id member leading

theorem act_demote (inv : VouchedInvariant history cluster) {id : NodeId}
    (member : id ∈ cluster.members) {role : Role} (demoted : role ≠ .primary) {link : Link} :
    VouchedInvariant history (cluster.act id ((cluster.nodes id).setRole role, { link })) := by
  obtain ⟨backups, stats, changed⟩ := (cluster.nodes id).setRole_frame role
  rw [changed]
  exact inv.act inv.sound (.refl history) (fun _ _ => ⟨rfl, rfl⟩) (fun _ _ _ _ => rfl)
    (inv.term id member) (inv.whole id member) (inv.log id member) (List.Subset.refl _) inv.led
    inv.sole (fun leading => absurd leading demoted) (fun leading => absurd leading demoted)
    (fun envelope isSent => nomatch isSent) inv.taken

/-- **Every vouched step keeps the invariant.** -/
theorem step (inv : VouchedInvariant history cluster) {label : Label} {next : ReplicatorCluster}
    (vouched : cluster.Vouched label) (enabled : cluster.step label = some next) :
    ∃ history', VouchedInvariant history' next := by
  obtain ⟨orderly, vouched⟩ := vouched
  cases label with
  | submit id cmd link =>
    obtain ⟨member, moved⟩ := Option.ite_none_right_eq_some.mp enabled
    obtain rfl := Option.some.inj moved
    rcases (cluster.nodes id).submit_cases { link } cmd with ⟨sends, _, unsent⟩ | ⟨leading, sends, _⟩
    · have acted : VouchedInvariant history (cluster.act id (_, _)) :=
        inv.act_steady member (sends.steady rfl rfl rfl)
          (fun leading => (inv.points id member leading).of_sends sends)
          fun _ => congrArg Transport.sent unsent
      exact ⟨history, { acted with }⟩
    · have acted : ∃ history', VouchedInvariant history' (cluster.act id (_, _)) :=
        inv.act_accept member leading sends
      obtain ⟨history', acted⟩ := acted
      exact ⟨history', { acted with }⟩
  | tick id link =>
    obtain ⟨member, moved⟩ := Option.ite_none_right_eq_some.mp enabled
    obtain rfl := Option.some.inj moved
    refine ⟨history, inv.act_steady member ((cluster.nodes id).tick_steady link) (fun leading => ?_)
      fun following => by rw [Replicator.tick_idle following]⟩
    exact (inv.points id member leading).of_sends ((cluster.nodes id).tick_sends { link })
  | compactLog id => exact orderly.elim
  | peerUp id peer link =>
    obtain ⟨⟨member, _⟩, moved⟩ := Option.ite_none_right_eq_some.mp enabled
    obtain rfl := Option.some.inj moved
    exact ⟨history, inv.act_steady member ((cluster.nodes id).onPeerUp_steady link peer)
      (fun leading => (inv.points id member leading).onPeerUp { link } (Nat.zero_le _))
      fun following => by rw [Replicator.onPeerUp_idle following]⟩
  | peerDown id peer =>
    obtain ⟨member, moved⟩ := Option.ite_none_right_eq_some.mp enabled
    obtain rfl := Option.some.inj moved
    exact ⟨history, inv.act_steady member (Replicator.steady_silent rfl rfl rfl)
      (fun leading => (inv.points id member leading).onPeerDown peer) fun _ => rfl⟩
  | setTerm id term =>
    obtain ⟨member, moved⟩ := Option.ite_none_right_eq_some.mp enabled
    obtain rfl := Option.some.inj moved
    exact ⟨_, inv.act_setTerm member orderly.1 orderly.2⟩
  | setRole id role =>
    obtain ⟨member, moved⟩ := Option.ite_none_right_eq_some.mp enabled
    obtain rfl := Option.some.inj moved
    by_cases rises : role = .primary ∧ (cluster.nodes id).role ≠ .primary
    · rw [if_pos rises]
      obtain ⟨rfl, following⟩ := rises
      exact inv.act_lead member following ((orderly rfl).resolve_left following)
    · rw [if_neg rises]
      by_cases same : role = (cluster.nodes id).role
      · have unchanged : (cluster.nodes id).setRole role = cluster.nodes id := if_pos same
        rw [unchanged]
        exact ⟨history, inv.act_steady member (Replicator.steady_silent rfl rfl rfl)
          (inv.points id member) fun _ => rfl⟩
      · have demoted : role ≠ .primary := fun isPrimary => rises ⟨isPrimary, fun already =>
          same (isPrimary.trans already.symm)⟩
        exact ⟨history, inv.act_demote member demoted⟩
  | deliver index link =>
    obtain ⟨envelope, found, enabled'⟩ := Option.bind_eq_some_iff.mp enabled
    obtain ⟨member, moved⟩ := Option.ite_none_right_eq_some.mp enabled'
    obtain rfl := Option.some.inj moved
    have isMessage := List.mem_of_getElem? found
    have removed : VouchedInvariant history
        { cluster with inFlight := cluster.inFlight.eraseIdx index } :=
      inv.reshuffle List.eraseIdx_subset
    have truthful := inv.messages envelope isMessage
    have asked := vouched envelope found
    cases content : envelope.message with
    | appendEntries msg =>
      unfold Truthful at truthful
      rw [content] at asked
      simp only [content] at truthful
      have taken : cluster.noteTaken envelope =
          if takes (cluster.nodes envelope.target) msg then
            cluster.taken ++ [(envelope.target, msg.term)]
          else cluster.taken := by
        unfold noteTaken
        rw [content]
      refine removed.act_receive member (orderly _ (appendTarget_eq found content)) truthful asked.1
        asked.2 link envelope.source ?_ fun takesIt => ?_
      · rw [taken]
        split_ifs
        · exact List.subset_append_left _ _
        · exact List.Subset.refl _
      · rw [taken, if_pos takesIt]
        exact List.mem_append_right _ (List.mem_singleton_self _)
    | appendResponse msg =>
      unfold Truthful at truthful
      rw [content] at asked
      simp only [content] at truthful
      have untaken : cluster.noteTaken envelope = cluster.taken := by
        unfold noteTaken
        rw [content]
      rw [untaken]
      refine ⟨history, removed.act_steady member
        ((cluster.nodes envelope.target).handleAppendResponse_steady link envelope.source msg)
        (fun leading => ?_) fun following => Replicator.handleAppendResponse_silent following asked.1⟩
      have points := inv.points _ member leading
      refine points.handleAppendResponse { link } (Nat.zero_le _) fun ok current => ?_
      rcases asked.2 leading ok with fromTerm | known
      · rw [Nat.le_antisymm fromTerm current]
        exact truthful ok
      · exact known.trans (points.getD (Nat.zero_le _) rfl)
    | _ =>
      have untaken : cluster.noteTaken envelope = cluster.taken := by
        unfold noteTaken
        rw [content]
      rw [untaken]
      exact ⟨history, removed.act_steady member (Replicator.steady_silent rfl rfl rfl)
        (inv.points _ member) fun _ => rfl⟩
  | duplicate index =>
    obtain ⟨envelope, found, rfl⟩ := Option.map_eq_some_iff.mp enabled
    have isMessage := List.mem_of_getElem? found
    refine ⟨history, inv.reshuffle (List.append_subset.mpr ⟨List.Subset.refl _, ?_⟩)⟩
    simpa using isMessage
  | lose index =>
    obtain ⟨_, moved⟩ := Option.ite_none_right_eq_some.mp enabled
    obtain rfl := Option.some.inj moved
    exact ⟨history, inv.reshuffle List.eraseIdx_subset⟩

end VouchedInvariant

/-! ### Whole runs -/

theorem vouchedInvariant_replicators {members : List NodeId} (instrument : InstrumentId)
    {roles : NodeId → Role} {terms : NodeId → Nat} (modes : NodeId → ReplicationMode)
    (windows sizes : NodeId → Nat)
    (oneEach : ∀ first ∈ members, ∀ second ∈ members, roles first = .primary →
      roles second = .primary → terms first = terms second → first = second) :
    VouchedInvariant
      (.fresh terms (· ∈ (replicators members instrument roles terms modes windows sizes).tenures.map Prod.fst))
      (replicators members instrument roles terms modes windows sizes) where
  sound := LogHistory.sound_fresh _ _ _
  term _ _ := rfl
  whole _ _ := CommandLog.whole_empty
  log _ _ := rfl
  led _ := Iff.rfl
  sole := sole_replicators oneEach
  leads _ member leading := ⟨rfl, mem_tenures_replicators.mpr ⟨member, leading, rfl⟩⟩
  points _ _ _ _ _ found := nomatch found
  messages _ isMessage := nomatch isMessage
  taken took := took.elim

namespace VouchedInvariant

variable {history : LogHistory NodeId LogEntry} {cluster : ReplicatorCluster}

/-- The invariant is what makes match points sound. -/
theorem matchPoints (inv : VouchedInvariant history cluster) : cluster.MatchPointsSound := by
  intro primary member backup member' leading state filed seq reached entry found
  have covered := reached.trans (inv.points primary member leading backup state filed)
  obtain ⟨written, _⟩ := inv.leads primary member leading
  have whole := inv.whole primary member
  cases seq with
  | zero =>
    rw [whole.at?_zero] at found
    cases found
  | succ k =>
    rw [whole.at?_succ, written] at found
    rcases inv.sound.retained covered with held | ⟨later, above, _, took, _⟩
    · refine Or.inl ?_
      rw [inv.log backup member'] at held
      rw [(inv.whole backup member').at?_succ]
      obtain ⟨inside, rfl⟩ := List.getElem?_eq_some_iff.mp found
      have short : k < ((history.lead (cluster.nodes primary).term).take (k + 1)).length := by
        rw [List.length_take]
        omega
      rw [getElem_of_front held short, List.getElem_take]
    · exact Or.inr ⟨later, above, inv.taken took⟩

end VouchedInvariant

/-- **Match points are sound** in every run whose steps are all vouched for. -/
theorem matchPoints_sound {members : List NodeId} (instrument : InstrumentId) {roles : NodeId → Role}
    {terms : NodeId → Nat} (modes : NodeId → ReplicationMode) (windows sizes : NodeId → Nat)
    (oneEach : ∀ first ∈ members, ∀ second ∈ members, roles first = .primary →
      roles second = .primary → terms first = terms second → first = second)
    (labels : List Label) {cluster : ReplicatorCluster}
    (vouched : Guarded step Vouched
      (replicators members instrument roles terms modes windows sizes) labels)
    (ran : run step (replicators members instrument roles terms modes windows sizes) labels =
      some cluster) :
    cluster.MatchPointsSound := by
  have reached : ∃ history, VouchedInvariant history cluster :=
    run_invariant (fun cluster => ∃ history, VouchedInvariant history cluster)
      (fun {_ _ _} ⟨_, holds⟩ vouched enabled => holds.step vouched enabled)
      ⟨_, vouchedInvariant_replicators instrument modes windows sizes oneEach⟩ vouched ran
  obtain ⟨_, inv⟩ := reached
  exact inv.matchPoints

/-- Node 1 leads term 1 and replicates a command to node 2, which then leads term 2 and replicates both
its commands to node 1. -/
def handedOn : List Label :=
  [.setTerm 1 1, .setTerm 2 1, .setRole 1 .primary, .peerUp 1 2 {}, .deliver 0 {}, .deliver 0 {},
    .submit 1 (restingSell 1) {}, .deliver 0 {}, .deliver 0 {}, .lose 0, .setRole 1 .backup,
    .setTerm 1 2, .setTerm 2 2, .setRole 2 .primary, .submit 2 (restingSell 2) {}, .peerUp 2 1 {},
    .deliver 0 {}, .deliver 0 {}, .deliver 0 {}, .deliver 0 {}]

theorem matchPoints_sound_handedOn :
    ∃ cluster, run step threeBackups handedOn = some cluster ∧ cluster.MatchPointsSound ∧
      (cluster.nodes 2).role = .primary ∧
      ((cluster.nodes 2).backups.find? 1).map BackupState.matchSeq = some 2 :=
  have ran : run step threeBackups handedOn =
      some ((run step threeBackups handedOn).get (by decide +kernel)) := (Option.some_get _).symm
  ⟨_, ran, matchPoints_sound 1 (fun _ => .asynchronous) (fun _ => 1) (fun _ => 3)
    (by rintro _ _ _ _ ⟨⟩) handedOn
    (by decide +kernel) ran, by decide +kernel, by decide +kernel⟩

/-- Node 1 leads term 1 and replicates a command to node 2. Node 3, which never heard of it, leads term 2;
node 2 accepts its empty probe and acknowledges its whole log. Node 3 then accepts a command, and a
duplicate of the acknowledgement arrives. -/
def leftover : List Label :=
  [.setTerm 1 1, .setTerm 2 1, .setRole 1 .primary, .peerUp 1 2 {}, .deliver 0 {}, .deliver 0 {},
    .submit 1 (restingSell 1) {}, .deliver 0 {}, .lose 0, .setRole 1 .backup, .setTerm 3 2,
    .setTerm 2 2, .setRole 3 .primary, .peerUp 3 2 {}, .deliver 0 {}, .duplicate 0, .deliver 0 {},
    .submit 3 (restingSell 2) {}, .deliver 0 {}]

/-- **A leftover is counted.** The caller keeps its rules, yet the primary of term 2 commits a command that
no other node holds. -/
theorem leftover_counted :
    Guarded step Orderly threeBackups leftover ∧
      ∃ cluster, run step threeBackups leftover = some cluster ∧ ¬ cluster.MatchPointsSound ∧
        (cluster.nodes 3).commitIndex = 1 ∧
        (cluster.nodes 3).log.at? 1 = some { seq := 1, term := 2, command := restingSell 2 } ∧
        ∀ id ∈ [1, 2],
          (cluster.nodes id).log.at? 1 = some { seq := 1, term := 1, command := restingSell 1 } := by
  have ran : run step threeBackups leftover =
      some ((run step threeBackups leftover).get (by decide +kernel)) := (Option.some_get _).symm
  refine ⟨by decide +kernel, _, ran, fun sound => ?_, by decide +kernel, by decide +kernel,
    List.forall_mem_cons.mpr ⟨by decide +kernel, List.forall_mem_singleton.mpr (by decide +kernel)⟩⟩
  have filed : ∃ state, (((run step threeBackups leftover).get (by decide +kernel)).nodes 3).backups.find?
      2 = some state ∧ 1 ≤ state.matchSeq := by decide +kernel
  obtain ⟨state, found, reached⟩ := filed
  rcases sound 3 (by decide +kernel) 2 (by decide +kernel) (by decide +kernel) state found 1 reached
    { seq := 1, term := 2, command := restingSell 2 } (by decide +kernel) with held | ⟨later, above, taken⟩
  · revert held
    decide +kernel
  · have only : ((run step threeBackups leftover).get (by decide +kernel)).taken = [(2, 1)] := by
      decide +kernel
    have term : (((run step threeBackups leftover).get (by decide +kernel)).nodes 3).term = 2 := by
      decide +kernel
    rw [only] at taken
    rw [term] at above
    cases List.mem_singleton.mp taken
    exact absurd above (by decide)

end ReplicatorCluster

end Sententia
