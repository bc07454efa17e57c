/-
**What is committed is committed for good.** In every run in which no step takes one of the node program's
wrong turns (`Sober`), no two members have committed different entries at one sequence number
(`committed_alike`), and a leader has everything that any member of no later term has committed
(`leaders_have_committed`).

The invariant stands on that of leader completeness. `Sealed` is what it adds to a node: what the node has
committed is decided in the history of the leaders' logs, and a backup has accepted what the node counts it for.
Every event of a node keeps this, and what the node sends is warranted (`Seals`).
-/

import Sententia.Node.Announcements
import Sententia.Node.LeaderCompleteness
import Sententia.Replication.CommittedFront
import Sententia.Replication.MatchPoints

namespace Sententia

open Library

namespace NodeCluster

/-! ### What is asked of a step -/

/-- The node as its replicator comes to handle a message. -/
def handling (node : Node) (now : Millis) : Message → Node
  | .appendEntries msg =>
    (node.elect { link := {} } (node.election.onAppendEntries msg.term msg.leaderId now)).1.syncTerm
  | .appendResponse msg => hearing node msg now
  | _ => node

/-- If a response moves the commit point, no fewer than half of the members are counted for it: enough to meet
every majority that elects a leader. -/
def Counted (members : List NodeId) (rep : Replicator) (source : NodeId) : Message → Prop
  | .appendResponse msg => rep.commitIndex < (rep.noteResponse source msg).commitIndex →
      members.length ≤ 2 * (members.filter fun id =>
        id ∈ (rep.noted source msg).holders (rep.noteResponse source msg).commitIndex).length
  | _ => True

instance (members : List NodeId) (rep : Replicator) (source : NodeId) :
    ∀ message, Decidable (Counted members rep source message)
  | .appendEntries _ => isTrue trivial
  | .appendResponse _ => inferInstanceAs (Decidable (_ → _))
  | .hello _ => isTrue trivial
  | .heartbeat _ => isTrue trivial
  | .commandForward _ => isTrue trivial
  | .eventAck _ => isTrue trivial
  | .requestVote _ => isTrue trivial
  | .voteResponse _ => isTrue trivial

/-- A careful step; a log that accepts a message has no tail that the message does not vouch for; no
acknowledgement of an earlier term raises a match point; and fewer than half are not taken for a majority. -/
def Sober (cluster : NodeCluster) (label : Label) : Prop :=
  cluster.Careful label ∧ match label with
    | .deliver index now link => ∀ envelope ∈ cluster.inFlight[index]?,
        let rep := (handling (cluster.nodes envelope.target) now envelope.message).replicator
        ReplicatorCluster.VouchedDelivery rep link envelope.source envelope.message ∧
          Counted cluster.members rep envelope.source envelope.message
    | _ => True

instance (cluster : NodeCluster) (label : Label) : Decidable (cluster.Sober label) := by
  unfold Sober
  cases label <;> infer_instance

/-! ### Sealed nodes -/

variable {members : List NodeId} {campaign campaign' : Campaign NodeId LogEntry}
  {nodes : NodeId → Node} {inFlight : List Envelope} {id : NodeId} {node node' : Node}

/-- What a node has committed is decided by its term, and what it counts a backup for, the backup has
accepted. -/
structure Sealed (members : List NodeId) (campaign : Campaign NodeId LogEntry) (node : Node) : Prop where
  raised : node.election.Raised
  signed : Signed node.replicator.log.entries
  notAlone : node.replicator.clusterSize ≠ 1
  commits : node.replicator.Commits (LogHistory.Decided LogEntry.term (Majority members) campaign.logs
    node.election.currentTerm)
  points : node.replicator.role = .primary →
    node.replicator.Files (LogHistory.Covers LogEntry.term campaign.logs node.election.currentTerm)

/-- What a message in flight says of commits is true. -/
def Warrants (members : List NodeId) (campaign : Campaign NodeId LogEntry) (source : NodeId) :
    Message → Prop
  | .appendEntries msg => msg.Warranted campaign.logs (Majority members)
  | .appendResponse msg => msg.Warranted campaign.logs source
  | _ => True

/-- A node that has moved is sealed, and what it sent is warranted. -/
def Seals (members : List NodeId) (campaign : Campaign NodeId LogEntry) (id : NodeId)
    (result : Node × Transport) : Prop :=
  Sealed members campaign result.1 ∧
    ∀ message ∈ result.2.sent, Warrants members campaign id message.2

theorem Warrants.mono {message : Message} (warrants : Warrants members campaign id message)
    (grows : campaign.logs.Grows campaign'.logs) : Warrants members campaign' id message := by
  cases message with
  | appendEntries msg => exact AppendEntries.Warranted.mono warrants grows
  | appendResponse msg => exact AppendResponse.Warranted.mono warrants grows
  | _ => trivial

namespace Sealed

theorem commits_mono (sealed : Sealed members campaign node) (grows : campaign.logs.Grows campaign'.logs)
    {bound : Nat} (later : node.election.currentTerm ≤ bound) : node.replicator.Commits
      (LogHistory.Decided LogEntry.term (Majority members) campaign'.logs bound) :=
  sealed.commits.mono fun decided => decided.mono grows later

theorem points_mono (sealed : Sealed members campaign node) (grows : campaign.logs.Grows campaign'.logs)
    (leading : node.replicator.role = .primary) :
    node.replicator.Files (LogHistory.Covers LogEntry.term campaign'.logs node.election.currentTerm) :=
  fun id backup found => (sealed.points leading id backup found).mono grows

/-- Others have moved. -/
theorem mono (sealed : Sealed members campaign node) (grows : campaign.logs.Grows campaign'.logs) :
    Sealed members campaign' node :=
  { sealed with
    commits := sealed.commits_mono grows (Nat.le_refl _)
    points := sealed.points_mono grows }

/-- The node has moved, and its commit point has not. -/
theorem of_still (sealed : Sealed members campaign node) (grows : campaign.logs.Grows campaign'.logs)
    (later : node.election.currentTerm ≤ node'.election.currentTerm) (raised : node'.election.Raised)
    (still : node.replicator.Still node'.replicator)
    (points : node'.replicator.role = .primary → node'.replicator.Files
      (LogHistory.Covers LogEntry.term campaign'.logs node'.election.currentTerm)) :
    Sealed members campaign' node' where
  raised := raised
  signed := still.log.symm ▸ sealed.signed
  notAlone := still.clusterSize.symm ▸ sealed.notAlone
  commits := (sealed.commits_mono grows later).of_same still.commitIndex still.applied
    (still.log.symm ▸ sealed.commits.inside) (by rw [still.log])
  points := points

/-- The election has moved and its actions are performed. -/
theorem elect (sealed : Sealed members campaign node) (tracks : node.Tracks) {result : Election × ActionList}
    (proclaims : node.election.Proclaims result) (grows : campaign.logs.Grows campaign'.logs) (link : Link)
    (leads : (node.elect { link } result).1.replicator.role = .primary →
      (node.elect { link } result).1.election.role = .leader) :
    (node.elect { link } result).1.election.Raised ∧
      ((node.elect { link } result).1.replicator.role = .primary →
        (node.elect { link } result).1.replicator.Files (LogHistory.Covers LogEntry.term campaign'.logs
          (node.elect { link } result).1.election.currentTerm)) := by
  rw [node.election_elect { link } result] at leads ⊢
  refine ⟨proclaims.raised sealed.raised, fun leading => ?_⟩
  refine Node.runActions_files (fun _ => .zero) result.2 _ { link } (fun before => ?_) leading
  have sameTerm := proclaims.stays (tracks.mp before) (leads leading)
  rw [sameTerm]
  exact sealed.points_mono grows before

end Sealed

/-- A node's term only rises. -/
theorem Kept.term_le (kept : Kept members campaign id node) (kept' : Kept members campaign' id node')
    (grows : campaign.Grows id campaign') : node.election.currentTerm ≤ node'.election.currentTerm := by
  rw [← kept.term, ← kept'.term]
  exact grows.term id

namespace Inv

/-- What a node is after its move. -/
theorem kept_update (inv : Inv members campaign (Function.update nodes id node') inFlight)
    (member : id ∈ members) : Kept members campaign id node' := by
  have kept := inv.kept id member
  rwa [Function.update_self] at kept

theorem office_update (inv : Inv members campaign (Function.update nodes id node') inFlight)
    (member : id ∈ members) (leading : node'.election.role = .leader) :
    campaign.logs.led node'.election.currentTerm ∧
      node'.replicator.log.entries = campaign.logs.lead node'.election.currentTerm := by
  have office := (inv.office member (by rw [Function.update_self]; exact leading)).2
  rwa [Function.update_self] at office

/-- **What a sealed leader announces is warranted.** -/
theorem seals (inv : Inv members campaign (Function.update nodes id node') inFlight) (member : id ∈ members)
    (sealed : Sealed members campaign node') {net : Transport}
    (announced : ∀ message ∈ net.sent, node'.Announced message.2) :
    Seals members campaign id (node', net) := by
  refine ⟨sealed, fun message isSent => ?_⟩
  have kept := inv.kept_update member
  have announces := announced message isSent
  obtain ⟨target, content⟩ := message
  cases content with
  | appendEntries msg =>
    obtain ⟨leads, term, commitSeq, slice⟩ := announces
    obtain ⟨led, written⟩ := inv.office_update member leads
    rw [← term] at led written
    exact .of_speaker kept.whole sealed.signed led written (term ▸ sealed.commits) commitSeq slice
  | appendResponse msg => exact announces.elim
  | _ => trivial

end Inv

/-! ### The events -/

namespace Sealed

section Events

variable {inFlight' : List Envelope}

/-- The replicator has sent, as a leader if at all. -/
theorem sends {net net' : Transport} {middle rep : Replicator}
    (sealed : Sealed members campaign { node with replicator := middle }) (member : id ∈ members)
    (inv : Inv members campaign (Function.update nodes id { node with replicator := rep }) inFlight)
    (sends : middle.Sends net rep net')
    (announced : ∀ message ∈ net.sent, ({ node with replicator := middle } : Node).Announced message.2)
    (office : middle.role = .primary ∨ net'.sent = net.sent) :
    Seals members campaign id ({ node with replicator := rep }, net') := by
  have kept := inv.kept_update member
  have still := Replicator.Still.of_core sends.frame
  have sameRole : rep.role = middle.role := congrArg (·.role) sends.frame
  have sealed' : Sealed members campaign { node with replicator := rep } :=
    sealed.of_still (.refl _) (Nat.le_refl _) sealed.raised still fun leading =>
      (sealed.points (sameRole.symm.trans leading)).of_sends sends
  refine inv.seals member sealed' fun message isSent => ?_
  have before : message ∈ net.sent → ({ node with replicator := rep } : Node).Announced message.2 :=
    fun isSent => (announced message isSent).of_still rfl still
  rcases office with leading | quiet
  · have leads := kept.tracks.mp (sameRole.trans leading)
    have term : middle.term = node.election.currentTerm :=
      (congrArg (·.term) sends.frame).symm.trans (kept.inTerm leads)
    exact (Node.Announced.of_sends sends leads term still message isSent).elim before fun new => new
  · exact before (quiet ▸ isSent)

/-- **A node ticks.** -/
theorem tick (inv : Inv members campaign nodes inFlight) (member : id ∈ members)
    (sealed : Sealed members campaign (nodes id)) (bounded : (nodes id).election.currentTerm < 2 ^ 64 - 1)
    (now : Millis) (link : Link) (grows : campaign.Grows id campaign')
    (inv' : Inv members campaign' (Function.update nodes id ((nodes id).tick { link } now).1) inFlight') :
    Seals members campaign' id ((nodes id).tick { link } now) := by
  have kept := inv.kept id member
  have kept' := inv'.kept_update member
  have later := kept.term_le kept' grows
  have proclaims := (((nodes id).election.setLastLogSeq (nodes id).replicator.log.lastSeq).tick_proclaims
    bounded now).of_setLastLogSeq
  have elected := sealed.elect kept.tracks proclaims grows.logs link
  obtain ⟨still, announced⟩ := (nodes id).elect_announces link proclaims
  unfold Node.tick at inv' kept' later ⊢
  generalize (nodes id).elect { link } _ = result at *
  obtain ⟨next, net⟩ := result
  simp only at *
  have sameRole := next.syncTerm.replicator.role_tick net
  obtain ⟨raised, points⟩ := elected fun leading => kept'.tracks.mp (sameRole.trans leading)
  have synced := Replicator.Still.setTerm next.replicator next.election.currentTerm
  have sealed' : Sealed members campaign' next.syncTerm :=
    sealed.of_still grows.logs later raised (still.trans synced) points
  refine sealed'.sends member inv' (next.syncTerm.replicator.tick_sends net)
    (fun message isSent => (announced message isSent).of_still rfl synced) ?_
  by_cases leading : next.syncTerm.replicator.role = .primary
  · exact Or.inl leading
  · rw [Replicator.tick_idle leading]
    exact Or.inr rfl

/-- A call of the election, and nothing more. -/
theorem elected (inv : Inv members campaign nodes inFlight) (member : id ∈ members)
    (sealed : Sealed members campaign (nodes id)) {result : Election × ActionList}
    (proclaims : (nodes id).election.Proclaims result) (link : Link) (grows : campaign.Grows id campaign')
    (inv' : Inv members campaign' (Function.update nodes id ((nodes id).elect { link } result).1) inFlight') :
    Seals members campaign' id ((nodes id).elect { link } result) := by
  have kept := inv.kept id member
  have kept' := inv'.kept_update member
  obtain ⟨raised, points⟩ := sealed.elect kept.tracks proclaims grows.logs link kept'.tracks.mp
  obtain ⟨still, announced⟩ := (nodes id).elect_announces link proclaims
  exact inv'.seals member (sealed.of_still grows.logs (kept.term_le kept' grows) raised still points) announced

/-- Nothing happens. -/
theorem idle (member : id ∈ members) (sealed : Sealed members campaign node) (link : Link)
    (grows : campaign.logs.Grows campaign'.logs)
    (inv' : Inv members campaign' (Function.update nodes id node) inFlight') :
    Seals members campaign' id (node, { link }) :=
  inv'.seals member (sealed.mono grows) fun _ isSent => nomatch isSent

/-- **A command is submitted.** -/
theorem submit (inv : Inv members campaign nodes inFlight) (member : id ∈ members)
    (sealed : Sealed members campaign (nodes id)) (cmd : Command) (link : Link)
    (grows : campaign.Grows id campaign')
    (inv' : Inv members campaign' (Function.update nodes id ((nodes id).submit { link } cmd).1) inFlight') :
    Seals members campaign' id ((nodes id).submit { link } cmd) := by
  have kept := inv.kept id member
  have moved := sealed.mono grows.logs
  unfold Node.submit at inv' ⊢
  split_ifs at inv' ⊢ with leading
  · rcases (nodes id).replicator.submit_cases { link } cmd with ⟨sends, _, _⟩ | ⟨_, sends, _⟩
    · exact moved.sends member inv' sends (fun _ isSent => nomatch isSent) (Or.inl leading)
    · have joins : (nodes id).replicator.accept cmd = (nodes id).replicator.join cmd :=
        if_neg sealed.notAlone
      have entries := kept.whole.entries_append cmd (nodes id).replicator.term
      have accepted : Sealed members campaign'
          { nodes id with replicator := (nodes id).replicator.accept cmd } :=
        { raised := sealed.raised
          signed := by
            rw [joins]
            show Signed ((nodes id).replicator.log.append cmd _).1.entries
            rw [entries]
            intro entry isEntry
            rcases List.mem_append.mp isEntry with old | new
            · exact sealed.signed entry old
            · -- The first term has no leader.
              have inOffice := kept.tracks.mp leading
              rw [List.mem_singleton.mp new, show _ = _ from kept.inTerm inOffice]
              exact sealed.raised (by rw [inOffice]; exact nofun)
          notAlone := by
            rw [joins]
            exact sealed.notAlone
          commits := moved.commits.accept kept.whole sealed.notAlone cmd
          points := by
            rw [joins]
            exact moved.points }
      have leading' : ((nodes id).replicator.accept cmd).role = .primary := by
        rw [joins]
        exact leading
      exact accepted.sends member inv' sends (fun _ isSent => nomatch isSent) (Or.inl leading')
  · exact sealed.idle member link grows.logs inv'

theorem peerUp (member : id ∈ members) (sealed : Sealed members campaign (nodes id)) (peer : NodeId)
    (link : Link) (grows : campaign.Grows id campaign')
    (inv' : Inv members campaign' (Function.update nodes id ((nodes id).onPeerUp { link } peer).1) inFlight') :
    Seals members campaign' id ((nodes id).onPeerUp { link } peer) := by
  have moved := sealed.mono grows.logs
  unfold Node.onPeerUp at inv' ⊢
  by_cases leading : (nodes id).replicator.role = .primary
  · have greeted : Sealed members campaign'
        { nodes id with replicator := (nodes id).replicator.greet peer } :=
      moved.of_still (.refl _) (Nat.le_refl _) moved.raised ⟨rfl, rfl, rfl, rfl⟩ fun leading =>
        (moved.points leading).insert ((moved.points leading).getD .zero rfl)
    exact greeted.sends member inv' (Replicator.onPeerUp_sends leading { link } peer)
      (fun _ isSent => nomatch isSent) (Or.inl leading)
  · rw [Replicator.onPeerUp_idle leading] at inv' ⊢
    exact sealed.idle member link grows.logs inv'

theorem peerDown (member : id ∈ members) (sealed : Sealed members campaign (nodes id)) (peer : NodeId)
    (grows : campaign.Grows id campaign')
    (inv' : Inv members campaign' (Function.update nodes id ((nodes id).onPeerDown peer)) inFlight') :
    Seals members campaign' id ((nodes id).onPeerDown peer, { link := {} }) := by
  refine inv'.seals member ?_ fun _ isSent => nomatch isSent
  exact sealed.of_still grows.logs (Nat.le_refl _) sealed.raised ⟨rfl, rfl, rfl, rfl⟩ fun leading =>
    (sealed.points_mono grows.logs leading).onPeerDown peer

/-- **The replicator handles an `AppendEntries`**: what it then commits is decided, and what it acknowledges it
has accepted. -/
theorem receive (sealed : Sealed members campaign node) (member : id ∈ members)
    (whole : node.replicator.log.Whole)
    (follows : Follows LogEntry.term campaign.logs.lead node.replicator.log.entries)
    (settled : node.replicator.term = node.election.currentTerm) {msg : AppendEntries}
    (warranted : msg.Warranted campaign.logs (Majority members))
    (reached : msg.term ≤ node.election.currentTerm) (noTail : node.replicator.NoTail msg)
    {link : Link} {source : NodeId}
    (inv : Inv members campaign (Function.update nodes id
      { node with replicator := (node.replicator.handleAppendEntries { link } source msg).1 }) inFlight) :
    Seals members campaign id
      ({ node with replicator := (node.replicator.handleAppendEntries { link } source msg).1 },
        (node.replicator.handleAppendEntries { link } source msg).2) := by
  have kept := inv.kept_update member
  obtain ⟨leader, answer, answers, sends, signed, accepted⟩ := warranted.answers inv.sound.logs whole
    sealed.signed follows noTail { link } source
  obtain ⟨_, _, _, _, _, _, touched⟩ := node.replicator.handleAppendEntries_touches { link } source msg
  have sameRole := congrArg (·.role) touched
  have sameBackups : _ = node.replicator.backups := congrArg (·.backups) touched
  have sameSize := congrArg (·.clusterSize) touched
  rw [sends]
  generalize (node.replicator.handleAppendEntries { link } source msg).1 = rep at *
  refine ⟨⟨sealed.raised, signed, ?_, ?_, ?_⟩, fun message isSent => ?_⟩
  · exact sameSize.symm ▸ sealed.notAlone
  · refine sealed.commits.answers whole answers fun ok => ?_
    obtain ⟨_, _, _, front⟩ := accepted ok
    exact (warranted.decided.mono (.refl _) reached).of_front (front.take msg.commitSeq)
  · intro leading id backup found
    rw [sameBackups] at found
    exact sealed.points (sameRole.symm.trans leading) id backup found
  · have content : message.2 = .appendResponse answer := by
      rcases ({ link } : Transport).sent_send source (.appendResponse answer) with ⟨_, grown⟩ | ⟨_, same⟩
      · rw [grown] at isSent
        rw [List.mem_singleton.mp isSent]
      · rw [same] at isSent
        cases isSent
    rw [content]
    intro ok
    obtain ⟨term, current, head, front⟩ := accepted ok
    have inTerm : msg.term = answer.term := by
      rw [term]
      exact Nat.le_antisymm (reached.trans (Nat.le_of_eq settled.symm)) current
    rw [inTerm, ← kept.log] at front
    have covers := LogHistory.Covers.of_front inv.sound.logs front
      (kept.term.trans (settled.symm.trans term.symm))
    rw [kept.log, ← head] at covers
    exact covers

/-- **A follower hears an `AppendEntries`.** -/
theorem appendEntries (inv : Inv members campaign nodes inFlight) (member : id ∈ members)
    (sealed : Sealed members campaign (nodes id)) {source : NodeId} {msg : AppendEntries} {now : Millis}
    {link : Link} (warranted : msg.Warranted campaign.logs (Majority members))
    (noTail : (handling (nodes id) now (.appendEntries msg)).replicator.NoTail msg)
    (grows : campaign.Grows id campaign')
    (inv' : Inv members campaign' (Function.update nodes id
      ((nodes id).onMessage { link } source (.appendEntries msg) now).1) inFlight') :
    Seals members campaign' id ((nodes id).onMessage { link } source (.appendEntries msg) now) := by
  have kept := inv.kept id member
  have kept' := inv'.kept_update member
  have later := kept.term_le kept' grows
  have proclaims := (nodes id).election.onAppendEntries_proclaims msg.term msg.leaderId now
  have elected := sealed.elect kept.tracks proclaims grows.logs link
  have still := ((nodes id).elect_announces link proclaims).1
  have heard := (nodes id).election.onAppendEntries_heard msg.term msg.leaderId now
  have follows : Follows LogEntry.term campaign'.logs.lead (nodes id).replicator.log.entries :=
    (kept.log ▸ inv.sound.logs.follows id).mono grows.logs.lead
  obtain ⟨sameNode, quiet⟩ := (nodes id).elect_onAppendEntries { link } { link := {} } msg.term
    msg.leaderId now
  replace noTail : ((nodes id).elect { link := {} } ((nodes id).election.onAppendEntries msg.term
    msg.leaderId now)).1.syncTerm.replicator.NoTail msg := noTail
  rw [← (nodes id).election_elect { link }] at heard
  rw [← sameNode] at noTail
  unfold Node.onMessage at inv' kept' later ⊢
  simp only at inv' kept' later ⊢
  generalize (nodes id).elect { link } _ = result at *
  obtain ⟨next, net⟩ := result
  simp only at *
  obtain rfl := quiet
  have synced := still.trans (.setTerm next.replicator next.election.currentTerm)
  have sameRole := next.syncTerm.replicator.role_onMessage { link } source (.appendEntries msg)
  obtain ⟨raised, points⟩ := elected fun leading => kept'.tracks.mp (sameRole.trans leading)
  have reached : msg.term ≤ next.election.currentTerm := heard.elim Nat.le_of_lt fun settled =>
    Nat.le_of_eq settled.2.symm
  have sealed' : Sealed members campaign' next.syncTerm :=
    sealed.of_still grows.logs later raised synced points
  exact sealed'.receive member (synced.log.symm ▸ kept.whole) (synced.log.symm ▸ follows) rfl
    (warranted.mono grows.logs) reached noTail inv'

/-- **What a leader counts half of the members for is decided.** -/
theorem decides (sealed : Sealed members campaign node) (kept : Kept members campaign id node)
    (sound : campaign.logs.Sound LogEntry.term) (distinct : members.Nodup)
    (leads : node.election.role = .leader)
    (written : node.replicator.log.entries = campaign.logs.lead node.election.currentTerm) {seq : Nat}
    (positive : 0 < seq) (ownTerm : node.replicator.log.termAt seq = some node.replicator.term)
    (half : members.length ≤ 2 * (members.filter fun id => id ∈ node.replicator.holders seq).length) :
    LogHistory.Decided LogEntry.term (Majority members) campaign.logs node.election.currentTerm
      (node.replicator.log.entries.take seq) := by
  obtain ⟨k, rfl⟩ := Nat.exists_eq_succ_of_ne_zero (Nat.ne_of_gt positive)
  have inside := kept.whole.retains.le_of_termAt ownTerm
  have inside' : k < (campaign.logs.lead node.election.currentTerm).length := written ▸ inside
  have own : (campaign.logs.lead node.election.currentTerm)[k].term = node.election.currentTerm := by
    rw [kept.whole.termAt_eq inside, Option.some_inj, kept.inTerm leads] at ownTerm
    simp only [written] at ownTerm
    exact ownTerm
  have meets : ∀ voters, Majority members voters →
      ∃ holder ∈ members.filter fun id => id ∈ node.replicator.holders (k + 1), holder ∈ voters := by
    intro voters majority
    have large := majority.large
    rw [Nat.succ_eq_add_one] at half
    exact exists_common (distinct.filter _) majority.nodup (List.filter_subset_self _) majority.subset (by omega)
  have covered : ∀ other ∈ members.filter fun id => id ∈ node.replicator.holders (k + 1),
      LogHistory.Covers LogEntry.term campaign.logs node.election.currentTerm other (k + 1) := by
    intro other isHolder
    have counted : other ∈ node.replicator.holders (k + 1) :=
      of_decide_eq_true (List.mem_filter.mp isHolder).2
    have supported : other ∈ node.replicator.supporters (k + 1) →
        LogHistory.Covers LogEntry.term campaign.logs node.election.currentTerm other (k + 1) := by
      intro supports
      obtain ⟨backup, found, enough⟩ := Replicator.mem_supporters.mp supports
      exact (sealed.points (kept.tracks.mpr leads) other backup found).of_le enough
    unfold Replicator.holders at counted
    split_ifs at counted
    · rcases List.mem_cons.mp counted with same | supports
      · rw [same, kept.name]
        have front : campaign.logs.log id <+: campaign.logs.lead node.election.currentTerm := by
          rw [kept.log, written]
        refine (LogHistory.Covers.of_front sound front kept.term).of_le ?_
        rw [kept.log]
        exact inside
      · exact supported supports
    · exact supported counted
  refine Or.inr ⟨node.election.currentTerm, k, Nat.le_refl _, ?_, ?_⟩
  · exact LogHistory.Covers.chosen meets inside' own covered
  · rw [written]

/-- **The commit point moves** to a front that is decided. -/
theorem advance (sealed : Sealed members campaign node) (whole : node.replicator.log.Whole)
    (stats : ReplicationStats)
    (enough : node.replicator.role = .primary →
      node.replicator.commitIndex < node.replicator.commitCandidate →
        node.replicator.log.termAt node.replicator.commitCandidate = some node.replicator.term →
          LogHistory.Decided LogEntry.term (Majority members) campaign.logs node.election.currentTerm
            (node.replicator.log.entries.take node.replicator.commitCandidate)) :
    Sealed members campaign
      { node with replicator := { node.replicator.advanceCommitIndex with stats } } := by
  obtain ⟨_, _, _, _, _, _, advanced⟩ := node.replicator.advanceCommitIndex_frame
  have commits := sealed.commits.advanceCommitIndex whole enough
  generalize node.replicator.advanceCommitIndex = rep at advanced commits
  refine ⟨sealed.raised, ?_, ?_, { commits with }, ?_⟩
  · rw [advanced]
    exact sealed.signed
  · rw [advanced]
    exact sealed.notAlone
  · rw [advanced]
    exact sealed.points

/-- **The replicator handles a response**: what the response claims, its sender has accepted, and what is then
committed is decided. -/
theorem respond (sealed : Sealed members campaign node) (member : id ∈ members) (distinct : members.Nodup)
    {msg : AppendResponse} {link : Link} {source : NodeId}
    (settled : node.replicator.term = node.election.currentTerm)
    (warranted : msg.Warranted campaign.logs source)
    (vouched : ReplicatorCluster.VouchedDelivery node.replicator link source (.appendResponse msg))
    (counted : Counted members node.replicator source (.appendResponse msg))
    (inv : Inv members campaign (Function.update nodes id
      { node with replicator := (node.replicator.handleAppendResponse { link } source msg).1 }) inFlight) :
    Seals members campaign id
      ({ node with replicator := (node.replicator.handleAppendResponse { link } source msg).1 },
        (node.replicator.handleAppendResponse { link } source msg).2) := by
  have office : node.replicator.role = .primary ∨
      (node.replicator.handleAppendResponse { link } source msg).2.sent = [] := by
    by_cases leading : node.replicator.role = .primary
    · exact Or.inl leading
    · exact Or.inr (Replicator.handleAppendResponse_silent leading vouched.1)
  have kept := inv.kept_update member
  rcases node.replicator.handleAppendResponse_cases { link } source msg with
    ⟨_, sends, _⟩ | ⟨current, stats, sends, _⟩
  · exact sealed.sends member inv sends (fun _ isSent => nomatch isSent) office
  have noted : Sealed members campaign { node with replicator := node.replicator.noted source msg } := by
    refine sealed.of_still (.refl _) (Nat.le_refl _) sealed.raised ⟨rfl, rfl, rfl, rfl⟩ fun leading => ?_
    have files := sealed.points leading
    refine files.insert ?_
    show LogHistory.Covers _ _ _ source (if msg.ok then msg.lastLogSeq else _)
    split_ifs with ok
    · rcases vouched.2 leading ok with inTerm | known
      · have sameTerm := Nat.le_antisymm current inTerm
        rw [← settled, ← sameTerm]
        exact warranted ok
      · exact (files.getD .zero rfl).of_le known
    · exact files.getD .zero rfl
  have steady := node.replicator.handleAppendResponse_steady link source msg
  have keptNoted : Kept members campaign id { node with replicator := node.replicator.noted source msg } :=
    { kept with
      name := by
        obtain ⟨_, _, _, _, _, _, advanced⟩ := (node.replicator.noted source msg).advanceCommitIndex_frame
        have sameSelf : _ = (node.replicator.noteResponse source msg).self := congrArg (·.self) sends.frame
        rw [Replicator.noteResponse, advanced] at sameSelf
        exact sameSelf.symm.trans kept.name
      whole := steady.log ▸ kept.whole
      log := kept.log.trans (congrArg (·.entries) steady.log)
      tracks := (iff_of_eq (congrArg (· = Role.primary) steady.role)).symm.trans kept.tracks
      inTerm := fun _ => settled }
  have sealed' := noted.advance keptNoted.whole stats fun leading more ownTerm => by
    have leads := keptNoted.tracks.mp leading
    have written := (inv.office_update member leads).2
    have moved := (node.replicator.noted source msg).commitIndex_advanceCommitIndex
    rw [if_pos ⟨leading, more, ownTerm⟩] at moved
    refine noted.decides keptNoted inv.sound.logs distinct leads ?_ (Nat.zero_lt_of_lt more) ownTerm ?_
    · exact (congrArg (·.entries) steady.log).symm.trans written
    · have half := counted (more.trans_eq moved.symm)
      rw [Replicator.noteResponse, moved] at half
      exact half
  refine sealed'.sends member inv sends (fun _ isSent => nomatch isSent) (office.imp_left fun leading => ?_)
  obtain ⟨_, _, _, _, _, _, advanced⟩ := (node.replicator.noted source msg).advanceCommitIndex_frame
  show ((node.replicator.noted source msg).advanceCommitIndex).role = .primary
  rw [advanced]
  exact leading

/-- **A node hears an `AppendResponse`.** -/
theorem appendResponse (inv : Inv members campaign nodes inFlight) (member : id ∈ members)
    (distinct : members.Nodup) (sealed : Sealed members campaign (nodes id)) {source : NodeId}
    {msg : AppendResponse} {now : Millis} {link : Link} (warranted : msg.Warranted campaign.logs source)
    (vouched : ReplicatorCluster.VouchedDelivery (hearing (nodes id) msg now).replicator link source
      (.appendResponse msg))
    (counted : Counted members (hearing (nodes id) msg now).replicator source (.appendResponse msg))
    (grows : campaign.Grows id campaign')
    (inv' : Inv members campaign' (Function.update nodes id
      ((nodes id).onMessage { link } source (.appendResponse msg) now).1) inFlight') :
    Seals members campaign' id ((nodes id).onMessage { link } source (.appendResponse msg) now) := by
  have kept := inv.kept id member
  have kept' := inv'.kept_update member
  have later := kept.term_le kept' grows
  have proclaims := (nodes id).election.onAppendResponse_proclaims msg.term now
  have elected := sealed.elect kept.tracks proclaims grows.logs link
  have still := ((nodes id).elect_announces link proclaims).1
  obtain ⟨sameNode, quiet⟩ := (nodes id).elect_onAppendResponse { link } { link := {} } msg.term now
  unfold hearing at vouched counted
  rw [← sameNode] at vouched counted
  unfold Node.onMessage at inv' kept' later ⊢
  simp only at inv' kept' later ⊢
  generalize (nodes id).elect { link } _ = result at *
  obtain ⟨next, net⟩ := result
  simp only at *
  obtain rfl := quiet
  have synced := still.trans (.setTerm next.replicator next.election.currentTerm)
  have sameRole := next.syncTerm.replicator.role_onMessage { link } source (.appendResponse msg)
  obtain ⟨raised, points⟩ := elected fun leading => kept'.tracks.mp (sameRole.trans leading)
  have sealed' : Sealed members campaign' next.syncTerm :=
    sealed.of_still grows.logs later raised synced points
  exact sealed'.respond member distinct rfl (warranted.mono grows.logs) vouched counted inv'

end Events

end Sealed

/-! ### Whole runs -/

/-- The invariant of leader completeness, sealed nodes and warranted messages. -/
structure CommitInvariant (members : List NodeId) (campaign : Campaign NodeId LogEntry)
    (cluster : NodeCluster) : Prop where
  sameMembers : cluster.members = members
  inv : Inv members campaign cluster.nodes cluster.inFlight
  sealed : ∀ id ∈ members, Sealed members campaign (cluster.nodes id)
  warrants : ∀ envelope ∈ cluster.inFlight, Warrants members campaign envelope.source envelope.message

namespace CommitInvariant

variable {cluster : NodeCluster}

/-- **A node's move keeps the invariant.** -/
theorem act (inv : CommitInvariant members campaign cluster) {result : Node × Transport}
    (moved : Moved members campaign cluster.nodes cluster.inFlight id result)
    (seals : ∀ campaign' inFlight', campaign.Grows id campaign' →
      Inv members campaign' (Function.update cluster.nodes id result.1) inFlight' →
        Seals members campaign' id result) :
    ∃ campaign', CommitInvariant members campaign' (cluster.act id result) := by
  obtain ⟨campaign', grows, next, _⟩ := moved
  obtain ⟨sealed, warrants⟩ := seals campaign' _ grows next
  refine ⟨campaign', inv.sameMembers, next, fun other member => ?_, fun envelope isMessage => ?_⟩
  · show Sealed members campaign' (Function.update cluster.nodes id result.1 other)
    by_cases same : other = id
    · rw [same, Function.update_self]
      exact sealed
    · rw [Function.update_of_ne same]
      exact (inv.sealed other member).mono grows.logs
  · rcases List.mem_append.mp isMessage with old | new
    · exact (inv.warrants envelope old).mono grows.logs
    · obtain ⟨message, isSent, rfl⟩ := List.mem_map.mp new
      exact warrants message isSent

/-- Losing messages, or seeing them twice. -/
theorem reshuffle (inv : CommitInvariant members campaign cluster) {inFlight : List Envelope}
    (known : inFlight ⊆ cluster.inFlight) : CommitInvariant members campaign { cluster with inFlight } :=
  { inv with
    inv := inv.inv.reshuffle known
    warrants := fun envelope isMessage => inv.warrants envelope (known isMessage) }

/-- **A message is delivered.** -/
theorem message (inv : CommitInvariant members campaign cluster) (distinct : members.Nodup)
    (member : id ∈ members) {source : NodeId} {msg : Message} {now : Millis} {link : Link}
    (warranted : Warrants members campaign source msg)
    (vouched : ReplicatorCluster.VouchedDelivery (handling (cluster.nodes id) now msg).replicator link source
      msg)
    (counted : Counted members (handling (cluster.nodes id) now msg).replicator source msg)
    {inFlight' : List Envelope} (grows : campaign.Grows id campaign')
    (inv' : Inv members campaign' (Function.update cluster.nodes id
      ((cluster.nodes id).onMessage { link } source msg now).1) inFlight') :
    Seals members campaign' id ((cluster.nodes id).onMessage { link } source msg now) := by
  have sealed := inv.sealed id member
  cases msg with
  | requestVote rv =>
    have proclaims := (((cluster.nodes id).election.setLastLogSeq
      (cluster.nodes id).replicator.log.lastSeq).onRequestVote_proclaims rv now).of_setLastLogSeq
    exact sealed.elected inv.inv member proclaims link grows inv'
  | voteResponse vr =>
    have proclaims := (cluster.nodes id).election.onVoteResponse_proclaims sealed.raised vr now
    exact sealed.elected inv.inv member proclaims link grows inv'
  | appendEntries ae => exact sealed.appendEntries inv.inv member warranted vouched.2 grows inv'
  | appendResponse ar =>
    exact sealed.appendResponse inv.inv member distinct warranted vouched counted grows inv'
  | hello msg => exact sealed.idle member link grows.logs inv'
  | heartbeat msg => exact sealed.idle member link grows.logs inv'
  | commandForward msg => exact sealed.idle member link grows.logs inv'
  | eventAck msg => exact sealed.idle member link grows.logs inv'

/-- **Every sober step keeps the invariant.** -/
theorem step (inv : CommitInvariant members campaign cluster) (distinct : members.Nodup) {label : Label}
    {next : NodeCluster} (sober : cluster.Sober label) (enabled : cluster.step label = some next) :
    ∃ campaign', CommitInvariant members campaign' next := by
  obtain ⟨careful, heard⟩ := sober
  cases label with
  | tick id now link =>
    obtain ⟨member, moved⟩ := Option.ite_none_right_eq_some.mp enabled
    obtain rfl := Option.some.inj moved
    rw [inv.sameMembers] at member
    exact inv.act (inv.inv.tick member careful now link) fun _ _ grows inv' =>
      (inv.sealed id member).tick inv.inv member careful now link grows inv'
  | submit id cmd link =>
    obtain ⟨member, moved⟩ := Option.ite_none_right_eq_some.mp enabled
    obtain rfl := Option.some.inj moved
    rw [inv.sameMembers] at member
    exact inv.act (inv.inv.submit member cmd link) fun _ _ grows inv' =>
      (inv.sealed id member).submit inv.inv member cmd link grows inv'
  | peerUp id peer link =>
    obtain ⟨⟨member, _⟩, moved⟩ := Option.ite_none_right_eq_some.mp enabled
    obtain rfl := Option.some.inj moved
    rw [inv.sameMembers] at member
    exact inv.act (inv.inv.peerUp member peer link) fun _ _ grows inv' =>
      (inv.sealed id member).peerUp member peer link grows inv'
  | peerDown id peer =>
    obtain ⟨member, moved⟩ := Option.ite_none_right_eq_some.mp enabled
    obtain rfl := Option.some.inj moved
    rw [inv.sameMembers] at member
    exact inv.act (inv.inv.peerDown member peer) fun _ _ grows inv' =>
      (inv.sealed id member).peerDown member peer grows inv'
  | deliver index now link =>
    obtain ⟨envelope, found, enabled'⟩ := Option.bind_eq_some_iff.mp enabled
    obtain ⟨member, moved⟩ := Option.ite_none_right_eq_some.mp enabled'
    obtain rfl := Option.some.inj moved
    rw [inv.sameMembers] at member
    have isMessage := List.mem_of_getElem? found
    obtain ⟨keepsOffice, asked⟩ := careful envelope found
    obtain ⟨vouched, counted⟩ := heard envelope found
    have removed : CommitInvariant members campaign
        { cluster with inFlight := cluster.inFlight.eraseIdx index } :=
      inv.reshuffle List.eraseIdx_subset
    have kept := inv.inv.kept _ member
    refine removed.act (removed.inv.message member (inv.inv.messages envelope isMessage) keepsOffice
      (fun rv content granted standing inTerm => ?_) fun ar content => ?_) fun _ _ grows inv' =>
        removed.message distinct member (inv.warrants envelope isMessage) vouched
          (inv.sameMembers ▸ counted) grows inv'
    · rw [content] at asked
      have candidate := inv.inv.kept _ standing.1
      rw [kept.log, candidate.log]
      exact asked granted (inv.sameMembers.symm ▸ standing.1) standing.2 (candidate.term.symm.trans inTerm)
    · rw [content] at asked
      exact asked
  | duplicate index =>
    obtain ⟨envelope, found, rfl⟩ := Option.map_eq_some_iff.mp enabled
    have isMessage := List.mem_of_getElem? found
    refine ⟨campaign, inv.reshuffle (List.append_subset.mpr ⟨List.Subset.refl _, ?_⟩)⟩
    simpa using isMessage
  | lose index =>
    obtain ⟨_, moved⟩ := Option.ite_none_right_eq_some.mp enabled
    obtain rfl := Option.some.inj moved
    exact ⟨campaign, inv.reshuffle List.eraseIdx_subset⟩

end CommitInvariant

theorem commitInvariant_create {members : List NodeId} (distinct : members.Nodup)
    (modes : NodeId → ReplicationMode) (windows : NodeId → Nat) :
    CommitInvariant members .fresh (create members modes windows) where
  sameMembers := rfl
  inv := (invariant_create distinct modes windows).inv
  sealed id _ :=
    { raised := Election.raised_of_follower (Election.resetElectionTimer_same _ 0).role
      signed := fun _ isEntry => nomatch isEntry
      notAlone := Nat.succ_ne_self 1
      commits := ⟨Nat.zero_le _, Or.inl rfl, fun _ isApplied => nomatch isApplied⟩
      points := fun leading => by cases leading }
  warrants _ isMessage := nomatch isMessage

/-- In a run of sober steps the invariant holds. -/
theorem commitInvariant_run {members : List NodeId} (distinct : members.Nodup)
    (modes : NodeId → ReplicationMode) (windows : NodeId → Nat) (labels : List Label)
    {cluster : NodeCluster} (sober : Guarded step Sober (create members modes windows) labels)
    (ran : run step (create members modes windows) labels = some cluster) :
    ∃ campaign, CommitInvariant members campaign cluster :=
  run_invariant (fun cluster => ∃ campaign, CommitInvariant members campaign cluster)
    (fun ⟨_, holds⟩ guarded enabled => holds.step distinct guarded enabled)
    ⟨_, commitInvariant_create distinct modes windows⟩ sober ran

/-! ### What follows -/

/-- No two members have committed different entries at one sequence number. -/
def CommittedAlike (cluster : NodeCluster) : Prop :=
  ∀ id ∈ cluster.members, ∀ other ∈ cluster.members,
    ∀ seq ≤ (cluster.nodes id).replicator.commitIndex, seq ≤ (cluster.nodes other).replicator.commitIndex →
      (cluster.nodes id).replicator.log.at? seq = (cluster.nodes other).replicator.log.at? seq

/-- A leader in office has every entry that a member of no later term has committed. -/
def LeadersHaveCommitted (cluster : NodeCluster) : Prop :=
  ∀ leader ∈ cluster.leaders, ∀ id ∈ cluster.members,
    (cluster.nodes id).election.currentTerm ≤ (cluster.nodes leader).election.currentTerm →
      ∀ seq ≤ (cluster.nodes id).replicator.commitIndex,
        (cluster.nodes leader).replicator.log.at? seq = (cluster.nodes id).replicator.log.at? seq

/-- **Committed entries agree**, in every run of sober steps. -/
theorem committed_alike {members : List NodeId} (distinct : members.Nodup)
    (modes : NodeId → ReplicationMode) (windows : NodeId → Nat) (labels : List Label)
    {cluster : NodeCluster} (sober : Guarded step Sober (create members modes windows) labels)
    (ran : run step (create members modes windows) labels = some cluster) : cluster.CommittedAlike := by
  obtain ⟨campaign, inv⟩ := commitInvariant_run distinct modes windows labels sober ran
  intro id member other member' seq committed committed'
  rw [inv.sameMembers] at member member'
  have kept := inv.inv.kept id member
  have kept' := inv.inv.kept other member'
  have commits := (inv.sealed id member).commits
  have commits' := (inv.sealed other member').commits
  have sound := inv.inv.sound
  cases seq with
  | zero => rw [kept.whole.at?_zero, kept'.whole.at?_zero]
  | succ k =>
    have inside := committed.trans commits.inside
    have inside' := committed'.trans commits'.inside
    rw [kept.whole.at?_succ, kept'.whole.at?_succ, List.getElem?_eq_getElem inside,
      List.getElem?_eq_getElem inside', Option.some_inj]
    refine commits.committed.agree sound.logs sound.elected commits'.committed (k := k) ?_ ?_
    · rw [List.getElem?_take_of_lt committed]
      exact List.getElem?_eq_getElem inside
    · rw [List.getElem?_take_of_lt committed']
      exact List.getElem?_eq_getElem inside'

/-- Node 1 leads term 1 and commits a command with node 2, which hears of it and then leads term 2 with the
vote of node 3. -/
def handover : List Label :=
  [.tick 1 1000 {}, .deliver 0 1001 {}, .deliver 1 1002 cutOff, .lose 0, .peerUp 1 2 {},
    .deliver 0 1003 {}, .deliver 0 1004 {}, .submit 1 (ReplicatorCluster.restingSell 1) {},
    .deliver 0 1005 {}, .deliver 0 1006 {}, .deliver 0 1007 {}, .lose 0, .tick 2 2000 {},
    .deliver 1 2001 {}, .deliver 1 2002 cutOff]

theorem committed_alike_handover :
    ∃ cluster, run step threeNodes handover = some cluster ∧ cluster.CommittedAlike ∧
      [1, 2, 3].map (fun id => (cluster.nodes id).replicator.commitIndex) = [1, 1, 0] :=
  have ran : run step threeNodes handover =
      some ((run step threeNodes handover).get (by decide +kernel)) := (Option.some_get _).symm
  ⟨_, ran, committed_alike (by decide) (fun _ => .asynchronous) (fun _ => 8) handover
    (by decide +kernel) ran, by decide +kernel⟩

/-- **Committed entries survive**, in every run of sober steps. -/
theorem leaders_have_committed {members : List NodeId} (distinct : members.Nodup)
    (modes : NodeId → ReplicationMode) (windows : NodeId → Nat) (labels : List Label)
    {cluster : NodeCluster} (sober : Guarded step Sober (create members modes windows) labels)
    (ran : run step (create members modes windows) labels = some cluster) :
    cluster.LeadersHaveCommitted := by
  obtain ⟨campaign, inv⟩ := commitInvariant_run distinct modes windows labels sober ran
  intro leader isLeader id member later seq committed
  obtain ⟨member', leads⟩ := List.mem_filter.mp isLeader
  rw [inv.sameMembers] at member member'
  have kept := inv.inv.kept id member
  have kept' := inv.inv.kept leader member'
  have commits := (inv.sealed id member).commits
  have sound := inv.inv.sound
  obtain ⟨_, led, written⟩ := inv.inv.office member' (of_decide_eq_true leads)
  have front := commits.committed.front_lead sound.logs sound.elected led later
  rw [← written] at front
  cases seq with
  | zero => rw [kept'.whole.at?_zero, kept.whole.at?_zero]
  | succ k =>
    have inside := committed.trans commits.inside
    have short : k < ((cluster.nodes id).replicator.log.entries.take
        (cluster.nodes id).replicator.commitIndex).length := by
      rw [List.length_take]
      omega
    rw [kept'.whole.at?_succ, kept.whole.at?_succ, getElem_of_front front short, List.getElem_take]
    exact (List.getElem?_eq_getElem inside).symm

/-- Node 2 leads term 2 with what node 1 has committed in term 1. -/
theorem leaders_have_committed_handover :
    ∃ cluster, run step threeNodes handover = some cluster ∧ cluster.LeadersHaveCommitted ∧
      cluster.leaders = [1, 2] ∧ (cluster.nodes 1).election.currentTerm = 1 ∧
      (cluster.nodes 2).election.currentTerm = 2 ∧ (cluster.nodes 1).replicator.commitIndex = 1 :=
  have ran : run step threeNodes handover =
      some ((run step threeNodes handover).get (by decide +kernel)) := (Option.some_get _).symm
  ⟨_, ran, leaders_have_committed (by decide) (fun _ => .asynchronous) (fun _ => 8) handover
    (by decide +kernel) ran, by decide +kernel, by decide +kernel, by decide +kernel, by decide +kernel⟩

end NodeCluster

end Sententia
