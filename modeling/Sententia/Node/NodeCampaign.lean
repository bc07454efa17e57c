/-
**A cluster of node programs as a campaign.** `Kept` ties a node to the votes of the cluster and the history
of its logs, `Truthful` a message in flight; `Inv` says both of a whole cluster.

An event is a step of the election with what `runActions` makes of it (`Inv.elect`), followed by a step of the
replicator: it sends (`Inv.sends`), a leader accepts a command (`Inv.accept`), a follower receives entries
(`Inv.receive`). `Inv.tick`, `Inv.submit`, `Inv.message` put the events together.
-/

import Sententia.Consensus.ElectionCampaign
import Sententia.Node.NodeCluster
import Sententia.Replication.ReplicaHistory

namespace Sententia

open Library

theorem Replicator.AppendOf.leaderId {rep : Replicator} {msg : AppendEntries} (built : rep.AppendOf msg) :
    msg.leaderId = rep.self := by
  cases built <;> rfl

/-- A stale message, or one without entries, leaves the log of the follower as it is. -/
theorem Replicator.handleAppendEntries_unheard {rep : Replicator} {msg : AppendEntries}
    (unheard : msg.term < rep.term ∨ msg.entries = []) (net : Transport) (source : NodeId) :
    (rep.handleAppendEntries net source msg).1.log = rep.log ∧
      ∃ answer, (rep.handleAppendEntries net source msg).2 =
        (net.send source (.appendResponse answer)).1 := by
  unfold handleAppendEntries
  split_ifs with stale
  · exact ⟨rfl, _, rfl⟩
  · cases rep.log.termAt msg.prevSeq with
    | none => exact ⟨rfl, _, rfl⟩
    | some prevTerm =>
      simp only
      split_ifs
      · exact ⟨rfl, _, rfl⟩
      · have nothing : rep.appendRecords msg.entries = (rep, true) := by
          rw [unheard.resolve_left stale]
          rfl
        obtain ⟨_, _, _, _, _, settled⟩ := rep.settle_frame msg.commitSeq
        rw [nothing]
        simp only [settled]
        exact ⟨trivial, _, rfl⟩

namespace Node

/-! ### Performing the actions -/

/-- What a node sends for an action. -/
def Says (self : NodeId) : Action → NodeId × Message → Prop
  | .sendRequestVote target term lastLogSeq, message =>
    message = (target, .requestVote { term, candidateId := self, lastLogSeq })
  | .sendVoteResponse target term granted, message =>
    message = (target, .voteResponse { term, voterId := self, granted })
  | .sendHeartbeat target term, message => ∃ prevSeq commitSeq,
    message = (target, .appendEntries { term, leaderId := self, prevSeq, commitSeq })
  | _, _ => False

/-- The node sends a slice of its log in a term. -/
def Leads (rep : Replicator) (term : Nat) (message : NodeId × Message) : Prop :=
  ∃ (speaker : Replicator) (append : AppendEntries), speaker.log = rep.log ∧ speaker.self = rep.self ∧
    speaker.term = term ∧ message.2 = .appendEntries append ∧ speaker.AppendOf append

/-- Greeting the peers that are ready sends. -/
theorem greetReady_sends (peers : List NodeId) {rep : Replicator} (leading : rep.role = .primary)
    (net : Transport) :
    let result := peers.foldl (fun (rep, net) peer =>
      if net.isReady peer then rep.onPeerUp net peer else (rep, net)) (rep, net)
    result.1.core = rep.core ∧ ∀ message ∈ result.2.sent, message ∈ net.sent ∨
      ∃ append, message.2 = .appendEntries append ∧ rep.AppendOf append := by
  induction peers generalizing rep net with
  | nil => exact ⟨rfl, fun _ => Or.inl⟩
  | cons peer rest ih =>
    have once : ∀ ready : Bool,
        (if ready then rep.onPeerUp net peer else (rep, net)).1.core = rep.core ∧
          ∀ message ∈ (if ready then rep.onPeerUp net peer else (rep, net)).2.sent,
            message ∈ net.sent ∨ ∃ append, message.2 = .appendEntries append ∧ rep.AppendOf append := by
      intro ready
      cases ready with
      | false => exact ⟨rfl, fun _ => Or.inl⟩
      | true =>
        have sends := Replicator.onPeerUp_sends leading net peer
        have sameCore : (rep.greet peer).core = rep.core := rfl
        refine ⟨sends.frame, fun message isSent => ?_⟩
        exact (sends.sent message isSent).imp_right fun ⟨append, content, built, _⟩ =>
          ⟨append, content, built.of_core sameCore⟩
    obtain ⟨frame, sent⟩ := once (net.isReady peer)
    have leading' : (if net.isReady peer then rep.onPeerUp net peer else (rep, net)).1.role = .primary :=
      (congrArg (·.role) frame).trans leading
    obtain ⟨frame', sent'⟩ := ih leading'
      (if net.isReady peer then rep.onPeerUp net peer else (rep, net)).2
    refine ⟨frame'.trans frame, fun message isSent => ?_⟩
    rcases sent' message isSent with earlier | ⟨append, content, built⟩
    · exact sent message earlier
    · exact Or.inr ⟨append, content, built.of_core frame⟩

/-- What performing actions makes of a node. -/
structure Performs (node : Node) (net : Transport) (actions : ActionList) (node' : Node)
    (net' : Transport) : Prop where
  election : node'.election = node.election
  log : node'.replicator.log = node.replicator.log
  self : node'.replicator.self = node.replicator.self
  term : node'.replicator.term = actions.foldl Election.noticeTerm node.replicator.term
  sent : ∀ message ∈ net'.sent, message ∈ net.sent ∨
    (∃ action ∈ actions, Says node.election.self action message) ∨
      ∃ term, .becameLeader term ∈ actions ∧ Leads node.replicator term message

theorem runAction_performs (node : Node) (net : Transport) (action : Action) :
    Performs node net [action] (node.runAction net action).1 (node.runAction net action).2 := by
  have spoken : ∀ target message, Says node.election.self action (target, message) →
      ∀ sent ∈ (net.send target message).1.sent, sent ∈ net.sent ∨
        (∃ action' ∈ [action], Says node.election.self action' sent) ∨
          ∃ term, .becameLeader term ∈ [action] ∧ Leads node.replicator term sent := by
    intro target message spoken sent isSent
    rcases net.sent_send target message with ⟨_, grown⟩ | ⟨_, same⟩
    · rw [grown, List.mem_append, List.mem_singleton] at isSent
      refine isSent.imp_right fun new => Or.inl ⟨action, List.mem_singleton_self _, ?_⟩
      rw [new]
      exact spoken
    · rw [same] at isSent
      exact Or.inl isSent
  cases action with
  | sendRequestVote target term lastLogSeq => exact ⟨rfl, rfl, rfl, rfl, spoken _ _ rfl⟩
  | sendVoteResponse target term granted => exact ⟨rfl, rfl, rfl, rfl, spoken _ _ rfl⟩
  | sendHeartbeat target term => exact ⟨rfl, rfl, rfl, rfl, spoken _ _ ⟨_, _, rfl⟩⟩
  | steppedDown term =>
    obtain ⟨_, _, changed⟩ := (node.replicator.setTerm term).setRole_frame .backup
    have moved : (node.runAction net (.steppedDown term)).1.replicator = _ := changed
    refine ⟨rfl, ?_, ?_, ?_, fun _ => Or.inl⟩ <;> · rw [moved]; rfl
  | becameLeader term =>
    have made : ∀ rep, rep = (node.replicator.setTerm term).setRole .primary →
        rep.log = node.replicator.log ∧ rep.self = node.replicator.self ∧ rep.term = term := by
      obtain ⟨_, _, changed⟩ := (node.replicator.setTerm term).setRole_frame .primary
      rintro rep rfl
      rw [changed]
      exact ⟨rfl, rfl, rfl⟩
    obtain ⟨log, self, ownTerm⟩ := made _ rfl
    obtain ⟨frame, sent⟩ := greetReady_sends node.peerIds
      ((node.replicator.setTerm term).role_setRole .primary) net
    refine ⟨rfl, (congrArg (·.log) frame).trans log, (congrArg (·.self) frame).trans self,
      (congrArg (·.term) frame).trans ownTerm, fun message isSent => ?_⟩
    exact (sent message isSent).imp_right fun ⟨append, content, built⟩ => Or.inr
      ⟨term, List.mem_singleton_self _, _, append, log, self, ownTerm, content, built⟩

/-- **`runActions`**, for whatever the election asked. -/
theorem runActions_performs (actions : ActionList) (node : Node) (net : Transport) :
    Performs node net actions (node.runActions net actions).1 (node.runActions net actions).2 := by
  induction actions generalizing node net with
  | nil => exact ⟨rfl, rfl, rfl, rfl, fun _ => Or.inl⟩
  | cons action rest ih =>
    have first := node.runAction_performs net action
    have second := ih (node.runAction net action).1 (node.runAction net action).2
    refine ⟨second.election.trans first.election, second.log.trans first.log,
      second.self.trans first.self, ?_, fun message isSent => ?_⟩
    · rw [List.foldl_cons]
      refine second.term.trans ?_
      rw [first.term]
      rfl
    · rcases second.sent message isSent with earlier | ⟨other, member, spoken⟩ | ⟨term, member, leads⟩
      · rcases first.sent message earlier with before | ⟨other, member, spoken⟩ | ⟨term, member, leads⟩
        · exact Or.inl before
        · rw [List.mem_singleton.mp member] at spoken
          exact Or.inr (Or.inl ⟨action, List.mem_cons_self, spoken⟩)
        · rw [← List.mem_singleton.mp member]
          exact Or.inr (Or.inr ⟨term, List.mem_cons_self, leads⟩)
      · rw [first.election] at spoken
        exact Or.inr (Or.inl ⟨other, List.mem_cons_of_mem _ member, spoken⟩)
      · obtain ⟨speaker, append, sameLog, sameSelf, rest⟩ := leads
        exact Or.inr (Or.inr ⟨term, List.mem_cons_of_mem _ member, speaker, append,
          sameLog.trans first.log, sameSelf.trans first.self, rest⟩)

theorem election_elect (node : Node) (net : Transport) (result : Election × ActionList) :
    (node.elect net result).1.election = result.1 :=
  election_runActions result.2 { node with election := result.1 } net

/-- Handling a response, the election sends nothing, over whatever link. -/
theorem elect_onAppendResponse (node : Node) (net net' : Transport) (term : Nat) (now : Millis) :
    (node.elect net (node.election.onAppendResponse term now)).1 =
        (node.elect net' (node.election.onAppendResponse term now)).1 ∧
      (node.elect net (node.election.onAppendResponse term now)).2 = net := by
  unfold Election.onAppendResponse
  generalize node.election.observeTerm term now = result
  obtain ⟨seen, higher⟩ := result
  cases higher with
  | true => exact ⟨rfl, rfl⟩
  | false => exact ⟨rfl, rfl⟩

end Node

namespace NodeCluster

variable {members : List NodeId} {campaign campaign' : Campaign NodeId LogEntry}
  {nodes : NodeId → Node} {inFlight : List Envelope} {id : NodeId} {node : Node}

/-! ### The refinement -/

/-- The members in a role. -/
def InRole (members : List NodeId) (nodes : NodeId → Node) (role : NodeRole) (id : NodeId) : Prop :=
  id ∈ members ∧ (nodes id).election.role = role

theorem inRole_update (member : id ∈ members) (node : Node) (role : NodeRole) :
    InRole members (Function.update nodes id node) role =
      Function.update (InRole members nodes role) id (node.election.role = role) := by
  funext any
  unfold InRole
  by_cases same : any = id
  · subst same
    rw [Function.update_self, Function.update_self]
    exact propext (and_iff_right member)
  · rw [Function.update_of_ne same, Function.update_of_ne same]

/-- What the replicator does changes nobody's role. -/
theorem inRole_replicator (member : id ∈ members) (replicator : Replicator) (role : NodeRole) :
    InRole members (Function.update nodes id { nodes id with replicator }) role =
      InRole members nodes role := by
  rw [inRole_update member]
  show Function.update (InRole members nodes role) id ((nodes id).election.role = role) = _
  rw [← inRole_update member, Function.update_eq_self]

/-- A node is what the campaign says of it. -/
structure Kept (members : List NodeId) (campaign : Campaign NodeId LogEntry) (id : NodeId) (node : Node) :
    Prop where
  self : node.election.self = id
  name : node.replicator.self = id
  recorded : node.election.Recorded campaign.votes members
  term : campaign.logs.term id = node.election.currentTerm
  whole : node.replicator.log.Whole
  log : campaign.logs.log id = node.replicator.log.entries
  tracks : node.Tracks
  inTerm : node.election.role = .leader → node.replicator.term = node.election.currentTerm

/-- The campaign bears a message in flight out. -/
def Truthful (members : List NodeId) (campaign : Campaign NodeId LogEntry) (target : NodeId) :
    Message → Prop
  | .requestVote msg => msg.term ≤ campaign.logs.term msg.candidateId
  | .voteResponse msg => msg.granted = true → msg.voterId ∈ members ∧
      campaign.votes.voted msg.voterId msg.term = some target
  | .appendEntries msg => campaign.votes.won msg.term msg.leaderId ∧
      (msg.entries ≠ [] → msg.Backed campaign.logs)
  | _ => True

structure Inv (members : List NodeId) (campaign : Campaign NodeId LogEntry) (nodes : NodeId → Node)
    (inFlight : List Envelope) : Prop where
  sound : campaign.Sound LogEntry.term members (InRole members nodes .candidate)
    (InRole members nodes .leader)
  kept : ∀ id ∈ members, Kept members campaign id (nodes id)
  messages : ∀ envelope ∈ inFlight, Truthful members campaign envelope.target envelope.message

theorem Kept.mono (kept : Kept members campaign id node) {other : NodeId}
    (grows : campaign.Grows other campaign') (different : id ≠ other) :
    Kept members campaign' id node :=
  { kept with
    recorded := kept.recorded.mono grows.votes (by rw [kept.self]; exact different)
    term := (grows.others different).1.trans kept.term
    log := (grows.others different).2.trans kept.log }

theorem Truthful.mono {target : NodeId} {message : Message}
    (truthful : Truthful members campaign target message) (grows : campaign.Grows id campaign') :
    Truthful members campaign' target message := by
  cases message with
  | requestVote msg => exact Nat.le_trans truthful (grows.term _)
  | voteResponse msg => exact fun granted => ⟨(truthful granted).1, grows.votes.kept (truthful granted).2⟩
  | appendEntries msg =>
    exact ⟨grows.votes.won truthful.1, fun carries => (truthful.2 carries).mono grows.logs⟩
  | _ => trivial

namespace Inv

/-- **A node moves**, and the campaign grows with it. -/
theorem act {net net' : Transport} (inv : Inv members campaign nodes (inFlight ++ net.outgoing id))
    (member : id ∈ members) (grows : campaign.Grows id campaign')
    (sound : campaign'.Sound LogEntry.term members
      (InRole members (Function.update nodes id node) .candidate)
      (InRole members (Function.update nodes id node) .leader))
    (kept : Kept members campaign' id node)
    (sent : ∀ message ∈ net'.sent, message ∈ net.sent ∨
      Truthful members campaign' message.1 message.2) :
    Inv members campaign' (Function.update nodes id node) (inFlight ++ net'.outgoing id) where
  sound := sound
  kept other isMember := by
    by_cases same : other = id
    · subst same
      rw [Function.update_self]
      exact kept
    · rw [Function.update_of_ne same]
      exact (inv.kept other isMember).mono grows same
  messages envelope isMessage := by
    rcases List.mem_append.mp isMessage with old | new
    · exact (inv.messages envelope (List.mem_append_left _ old)).mono grows
    · obtain ⟨⟨target, content⟩, isSent, rfl⟩ := List.mem_map.mp new
      rcases sent _ isSent with before | truthful
      · have isOutgoing : ({ source := id, target, message := content } : Envelope) ∈ net.outgoing id :=
          List.mem_map.mpr ⟨_, before, rfl⟩
        exact (inv.messages _ (List.mem_append_right inFlight isOutgoing)).mono grows
      · exact truthful

/-- Losing messages, or seeing them twice. -/
theorem reshuffle (inv : Inv members campaign nodes inFlight) {inFlight' : List Envelope}
    (known : inFlight' ⊆ inFlight) : Inv members campaign nodes inFlight' :=
  { inv with messages := fun envelope isMessage => inv.messages envelope (known isMessage) }

/-- A step starts with nothing sent. -/
theorem outset (inv : Inv members campaign nodes inFlight) (link : Link) :
    Inv members campaign nodes (inFlight ++ ({ link } : Transport).outgoing id) := by
  have nothing : ({ link } : Transport).outgoing id = [] := rfl
  rw [nothing, List.append_nil]
  exact inv

/-- The election of a node is part of the campaign. -/
theorem campaigns (inv : Inv members campaign nodes inFlight) (member : id ∈ members) :
    (nodes id).election.Campaigns LogEntry.term members (InRole members nodes .candidate)
      (InRole members nodes .leader) campaign := by
  have kept := inv.kept id member
  refine ⟨kept.recorded, by rw [kept.self]; exact kept.term, ?_⟩
  rw [kept.self, ← inRole_update member, ← inRole_update member, Function.update_eq_self]
  exact inv.sound

/-- A leader's log is the log of its term. -/
theorem office (inv : Inv members campaign nodes inFlight) (member : id ∈ members)
    (leading : (nodes id).election.role = .leader) :
    campaign.votes.won (nodes id).election.currentTerm id ∧
      campaign.logs.led (nodes id).election.currentTerm ∧
        (nodes id).replicator.log.entries = campaign.logs.lead (nodes id).election.currentTerm := by
  obtain ⟨won, written⟩ := inv.sound.office ⟨member, leading⟩
  have kept := inv.kept id member
  rw [kept.term] at won written
  rw [kept.log] at written
  exact ⟨won, inv.sound.led.mpr ⟨id, won⟩, written⟩

/-- **The replicator moves**, its log stays. If it sends anything but responses, the node leads. -/
theorem replicate {net net' : Transport} (inv : Inv members campaign nodes (inFlight ++ net.outgoing id))
    (member : id ∈ members) {rep : Replicator} (log : rep.log = (nodes id).replicator.log)
    (self : rep.self = (nodes id).replicator.self) (role : rep.role = (nodes id).replicator.role)
    (term : (nodes id).election.role = .leader → rep.term = (nodes id).election.currentTerm)
    (sent : ∀ message ∈ net'.sent, message ∈ net.sent ∨ (∃ answer, message.2 = .appendResponse answer) ∨
      ((nodes id).election.role = .leader ∧ ∃ append, message.2 = .appendEntries append ∧
        rep.AppendOf append)) :
    Inv members campaign (Function.update nodes id { nodes id with replicator := rep })
      (inFlight ++ net'.outgoing id) := by
  have kept := inv.kept id member
  refine inv.act member (.refl _ _) ?_ ?_ fun message isSent => ?_
  · rw [inRole_replicator member, inRole_replicator member]
    exact inv.sound
  · exact
      { kept with
        name := self.trans kept.name
        whole := log ▸ kept.whole
        log := by
          rw [kept.log]
          exact congrArg CommandLog.entries log.symm
        tracks := ((nodes id).tracks_replicator role).mpr kept.tracks
        inTerm := term }
  · rcases sent message isSent with before | ⟨answer, content⟩ | ⟨leading, append, content, built⟩
    · exact Or.inl before
    · rw [content]
      exact Or.inr trivial
    · obtain ⟨won, led, written⟩ := inv.office member leading
      have ownTerm := term leading
      rw [content]
      refine Or.inr ⟨?_, fun _ => .of_appendOf built (log ▸ kept.whole) ?_ ?_⟩
      · rw [built.term, built.leaderId, ownTerm, self, kept.name]
        exact won
      · rw [ownTerm]
        exact led
      · rw [ownTerm, log]
        exact written

end Inv

/-- The node has moved, the campaign with it. A node that has come to lead starts its term with its log. -/
def Moved (members : List NodeId) (campaign : Campaign NodeId LogEntry) (nodes : NodeId → Node)
    (inFlight : List Envelope) (id : NodeId) (result : Node × Transport) : Prop :=
  ∃ campaign', campaign.Grows id campaign' ∧
    Inv members campaign' (Function.update nodes id result.1) (inFlight ++ result.2.outgoing id) ∧
      (result.1.election.role = .leader → (nodes id).election.role ≠ .leader →
        campaign'.logs.led result.1.election.currentTerm ∧
          campaign'.logs.base result.1.election.currentTerm = result.1.replicator.log.entries)

/-- A second move, of the replicator. -/
theorem Moved.andThen {net net' : Transport} (moved : Moved members campaign nodes inFlight id (node, net))
    {rep : Replicator} (log : node.election.role = .leader → rep.log = node.replicator.log)
    (next : ∀ campaign' nodes', campaign.Grows id campaign' → nodes' id = node →
      Inv members campaign' nodes' (inFlight ++ net.outgoing id) →
        ∃ campaign'', campaign'.Grows id campaign'' ∧
          Inv members campaign'' (Function.update nodes' id { node with replicator := rep })
            (inFlight ++ net'.outgoing id)) :
    Moved members campaign nodes inFlight id ({ node with replicator := rep }, net') := by
  obtain ⟨campaign', grows, inv, crowned⟩ := moved
  obtain ⟨campaign'', grows', inv'⟩ := next campaign' _ grows (Function.update_self _ _ _) inv
  rw [Function.update_idem] at inv'
  refine ⟨campaign'', grows.trans grows', inv', fun leading before => ?_⟩
  obtain ⟨led, started⟩ := crowned leading before
  show _ ∧ _ = rep.log.entries
  rw [log leading, ← started]
  exact ⟨grows'.logs.led led, grows'.logs.base led⟩

namespace Inv

/-- A move within the same campaign, of a node that does not come to lead. -/
theorem moved {result : Node × Transport}
    (inv : Inv members campaign (Function.update nodes id result.1) (inFlight ++ result.2.outgoing id))
    (election : result.1.election = (nodes id).election) :
    Moved members campaign nodes inFlight id result :=
  ⟨campaign, .refl _ _, inv, fun leading before => absurd (election ▸ leading) before⟩

/-- Nothing happens. -/
theorem idle (inv : Inv members campaign nodes inFlight) (id : NodeId) (link : Link) :
    Moved members campaign nodes inFlight id (nodes id, { link }) := by
  refine moved ?_ rfl
  rw [Function.update_eq_self]
  exact inv.outset link

/-- **The election moves and its actions are performed.** -/
theorem elect (inv : Inv members campaign nodes inFlight) (member : id ∈ members)
    {result : Election × ActionList}
    (carries : (nodes id).election.Carries LogEntry.term members (InRole members nodes .candidate)
      (InRole members nodes .leader) campaign result)
    (tells : (nodes id).election.Tells result) (link : Link) :
    Moved members campaign nodes inFlight id ((nodes id).elect { link } result) := by
  obtain ⟨campaign', moves, supported, leading⟩ := carries
  have kept := inv.kept id member
  have performs : Node.Performs { nodes id with election := result.1 } { link } result.2
      ((nodes id).elect { link } result).1 ((nodes id).elect { link } result).2 :=
    Node.runActions_performs _ _ _
  have tracks := (Node.tracks_elect_iff kept.tracks { link }).mpr tells
  have grows := moves.grows
  have self : result.1.self = id := moves.self.trans kept.self
  have sound := moves.campaigns.sound
  have ownTerm := moves.campaigns.term
  rw [kept.self] at supported leading grows
  rw [self] at sound ownTerm
  generalize (nodes id).elect { link } result = result' at performs tracks
  have elected : result'.1.election = result.1 := performs.election
  have log : result'.1.replicator.log = (nodes id).replicator.log := performs.log
  rw [← elected, ← inRole_update member, ← inRole_update member] at sound
  rw [← elected] at ownTerm leading self
  have inTerm : result'.1.election.role = .leader →
      result'.1.replicator.term = result'.1.election.currentTerm := by
    intro isLeader
    rw [performs.term]
    rcases leading isLeader with ⟨before, sameTerm, quiet⟩ | ⟨told, _⟩
    · exact (quiet _).trans ((kept.inTerm before).trans sameTerm.symm)
    · exact told _
  have written : campaign'.logs.log id = result'.1.replicator.log.entries := by
    rw [moves.log, kept.log, log]
  have next : Kept members campaign' id result'.1 :=
    { self := self
      name := performs.self.trans kept.name
      recorded := elected ▸ moves.campaigns.recorded
      term := ownTerm
      whole := log ▸ kept.whole
      log := written
      tracks := tracks
      inTerm := inTerm }
  refine ⟨campaign', grows, (inv.outset link).act member grows sound next fun message isSent => Or.inr ?_,
    fun isLeader before => ?_⟩
  · rcases performs.sent message isSent with before | ⟨action, isAction, spoken⟩ | ⟨term, isAction, leads⟩
    · cases before
    · have support := supported action isAction
      rw [show ({ nodes id with election := result.1 } : Node).election.self = id from
        moves.self.trans kept.self] at spoken
      cases action with
      | sendRequestVote target term lastLogSeq =>
        obtain rfl := spoken
        exact support
      | sendVoteResponse target term granted =>
        obtain rfl := spoken
        exact fun isGranted => ⟨member, support isGranted⟩
      | sendHeartbeat target term =>
        obtain ⟨_, _, rfl⟩ := spoken
        exact ⟨support, fun carries => absurd rfl carries⟩
      | becameLeader term => exact spoken.elim
      | steppedDown term => exact spoken.elim
    · obtain ⟨won, isLead⟩ := supported _ isAction
      obtain ⟨speaker, append, sameLog, sameSelf, rfl, content, built⟩ := leads
      have sameLog' : speaker.log = (nodes id).replicator.log := sameLog
      have sameSelf' : speaker.self = (nodes id).replicator.self := sameSelf
      rw [content]
      refine ⟨?_, fun _ => .of_appendOf built (sameLog' ▸ kept.whole) ?_ ?_⟩
      · rw [built.term, built.leaderId, sameSelf', kept.name]
        exact won
      · exact moves.campaigns.sound.led.mpr ⟨id, won⟩
      · rw [sameLog', ← log, ← written]
        exact isLead
  · rcases leading isLeader with ⟨already, _⟩ | ⟨_, led, started⟩
    · exact absurd already before
    · rw [log, ← kept.log]
      exact ⟨led, started⟩

/-- The replicator sends, as a leader if at all. -/
theorem sends {net net' : Transport} (inv : Inv members campaign nodes (inFlight ++ net.outgoing id))
    (member : id ∈ members) {middle rep : Replicator} (sends : middle.Sends net rep net')
    (log : middle.log = (nodes id).replicator.log) (self : middle.self = (nodes id).replicator.self)
    (role : middle.role = (nodes id).replicator.role)
    (term : (nodes id).election.role = .leader → middle.term = (nodes id).election.currentTerm)
    (office : (nodes id).election.role = .leader ∨ net'.sent = net.sent) :
    Inv members campaign (Function.update nodes id { nodes id with replicator := rep })
      (inFlight ++ net'.outgoing id) := by
  refine inv.replicate member ((congrArg (·.log) sends.frame).trans log)
    ((congrArg (·.self) sends.frame).trans self) ((congrArg (·.role) sends.frame).trans role)
    (fun leading => (congrArg (·.term) sends.frame).trans (term leading)) fun message isSent => ?_
  rcases office with leading | same
  · exact (sends.sent message isSent).imp_right fun ⟨append, content, built, _⟩ =>
      Or.inr ⟨leading, append, content, built.of_core sends.frame.symm⟩
  · rw [same] at isSent
    exact Or.inl isSent

/-- **A leader accepts a command.** -/
theorem accept (inv : Inv members campaign nodes inFlight) (member : id ∈ members)
    (leading : (nodes id).replicator.role = .primary) {cmd : Command} {rep : Replicator} {link : Link}
    {net' : Transport} (sends : ((nodes id).replicator.accept cmd).Sends { link } rep net') :
    Moved members campaign nodes inFlight id ({ nodes id with replicator := rep }, net') := by
  have kept := inv.kept id member
  have inOffice : (nodes id).election.role = .leader := kept.tracks.mp leading
  have ownTerm := kept.inTerm inOffice
  obtain ⟨sameTerm, sameRole, whole, entry, ofTerm, entries⟩ := sends.accepted kept.whole
  have sameSelf : rep.self = (nodes id).replicator.self := by
    obtain ⟨_, _, _, _, _, accepts⟩ := (nodes id).replicator.accept_frame cmd
    refine (congrArg (·.self) sends.frame).trans ?_
    show ((nodes id).replicator.accept cmd).self = _
    rw [accepts]
  have notStanding : ¬ InRole members nodes .candidate id := by
    rintro ⟨_, isCandidate⟩
    rw [inOffice] at isCandidate
    cases isCandidate
  rw [ownTerm, ← kept.term] at ofTerm
  obtain ⟨grows, sound, written⟩ := inv.sound.write ⟨member, inOffice⟩ notStanding ofTerm
  rw [kept.log, ← entries] at written
  have next : Kept members { campaign with logs := campaign.logs.write id entry } id
      { nodes id with replicator := rep } :=
    { self := kept.self
      name := sameSelf.trans kept.name
      recorded := kept.recorded
      term := kept.term
      whole := whole
      log := written
      tracks := ((nodes id).tracks_replicator sameRole).mpr kept.tracks
      inTerm := fun _ => sameTerm.trans ownTerm }
  refine ⟨_, grows, (inv.outset link).act member grows ?_ next fun message isSent => Or.inr ?_,
    fun _ before => absurd inOffice before⟩
  · rw [inRole_replicator member, inRole_replicator member]
    exact sound
  obtain ⟨append, content, built⟩ := sends.appends message isSent
  obtain ⟨won, led, _⟩ := inv.office member inOffice
  have isLead := (sound.office ⟨member, inOffice⟩).2
  have repTerm : rep.term = (nodes id).election.currentTerm := sameTerm.trans ownTerm
  rw [content]
  refine ⟨?_, fun _ => .of_appendOf built whole ?_ ?_⟩
  · rw [built.term, built.leaderId, sameSelf, kept.name, repTerm]
    exact won
  · rw [repTerm]
    exact led
  · rw [repTerm, ← written, isLead, ← kept.term]
    rfl

/-- **A follower receives an `AppendEntries`**, in the term of the message or a later one. -/
theorem receive {net : Transport} (inv : Inv members campaign nodes (inFlight ++ net.outgoing id))
    (member : id ∈ members) {msg : AppendEntries}
    (truthful : Truthful members campaign id (.appendEntries msg))
    (settled : (nodes id).replicator.term = (nodes id).election.currentTerm)
    (heard : msg.term < (nodes id).election.currentTerm ∨
      ((nodes id).election.role = .follower ∧ (nodes id).election.currentTerm = msg.term))
    (source : NodeId) :
    ∃ campaign', campaign.Grows id campaign' ∧
      Inv members campaign' (Function.update nodes id { nodes id with
          replicator := ((nodes id).replicator.handleAppendEntries net source msg).1 })
        (inFlight ++ ((nodes id).replicator.handleAppendEntries net source msg).2.outgoing id) := by
  have kept := inv.kept id member
  obtain ⟨_, _, _, _, _, _, touched⟩ := (nodes id).replicator.handleAppendEntries_touches net source msg
  have sameSelf := congrArg (·.self) touched
  have sameRole := congrArg (·.role) touched
  have sameTerm := congrArg (·.term) touched
  have answered : ∀ {net' : Transport} {answer : AppendResponse},
      net' = (net.send source (.appendResponse answer)).1 → ∀ message ∈ net'.sent,
        message ∈ net.sent ∨ ∃ answer, message.2 = .appendResponse answer := by
    rintro _ answer rfl message isSent
    rcases net.sent_send source (.appendResponse answer) with ⟨_, grown⟩ | ⟨_, same⟩
    · rw [grown, List.mem_append, List.mem_singleton] at isSent
      exact isSent.imp_right fun new => ⟨answer, by rw [new]⟩
    · rw [same] at isSent
      exact Or.inl isSent
  by_cases unheard : msg.term < (nodes id).replicator.term ∨ msg.entries = []
  · obtain ⟨sameLog, answer, sends⟩ := Replicator.handleAppendEntries_unheard unheard net source
    refine ⟨campaign, .refl _ _, inv.replicate member sameLog sameSelf sameRole
      (fun _ => sameTerm.trans settled) fun message isSent => ?_⟩
    exact (answered sends message isSent).imp_right Or.inl
  · obtain ⟨current, carriesEntries⟩ := not_or.mp unheard
    rw [settled] at current
    obtain ⟨following, inTerm⟩ := heard.resolve_left current
    have sameTerm' : campaign.logs.term id = (nodes id).replicator.term := kept.term.trans settled.symm
    obtain ⟨_, answer, logs, _, _, _, sends, receives⟩ := (truthful.2 carriesEntries).receives
      inv.sound.logs kept.whole kept.log sameTerm' (by rw [settled, inTerm]) net source
    have others := receives.frame
    have notIn : ∀ role, role ≠ .follower → ¬ InRole members nodes role id := by
      rintro role different ⟨_, inRole⟩
      exact different (inRole.symm.trans following)
    have sound := inv.sound.receive receives.sound
      (receives.elected inv.sound.logs inv.sound.elected) others
      (notIn .candidate (by decide)) (notIn .leader (by decide))
    generalize ((nodes id).replicator.handleAppendEntries net source msg).1 = rep at *
    obtain ⟨log, acked, took, rfl, elsewhere⟩ := others
    have grows : campaign.Grows id { campaign with logs := { campaign.logs with log, acked, took } } :=
      ⟨.refl _ _, receives.grows, fun _ => Nat.le_refl _, fun different => ⟨rfl, elsewhere _ different⟩⟩
    refine ⟨_, grows, inv.act member grows ?_ ?_ fun message isSent => ?_⟩
    · rw [inRole_replicator member, inRole_replicator member]
      exact sound
    · exact
        { self := kept.self
          name := sameSelf.trans kept.name
          recorded := kept.recorded
          term := kept.term
          whole := receives.whole
          log := receives.log
          tracks := ((nodes id).tracks_replicator sameRole).mpr kept.tracks
          inTerm := fun _ => sameTerm.trans settled }
    · refine (answered sends message isSent).imp_right fun ⟨answer, content⟩ => ?_
      rw [content]
      trivial

end Inv

/-- The replicator learns the election's term. -/
theorem Moved.syncTerm {net : Transport} (moved : Moved members campaign nodes inFlight id (node, net))
    (member : id ∈ members) : Moved members campaign nodes inFlight id (node.syncTerm, net) := by
  refine moved.andThen (fun _ => rfl) ?_
  rintro campaign' nodes' _ rfl inv
  exact ⟨campaign', .refl _ _,
    inv.replicate member rfl rfl rfl (fun _ => rfl) fun _ isSent => Or.inl isSent⟩

/-! ### The events -/

namespace Inv

/-- **A node ticks.** -/
theorem tick (inv : Inv members campaign nodes inFlight) (member : id ∈ members)
    (bounded : (nodes id).election.currentTerm < 2 ^ 64 - 1) (now : Millis) (link : Link) :
    Moved members campaign nodes inFlight id ((nodes id).tick { link } now) := by
  have told := (inv.campaigns member).setLastLogSeq (nodes id).replicator.log.lastSeq
  have elected := inv.elect member (Election.tick_carries told bounded now).of_setLastLogSeq
    (((nodes id).election.setLastLogSeq (nodes id).replicator.log.lastSeq).tick_tells now) link
  unfold Node.tick
  generalize (nodes id).elect { link } _ = result at elected
  obtain ⟨node, net⟩ := result
  have synced := elected.syncTerm member
  simp only
  generalize node.syncTerm = node at synced
  refine synced.andThen (fun _ => congrArg (·.log) (node.replicator.tick_sends net).frame) ?_
  rintro campaign' nodes' _ rfl inv'
  have kept := inv'.kept id member
  refine ⟨campaign', .refl _ _, inv'.sends member ((nodes' id).replicator.tick_sends net) rfl rfl rfl
    kept.inTerm ?_⟩
  by_cases leading : (nodes' id).replicator.role = .primary
  · exact Or.inl (kept.tracks.mp leading)
  · rw [Replicator.tick_idle leading]
    exact Or.inr rfl

/-- **A command is submitted** to a node. -/
theorem submit (inv : Inv members campaign nodes inFlight) (member : id ∈ members) (cmd : Command)
    (link : Link) : Moved members campaign nodes inFlight id ((nodes id).submit { link } cmd) := by
  have kept := inv.kept id member
  unfold Node.submit
  split_ifs with leading
  · rcases (nodes id).replicator.submit_cases { link } cmd with ⟨sends, _, unsent⟩ | ⟨_, sends, _⟩
    · exact moved ((inv.outset link).sends member sends rfl rfl rfl kept.inTerm
        (Or.inr (congrArg Transport.sent unsent))) rfl
    · exact inv.accept member leading sends
  · exact inv.idle id link

theorem peerUp (inv : Inv members campaign nodes inFlight) (member : id ∈ members) (peer : NodeId)
    (link : Link) : Moved members campaign nodes inFlight id ((nodes id).onPeerUp { link } peer) := by
  have kept := inv.kept id member
  unfold Node.onPeerUp
  by_cases leading : (nodes id).replicator.role = .primary
  · exact moved ((inv.outset link).sends member (Replicator.onPeerUp_sends leading { link } peer) rfl rfl rfl
      kept.inTerm (Or.inl (kept.tracks.mp leading))) rfl
  · rw [Replicator.onPeerUp_idle leading]
    exact inv.idle id link

theorem peerDown (inv : Inv members campaign nodes inFlight) (member : id ∈ members) (peer : NodeId) :
    Moved members campaign nodes inFlight id ((nodes id).onPeerDown peer, { link := {} }) := by
  have kept := inv.kept id member
  exact moved ((inv.outset {}).replicate member rfl rfl rfl kept.inTerm fun _ isSent => Or.inl isSent) rfl

/-- **A message is delivered** to a node that keeps its office, votes for logs that are up to date, and
does not send on a response unless it leads. -/
theorem message (inv : Inv members campaign nodes inFlight) (member : id ∈ members) {source : NodeId}
    {msg : Message} {now : Millis} {link : Link} (truthful : Truthful members campaign id msg)
    (keepsOffice : (nodes id).KeepsOffice (.message source msg now link))
    (votes : ∀ rv, msg = .requestVote rv →
      (((nodes id).election.setLastLogSeq (nodes id).replicator.log.lastSeq).observeTerm
          rv.term now).1.grants rv = true → InRole members nodes .candidate rv.candidateId →
        campaign.logs.term rv.candidateId = rv.term →
          UpToDate LogEntry.term (campaign.logs.log id) (campaign.logs.log rv.candidateId))
    (silent : ∀ ar, msg = .appendResponse ar →
      (hearing (nodes id) ar now).replicator.Silent link source ar) :
    Moved members campaign nodes inFlight id ((nodes id).onMessage { link } source msg now) := by
  have kept := inv.kept id member
  have campaigns := inv.campaigns member
  cases msg with
  | requestVote rv =>
    have told := campaigns.setLastLogSeq (nodes id).replicator.log.lastSeq
    have tells := (((nodes id).election.setLastLogSeq
      (nodes id).replicator.log.lastSeq).onRequestVote_tells_iff rv now).mpr keepsOffice
    refine inv.elect member (Election.onRequestVote_carries told truthful now ?_).of_setLastLogSeq tells link
    have self : ((nodes id).election.setLastLogSeq (nodes id).replicator.log.lastSeq).self = id := kept.self
    rw [self]
    exact votes rv rfl
  | voteResponse vr =>
    rw [← kept.self] at truthful
    exact inv.elect member (Election.onVoteResponse_carries campaigns truthful now)
      ((Election.onVoteResponse_tells_iff _ vr now).mpr keepsOffice) link
  | appendEntries ae =>
    have elected := inv.elect member (Election.onAppendEntries_carries campaigns truthful.1 now)
      ((Election.onAppendEntries_tells_iff _ ae.term ae.leaderId now).mpr keepsOffice) link
    have heard := (nodes id).election.onAppendEntries_heard ae.term ae.leaderId now
    unfold Node.onMessage
    rw [← (nodes id).election_elect { link }] at heard
    simp only
    generalize (nodes id).elect { link } _ = result at elected heard
    obtain ⟨node, net⟩ := result
    refine (elected.syncTerm member).andThen (fun leading => ?_) ?_
    · -- A node that still leads has handled a stale message.
      have stale : ae.term < node.election.currentTerm := by
        refine heard.resolve_right fun follows => ?_
        have inOffice : node.election.role = .leader := leading
        rw [follows.1] at inOffice
        cases inOffice
      exact (Replicator.handleAppendEntries_unheard (Or.inl stale) net source).1
    · rintro campaign' nodes' grows same inv'
      rw [← same]
      refine inv'.receive member (truthful.mono grows) (by rw [same]; rfl) ?_ source
      rw [same]
      exact heard
  | appendResponse ar =>
    have elected := inv.elect member (Election.onAppendResponse_carries campaigns ar.term now)
      ((nodes id).election.onAppendResponse_tells ar.term now) link
    have heard := silent ar rfl
    unfold hearing at heard
    obtain ⟨sameNode, quiet⟩ := (nodes id).elect_onAppendResponse { link } { link := {} } ar.term now
    rw [← sameNode] at heard
    unfold Node.onMessage
    simp only
    generalize (nodes id).elect { link } _ = result at elected heard quiet
    obtain ⟨node, net⟩ := result
    obtain rfl := quiet
    have synced := elected.syncTerm member
    simp only at heard ⊢
    generalize node.syncTerm = node at synced heard
    refine synced.andThen (fun _ => (node.replicator.handleAppendResponse_steady link source ar).log) ?_
    rintro campaign' nodes' _ rfl inv'
    have kept' := inv'.kept id member
    have office : (nodes' id).election.role = .leader ∨
        ((nodes' id).replicator.handleAppendResponse { link } source ar).2.sent = [] := by
      by_cases leading : (nodes' id).replicator.role = .primary
      · exact Or.inl (kept'.tracks.mp leading)
      · exact Or.inr (Replicator.handleAppendResponse_silent leading heard)
    refine ⟨campaign', .refl _ _, ?_⟩
    rcases (nodes' id).replicator.handleAppendResponse_cases { link } source ar with
      ⟨_, sends, _⟩ | ⟨_, stats, sends, _⟩
    · exact inv'.sends member sends rfl rfl rfl kept'.inTerm office
    · obtain ⟨_, _, _, _, _, _, advanced⟩ := ((nodes' id).replicator.noted source ar).advanceCommitIndex_frame
      have noted : (nodes' id).replicator.noteResponse source ar = _ := advanced
      rw [noted] at sends
      exact inv'.sends member sends rfl rfl rfl kept'.inTerm office
  | hello msg => exact inv.idle id link
  | heartbeat msg => exact inv.idle id link
  | commandForward msg => exact inv.idle id link
  | eventAck msg => exact inv.idle id link

end Inv

end NodeCluster

end Sententia
