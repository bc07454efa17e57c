/-
**Feeding an order file to a cluster** (`apps/node/main.cpp` without `--elect`). The designated primary
submits the orders of its file, at most 256 in one cycle of the main loop and none that is refused twice; the
backups apply what they are sent. With `--exit-on-complete` the primary leaves the loop once the orders are
committed and every backup it knows has reported all of them applied. Heartbeats and the cycle budget are left
out; a process that ends does not come back.

* `FeedNode.cycle` — one cycle of the main loop behind `poll`, whose events are steps of their own.
* `Leads`, `Reports` — the primary's side and what a message says: a report of a backup is never ahead of it.
* `Feeding`, `Sound` — the primary in its main loop, and the whole cluster.
* `orderFeed_replays` — at every moment every engine is that of the replay driver on a front part of the order
  file, and once the primary has left, its engine and those of the backups it knew are on the whole file.
-/

import Sententia.Node
import Sententia.Replication.SinglePrimary

namespace Sententia

open Library

/-! ### The program -/

structure FeedNode where
  replicator : Replicator
  orders : List Command
  exitOnComplete : Bool
  nextOrder : Nat := 0
  everConnected : Bool := false
  complete : Bool := false

namespace FeedNode

/-- The construction in `main`. The replicator's cluster size is not set. -/
def create (selfId : NodeId) (role : Role) (mode : ReplicationMode) (syncWindow : Nat) (orders : List Command)
    (exitOnComplete : Bool) : FeedNode where
  replicator := ({ self := selfId, role, mode, engine := { instrument := kInstrument } } :
    Replicator).setSyncWindow syncWindow
  orders
  exitOnComplete

/-- The loop over a burst. An order that is refused is submitted again in a later cycle. -/
def feed : Nat → FeedNode → Transport → FeedNode × Transport
  | 0, node, net => (node, net)
  | burst + 1, node, net =>
    match node.orders[node.nextOrder]? with
    | none => (node, net)
    | some cmd =>
      let (replicator, net, result) := node.replicator.submit net cmd
      if result.status = .accepted then
        feed burst { node with replicator, nextOrder := node.nextOrder + 1 } net
      else ({ node with replicator }, net)

/-- The condition for `complete`. A backup is done when the primary has finished and gone away. -/
def finished (node : FeedNode) (readyPeers : Nat) : Bool :=
  let rep := node.replicator
  if rep.role = .primary then
    node.everConnected ∧ node.nextOrder = node.orders.length ∧ rep.lastApplied = rep.log.lastSeq ∧
      rep.commitSeq = rep.log.lastSeq ∧ ¬ rep.backups.isEmpty ∧
        (∀ entry ∈ rep.backups.entries, entry.2.lastApplied = rep.log.lastSeq) ∧ rep.log.lastSeq > 0
  else node.everConnected ∧ readyPeers = 0

/-- One cycle of the main loop behind `poll`. -/
def cycle (node : FeedNode) (net : Transport) (readyPeers : Nat) : FeedNode × Transport :=
  let (replicator, net) := node.replicator.tick net
  let node := { node with replicator }
  let (node, net) :=
    if node.replicator.role = .primary ∧ node.nextOrder < node.orders.length then node.feed 256 net
    else (node, net)
  let node := { node with everConnected := node.everConnected || readyPeers > 0 }
  ({ node with complete := node.exitOnComplete && node.finished readyPeers }, net)

end FeedNode

/-! ### The cluster -/

structure FeedCluster where
  members : List NodeId
  nodes : NodeId → FeedNode
  inFlight : List Envelope := []

namespace FeedCluster

/-- The events of `poll` are the deliveries and the comings and goings of peers; the network reorders, loses
and repeats messages. -/
inductive Label
  | cycle (id : NodeId) (readyPeers : Nat) (link : Link)
  | peerUp (id peer : NodeId) (link : Link)
  | peerDown (id peer : NodeId)
  | deliver (index : Nat) (link : Link)
  | duplicate (index : Nat)
  | lose (index : Nat)

/-- A node is one of the cluster and has not left its main loop. -/
def Running (cluster : FeedCluster) (id : NodeId) : Prop :=
  id ∈ cluster.members ∧ (cluster.nodes id).complete = false

instance (cluster : FeedCluster) (id : NodeId) : Decidable (cluster.Running id) :=
  inferInstanceAs (Decidable (_ ∧ _))

def act (cluster : FeedCluster) (id : NodeId) (result : FeedNode × Transport) : FeedCluster :=
  { cluster with
    nodes := Function.update cluster.nodes id result.1
    inFlight := cluster.inFlight ++ result.2.outgoing id }

/-- A call of a method of the replicator. -/
def call (cluster : FeedCluster) (id : NodeId) (result : Replicator × Transport) : FeedCluster :=
  cluster.act id ({ cluster.nodes id with replicator := result.1 }, result.2)

def step (cluster : FeedCluster) : Label → Option FeedCluster
  | .cycle id readyPeers link =>
    if cluster.Running id then some (cluster.act id ((cluster.nodes id).cycle { link } readyPeers)) else none
  | .peerUp id peer link =>
    if cluster.Running id ∧ peer ∈ cluster.members ∧ peer ≠ id then
      some (cluster.call id ((cluster.nodes id).replicator.onPeerUp { link } peer))
    else none
  | .peerDown id peer =>
    if cluster.Running id then
      some (cluster.call id ((cluster.nodes id).replicator.onPeerDown peer, { link := {} }))
    else none
  | .deliver index link => cluster.inFlight[index]?.bind fun envelope =>
    if cluster.Running envelope.target then
      some ({ cluster with inFlight := cluster.inFlight.eraseIdx index }.call envelope.target
        ((cluster.nodes envelope.target).replicator.onMessage { link } envelope.source envelope.message))
    else none
  | .duplicate index => cluster.inFlight[index]?.map fun envelope =>
    { cluster with inFlight := cluster.inFlight ++ [envelope] }
  | .lose index =>
    if index < cluster.inFlight.length then
      some { cluster with inFlight := cluster.inFlight.eraseIdx index }
    else none

/-- The primary is designated; every node may have been given an order file. -/
def start (members : List NodeId) (primary : NodeId) (modes : NodeId → ReplicationMode)
    (windows : NodeId → Nat) (orders : NodeId → List Command) (exits : NodeId → Bool) : FeedCluster where
  members
  nodes id :=
    FeedNode.create id (if id = primary then .primary else .backup) (modes id) (windows id) (orders id)
      (exits id)

end FeedCluster

/-! ### What is filed of the backups' reports -/

namespace Replicator

variable {bound bound' : NodeId → Nat} {rep : Replicator}

/-- No backup has reported more than the bound. -/
def ReportedBy (bound : NodeId → Nat) (rep : Replicator) : Prop :=
  ∀ id backup, rep.backups.find? id = some backup → backup.lastApplied ≤ bound id

theorem ReportedBy.insert (reported : rep.ReportedBy bound) {id : NodeId} {backup : BackupState}
    (within : backup.lastApplied ≤ bound id) :
    ReportedBy bound { rep with backups := rep.backups.insert id backup } := by
  intro other filed found
  replace found := (OrderedMap.find?_insert rep.backups id other backup).symm.trans found
  split_ifs at found with same
  · cases found
    exact same ▸ within
  · exact reported other filed found

theorem lastApplied_sendAppend (rep : Replicator) (net : Transport) (backup : BackupState) :
    (rep.sendAppend net backup).2.2.lastApplied = backup.lastApplied := by
  unfold sendAppend
  dsimp only
  split_ifs <;> rfl

/-- A loop that sends to every backup, or passes it over, files no report. -/
theorem ReportedBy.forBackups
    {body : Replicator → Transport → NodeId → BackupState → Replicator × Transport × BackupState}
    (sends : ∀ rep net id state, SendsTo rep net state (body rep net id state))
    (keeps : ∀ rep net id state, (body rep net id state).2.2.lastApplied = state.lastApplied)
    (reported : rep.ReportedBy bound) (net : Transport) :
    (rep.forBackups body net).1.ReportedBy bound := by
  refine forBackups_induct (fun rep' _ => rep'.ReportedBy bound) body rep net reported ?_
  intro rep' net' id state found soFar
  have same : (body rep' net' id state).1.ReportedBy bound := by
    unfold ReportedBy
    rw [(sends rep' net' id state).backups]
    exact soFar
  refine same.insert ?_
  rw [keeps]
  exact reported id state found

theorem ReportedBy.tick (reported : rep.ReportedBy bound) (net : Transport) :
    (rep.tick net).1.ReportedBy bound := by
  unfold Replicator.tick
  split_ifs
  · exact reported
  · refine reported.forBackups (fun rep net id state => ?_) (fun rep net id state => ?_) net
    · split_ifs
      · exact sendsTo_nothing _ _ _
      · exact sendAppend_sendsTo _ _ _
      · exact sendsTo_nothing _ _ _
    · split_ifs
      · rfl
      · exact lastApplied_sendAppend _ _ _
      · rfl

theorem ReportedBy.submit (reported : rep.ReportedBy bound) (net : Transport) (cmd : Command) :
    (rep.submit net cmd).1.ReportedBy bound := by
  have accepted : (rep.accept cmd).ReportedBy bound := by
    obtain ⟨_, _, _, _, _, accepts⟩ := rep.accept_frame cmd
    rw [accepts]
    exact reported
  unfold Replicator.submit
  dsimp only
  split_ifs
  · exact reported
  · exact reported
  · exact reported
  · exact reported
  · refine accepted.forBackups (fun rep net id state => ?_) (fun rep net id state => ?_) net
    · split_ifs
      · exact sendsTo_nothing _ _ _
      · exact sendAppend_sendsTo _ _ _
    · split_ifs
      · rfl
      · exact lastApplied_sendAppend _ _ _

theorem ReportedBy.onPeerUp (reported : rep.ReportedBy bound) (net : Transport) (id : NodeId) :
    (rep.onPeerUp net id).1.ReportedBy bound := by
  unfold Replicator.onPeerUp
  split_ifs
  · exact reported
  · refine reported.insert ?_
    cases found : rep.backups.find? id with
    | none => exact Nat.zero_le _
    | some backup => exact reported id backup found

theorem ReportedBy.onPeerDown (reported : rep.ReportedBy bound) (id : NodeId) :
    (rep.onPeerDown id).ReportedBy bound := by
  intro other backup found
  replace found := (OrderedMap.find?_erase rep.backups id other).symm.trans found
  split_ifs at found
  exact reported other backup found

/-- A response files its own report. -/
theorem ReportedBy.handleAppendResponse (reported : rep.ReportedBy bound) (net : Transport)
    {source : NodeId} {msg : AppendResponse} (within : msg.lastApplied ≤ bound source) :
    (rep.handleAppendResponse net source msg).1.ReportedBy bound := by
  by_cases later : msg.term > rep.term
  · have ignores : rep.handleAppendResponse net source msg = _ := if_pos later
    rw [ignores]
    exact reported
  · obtain ⟨stats, equation, _⟩ := handleAppendResponse_current (Nat.le_of_not_lt later) net source
    have noted : ReportedBy bound { rep.noteResponse source msg with stats } := by
      obtain ⟨_, _, _, _, _, _, advanced⟩ := (rep.noted source msg).advanceCommitIndex_frame
      unfold noteResponse
      rw [advanced]
      exact reported.insert within
    rw [equation]
    unfold followUp
    split_ifs
    · have same : ReportedBy bound
          (({ rep.noteResponse source msg with stats } : Replicator).sendAppend net
            (rep.respondent source msg)).1 := by
        unfold ReportedBy
        rw [(sendAppend_sendsTo _ net _).backups]
        exact noted
      refine same.insert ?_
      rw [lastApplied_sendAppend]
      exact within
    · exact noted

end Replicator

/-! ### The primary -/

namespace FeedCluster

open ReplicatorCluster (InStep Trails engineAt engineAt_mono getElem_fronts inStep_applyCommitted)

/-- The primary's side: its log stands for the history, and it has applied what it has committed. `applied`
is how far each node has applied. -/
structure Leads (primary : NodeId) (history : List LogEntry) (applied : NodeId → Nat) (rep : Replicator) :
    Prop where
  role : rep.role = .primary
  inStep : InStep kInstrument history rep
  log : rep.log.Retains history
  uncompacted : rep.log.truncatedThrough = 0
  named : rep.Named
  others : ∀ id backup, rep.backups.find? id = some backup → id ≠ primary
  reported : rep.ReportedBy applied
  noDivergence : rep.stats.checksumMismatches = 0

/-- What a message in flight says: it carries a front of the history, or a true report that the backup is
past. -/
def Reports (primary : NodeId) (history : List LogEntry) (applied : NodeId → Nat) (envelope : Envelope) :
    Prop :=
  match envelope.message with
  | .appendEntries msg => envelope.source = primary ∧ envelope.target ≠ primary ∧
      ∃ leader, leader <+: history ∧ msg.Carries leader
  | .appendResponse msg => envelope.target = primary ∧ envelope.source ≠ primary ∧
      msg.lastApplied ≤ applied envelope.source ∧ msg.lastApplied ≤ history.length ∧
        msg.stateChecksum = (engineAt kInstrument history msg.lastApplied).stateChecksum
  | _ => True

/-- What the primary has sent in a step. -/
def Speaks (primary : NodeId) (history : List LogEntry) (net : Transport) : Prop :=
  ∀ message ∈ net.sent, message.1 ≠ primary ∧ ∃ append, message.2 = .appendEntries append ∧
    ∃ leader, leader <+: history ∧ append.Carries leader

variable {primary : NodeId} {history history' : List LogEntry} {applied applied' : NodeId → Nat}
  {rep rep' : Replicator} {net net' : Transport}

theorem Reports.mono {envelope : Envelope} (reports : Reports primary history applied envelope)
    (grows : history <+: history') (more : ∀ id, id ≠ primary → applied id ≤ applied' id) :
    Reports primary history' applied' envelope := by
  unfold Reports at reports ⊢
  split at reports
  · obtain ⟨source, target, leader, front, carries⟩ := reports
    exact ⟨source, target, leader, front.trans grows, carries⟩
  · obtain ⟨target, source, within, inside, checksum⟩ := reports
    refine ⟨target, source, within.trans (more _ source), inside.trans grows.length_le, ?_⟩
    rw [engineAt_mono grows inside]
    exact checksum
  · trivial

theorem Speaks.mono (said : Speaks primary history net) (grows : history <+: history') :
    Speaks primary history' net := by
  intro message isSent
  obtain ⟨target, append, content, leader, front, carries⟩ := said message isSent
  exact ⟨target, append, content, leader, front.trans grows, carries⟩

theorem Speaks.reports (said : Speaks primary history net) :
    ∀ envelope ∈ net.outgoing primary, Reports primary history applied envelope := by
  intro envelope isSent
  obtain ⟨message, inSent, rfl⟩ := List.mem_map.mp isSent
  obtain ⟨target, append, content, leader, front, carries⟩ := said message inSent
  unfold Reports
  simp only [content]
  exact ⟨trivial, target, leader, front, carries⟩

namespace Leads

theorem mono (leads : Leads primary history applied rep)
    (more : ∀ id, id ≠ primary → applied id ≤ applied' id) : Leads primary history applied' rep :=
  { leads with
    reported := fun id backup found =>
      (leads.reported id backup found).trans (more id (leads.others id backup found)) }

/-- Only the core of the state and its backups matter. -/
theorem of_core (leads : Leads primary history applied rep) (frame : rep'.core = rep.core)
    (named : rep'.Named) (others : ∀ id backup, rep'.backups.find? id = some backup → id ≠ primary)
    (reported : rep'.ReportedBy applied) : Leads primary history applied rep' := by
  have core : Leads primary history applied rep.core :=
    { leads with
      inStep := leads.inStep.of_core rfl
      named := fun found => nomatch found
      others := fun _ _ found => nomatch found
      reported := fun _ _ found => nomatch found }
  rw [← frame] at core
  exact { core with inStep := leads.inStep.of_core frame, named, others, reported }

/-- **Sending** backs what is sent by the log. -/
theorem of_sends (leads : Leads primary history applied rep) (said : Speaks primary history net)
    (sends : rep.Sends net rep' net') (reported : rep'.ReportedBy applied) :
    Leads primary history applied rep' ∧ Speaks primary history net' := by
  refine ⟨leads.of_core sends.frame (sends.named leads.named) (fun id backup found => ?_) reported,
    fun message isSent => ?_⟩
  · obtain ⟨before, found', _⟩ := sends.matchSeq found
    exact leads.others id before found'
  · rcases sends.sent message isSent with earlier | ⟨append, content, built, target⟩
    · exact said message earlier
    · obtain ⟨backup, found⟩ := target leads.named
      exact ⟨leads.others _ backup found, append, content, built.carries leads.log⟩

/-- **Committing** applies what is committed. -/
theorem advance (leads : Leads primary history applied rep) :
    Leads primary history applied rep.advanceCommitIndex := by
  rcases rep.advanceCommitIndex_cases with same | ⟨_, more, ownTerm, commits⟩
  · rw [same]
    exact leads
  · have inside := leads.log.le_of_termAt ownTerm
    have behind : rep.lastApplied ≤ rep.commitCandidate := by
      rw [leads.inStep.applied]
      exact Nat.le_of_lt more
    have kept : rep.log.truncatedThrough ≤ rep.lastApplied := by
      rw [leads.uncompacted]
      exact Nat.zero_le _
    have inStep : InStep kInstrument history (rep.commit rep.commitCandidate).applyCommitted :=
      inStep_applyCommitted leads.log List.prefix_rfl kept behind inside leads.inStep.engine
    obtain ⟨engine, lastApplied, applied', stats, same, equation⟩ :=
      Replicator.applyLoop_frame _ (rep.commit rep.commitCandidate)
    have frame : (rep.commit rep.commitCandidate).applyCommitted = _ := equation
    rw [frame] at inStep
    rw [commits, frame]
    exact { leads with inStep, noDivergence := same.trans leads.noDivergence }

/-- **A command joins the log** and the history. -/
theorem accept (leads : Leads primary history applied rep) (cmd : Command) :
    Leads primary (history ++ [{ seq := history.length + 1, term := rep.term, command := cmd }]) applied
      (rep.accept cmd) := by
  have committed := leads.inStep.committed
  have joined : Leads primary
      (history ++ [{ seq := history.length + 1, term := rep.term, command := cmd }]) applied
      (rep.join cmd) :=
    { leads with
      inStep := by
        refine ⟨leads.inStep.applied, committed.trans (Nat.le_succ _), ?_⟩
        have inside : rep.lastApplied ≤ history.length := by
          rw [← leads.log.lastSeq, leads.inStep.applied]
          exact committed
        exact leads.inStep.engine.trans (engineAt_mono (List.prefix_append _ _) inside).symm
      log := leads.log.append cmd rep.term }
  rcases rep.accept_cases cmd with plain | alone
  · rw [plain]
    exact joined
  · rw [alone]
    exact joined.advance

/-- A backup is filed, or filed anew. -/
theorem insert (leads : Leads primary history applied rep) {id : NodeId} {backup : BackupState}
    (other : id ≠ primary) (isNamed : backup.id = id) (within : backup.lastApplied ≤ applied id) :
    Leads primary history applied { rep with backups := rep.backups.insert id backup } := by
  refine leads.of_core rfl (fun {any filed} found => ?_) (fun any filed found => ?_)
    (leads.reported.insert within)
  · replace found := (OrderedMap.find?_insert rep.backups id any backup).symm.trans found
    split_ifs at found with same
    · cases found
      rw [isNamed, same]
    · exact leads.named found
  · replace found := (OrderedMap.find?_insert rep.backups id any backup).symm.trans found
    split_ifs at found with same
    · exact same ▸ other
    · exact leads.others any filed found

/-- **A response** files its report, and shows no divergence. -/
theorem handleAppendResponse (leads : Leads primary history applied rep) {source : NodeId}
    {msg : AppendResponse} (other : source ≠ primary) (within : msg.lastApplied ≤ applied source)
    (checksum : msg.stateChecksum = (engineAt kInstrument history msg.lastApplied).stateChecksum)
    (said : Speaks primary history net) :
    Leads primary history applied (rep.handleAppendResponse net source msg).1 ∧
      Speaks primary history (rep.handleAppendResponse net source msg).2 := by
  have reported := leads.reported.handleAppendResponse net within
  rcases rep.handleAppendResponse_cases net source msg with
    ⟨_, sends, _⟩ | ⟨_, stats, sends, agrees⟩
  · exact leads.of_sends said sends reported
  · have isNamed : (rep.respondent source msg).id = source := by
      show ((rep.backups.find? source).getD { id := source }).id = source
      cases known : rep.backups.find? source with
      | none => rfl
      | some backup => exact leads.named known
    have noted : Leads primary history applied (rep.noteResponse source msg) :=
      (leads.insert other isNamed within).advance
    have same := agrees fun now => by
      rw [checksum, now, noted.inStep.engine]
    rw [same] at sends
    exact noted.of_sends said sends reported

theorem onPeerUp (leads : Leads primary history applied rep) {id : NodeId} (other : id ≠ primary)
    (said : Speaks primary history net) :
    Leads primary history applied (rep.onPeerUp net id).1 ∧
      Speaks primary history (rep.onPeerUp net id).2 := by
  have within : ((rep.backups.find? id).getD {}).lastApplied ≤ applied id := by
    cases found : rep.backups.find? id with
    | none => exact Nat.zero_le _
    | some backup => exact leads.reported id backup found
  have greeted : Leads primary history applied (rep.greet id) := leads.insert other rfl within
  exact greeted.of_sends said (Replicator.onPeerUp_sends leads.role net id) (leads.reported.onPeerUp net id)

theorem onPeerDown (leads : Leads primary history applied rep) (id : NodeId) :
    Leads primary history applied (rep.onPeerDown id) := by
  have kept : ∀ other backup, (rep.onPeerDown id).backups.find? other = some backup →
      rep.backups.find? other = some backup := by
    intro other backup found
    replace found := (OrderedMap.find?_erase rep.backups id other).symm.trans found
    split_ifs at found
    exact found
  exact leads.of_core rfl (fun found => leads.named (kept _ _ found))
    (fun other backup found => leads.others other backup (kept other backup found))
    (leads.reported.onPeerDown id)

theorem tick (leads : Leads primary history applied rep) (said : Speaks primary history net) :
    Leads primary history applied (rep.tick net).1 ∧ Speaks primary history (rep.tick net).2 :=
  leads.of_sends said (rep.tick_sends net) (leads.reported.tick net)

end Leads

/-! ### The main loop -/

/-- The primary in its main loop: the history is what it has submitted of its orders, and it leaves the loop
only when it is done. -/
structure Feeding (primary : NodeId) (orders : List Command) (history : List LogEntry)
    (applied : NodeId → Nat) (node : FeedNode) : Prop where
  leads : Leads primary history applied node.replicator
  file : node.orders = orders
  inside : node.nextOrder ≤ orders.length
  submitted : history.map (·.command) = orders.take node.nextOrder
  done : node.complete = true → ∃ readyPeers, node.finished readyPeers = true

variable {orders : List Command} {node : FeedNode}

/-- **A burst** submits the orders one after the other. -/
theorem feed_feeding (burst : Nat) (feeding : Feeding primary orders history applied node)
    (running : node.complete = false) (said : Speaks primary history net) :
    ∃ history', history <+: history' ∧
      Feeding primary orders history' applied (node.feed burst net).1 ∧
        (node.feed burst net).1.complete = false ∧ Speaks primary history' (node.feed burst net).2 := by
  induction burst generalizing node net history with
  | zero => exact ⟨history, List.prefix_rfl, feeding, running, said⟩
  | succ burst ih =>
    unfold FeedNode.feed
    cases next : node.orders[node.nextOrder]? with
    | none => exact ⟨history, List.prefix_rfl, feeding, running, said⟩
    | some cmd =>
      have reported := feeding.leads.reported.submit net cmd
      rcases node.replicator.submit_cases net cmd with ⟨sends, refused, _⟩ | ⟨_, sends, accepted⟩
      · obtain ⟨leads, said'⟩ := feeding.leads.of_sends said sends reported
        dsimp only
        rw [if_neg refused]
        refine ⟨history, List.prefix_rfl, { feeding with leads, done := fun complete => ?_ }, running, said'⟩
        exact absurd (running.symm.trans complete) Bool.false_ne_true
      · have grows : history <+: history ++
            [{ seq := history.length + 1, term := node.replicator.term, command := cmd }] :=
          List.prefix_append _ _
        obtain ⟨leads, said'⟩ := (feeding.leads.accept cmd).of_sends (said.mono grows) sends reported
        rw [feeding.file] at next
        obtain ⟨inside, _⟩ := List.getElem?_eq_some_iff.mp next
        have fed : Feeding primary orders (history ++
            [{ seq := history.length + 1, term := node.replicator.term, command := cmd }]) applied
            { node with
              replicator := (node.replicator.submit net cmd).1
              nextOrder := node.nextOrder + 1 } :=
          { leads
            file := feeding.file
            inside
            submitted := by
              rw [List.map_append, feeding.submitted]
              show orders.take node.nextOrder ++ [cmd] = orders.take (node.nextOrder + 1)
              rw [List.take_add_one, next]
              rfl
            done := fun complete => absurd (running.symm.trans complete) Bool.false_ne_true }
        dsimp only
        rw [if_pos accepted]
        obtain ⟨history', grows', feeding', running', said''⟩ := ih fed running said'
        exact ⟨history', grows.trans grows', feeding', running', said''⟩

/-- **A cycle of the primary.** -/
theorem cycle_feeding (feeding : Feeding primary orders history applied node)
    (running : node.complete = false) (link : Link) (readyPeers : Nat) :
    ∃ history', history <+: history' ∧
      Feeding primary orders history' applied (node.cycle { link } readyPeers).1 ∧
        Speaks primary history' (node.cycle { link } readyPeers).2 := by
  have silent : Speaks primary history { link } := fun message isSent => absurd isSent List.not_mem_nil
  obtain ⟨leads, said⟩ := feeding.leads.tick silent
  have ticked : Feeding primary orders history applied
      { node with replicator := (node.replicator.tick { link }).1 } :=
    { feeding with
      leads
      done := fun complete => absurd (running.symm.trans complete) Bool.false_ne_true }
  obtain ⟨history', grows, fed, _, said'⟩ := feed_feeding 256 ticked running said
  -- Whether or not there was a burst, the end of the cycle only looks at the node.
  have ends : ∀ (node : FeedNode) history', Feeding primary orders history' applied node →
      Feeding primary orders history' applied
        (let node := { node with everConnected := node.everConnected || readyPeers > 0 }
        { node with complete := node.exitOnComplete && node.finished readyPeers }) := by
    intro node history' feeding
    exact
      { feeding with
        leads := feeding.leads
        done := fun complete => ⟨readyPeers, (Bool.and_eq_true_iff.mp complete).2⟩ }
  unfold FeedNode.cycle
  dsimp only
  split_ifs
  · exact ⟨history', grows, ends _ _ fed, said'⟩
  · exact ⟨history, List.prefix_rfl, ends _ _ ticked, said⟩

/-! ### The backups -/

/-- A backup is silent in its main loop. -/
theorem cycle_backup (following : node.replicator.role ≠ .primary) (net : Transport) (readyPeers : Nat) :
    (node.cycle net readyPeers).1.replicator = node.replicator ∧ (node.cycle net readyPeers).2 = net := by
  have idle : node.replicator.tick net = (node.replicator, net) := if_pos following
  unfold FeedNode.cycle
  rw [idle]
  dsimp only
  rw [if_neg fun both => following both.1]
  exact ⟨rfl, rfl⟩

/-- Adopting a commit point takes none back. -/
theorem le_commitIndex_adopt {id : NodeId} (trails : Trails kInstrument history id rep) (commitSeq : Nat) :
    rep.commitIndex ≤ (rep.adoptCommit commitSeq).applyCommitted.commitIndex := by
  have committed := trails.inStep.committed
  obtain ⟨_, _, _, _, _, equation⟩ := Replicator.applyLoop_frame _ (rep.adoptCommit commitSeq)
  have applies : (rep.adoptCommit commitSeq).applyCommitted = _ := equation
  rw [applies]
  show rep.commitIndex ≤ (rep.adoptCommit commitSeq).commitIndex
  unfold Replicator.adoptCommit
  split_ifs with more
  · exact Nat.le_min.mpr ⟨Nat.le_of_lt more, committed⟩
  · exact Nat.le_refl _

/-- Entries that are a front of the history take no commit point back. -/
theorem le_commitIndex_absorb {id : NodeId} (trails : Trails kInstrument history id rep)
    {leader : List LogEntry} (front : leader <+: history) {absorbed : Replicator}
    (absorbs : rep.Absorbs leader absorbed) : rep.commitIndex ≤ absorbed.commitIndex := by
  cases absorbs with
  | kept held => exact Nat.le_refl _
  | extended short whole all same => exact Nat.le_refl _
  | replaced inside agree differ above held whole all same =>
    exact absurd (getElem_fronts trails.front front held inside) differ

/-- **What a backup makes of the primary's entries** leaves it no less far, and it reports how far that
is. -/
theorem handleAppendEntries_trails {id : NodeId} (trails : Trails kInstrument history id rep)
    (other : id ≠ primary) (numbered : Numbered history) {msg : AppendEntries} {leader : List LogEntry}
    (front : leader <+: history) (carries : msg.Carries leader) (link : Link) :
    Trails kInstrument history id (rep.handleAppendEntries { link } primary msg).1 ∧
      rep.lastApplied ≤ (rep.handleAppendEntries { link } primary msg).1.lastApplied ∧
        ∀ applied : NodeId → Nat,
          (rep.handleAppendEntries { link } primary msg).1.lastApplied ≤ applied id →
            ∀ envelope ∈ (rep.handleAppendEntries { link } primary msg).2.outgoing id,
              Reports primary history applied envelope := by
  have numbered' : Numbered leader := List.prefix_iff_eq_take.mp front ▸ numbered.take _
  have matching : Replicator.Matches rep.log.entries leader := by
    intro k held inside _
    rw [← take_eq_of_front trails.front held, ← take_eq_of_front front inside]
  have follows : rep.log.termAt msg.prevSeq = some msg.prevTerm →
      rep.log.entries.take msg.prevSeq = leader.take msg.prevSeq := by
    intro known
    rw [← take_eq_of_front trails.front (trails.whole.retains.le_of_termAt known),
      ← take_eq_of_front front carries.inside]
  obtain ⟨answer, answers, sends⟩ := Replicator.handleAppendEntries_answers numbered' trails.whole
    matching carries follows { link } primary
  generalize rep.handleAppendEntries { link } primary msg = result at answers sends ⊢
  obtain ⟨after, net⟩ := result
  replace sends : net = (Transport.send { link } primary (.appendResponse answer)).1 := sends
  have borne : Trails kInstrument history id after → answer.lastApplied = after.lastApplied →
      answer.stateChecksum = after.engine.stateChecksum → ∀ applied : NodeId → Nat,
        after.lastApplied ≤ applied id → ∀ envelope ∈ net.outgoing id,
          Reports primary history applied envelope := by
    intro settled report checksum applied reaches envelope isSent
    have inside : after.lastApplied ≤ history.length := by
      rw [settled.inStep.applied]
      refine settled.inStep.committed.trans ?_
      rw [settled.whole.lastSeq]
      exact settled.front.length_le
    obtain ⟨message, inSent, rfl⟩ := List.mem_map.mp isSent
    rw [sends] at inSent
    rcases Transport.sent_send { link } primary (.appendResponse answer) with ⟨_, grown⟩ | ⟨_, same⟩
    · rw [grown] at inSent
      rw [List.mem_singleton.mp inSent]
      refine ⟨rfl, other, report.trans_le reaches, report.trans_le inside, ?_⟩
      rw [checksum, report, settled.inStep.engine]
    · rw [same] at inSent
      cases inSent
  cases answers with
  | rejected same =>
    have frame := (Replicator.Sends.of_stats rep { link } same).frame
    exact ⟨trails.of_core frame, Nat.le_refl _, borne (trails.of_core frame) rfl rfl⟩
  | refused => exact ⟨trails, Nat.le_refl _, borne trails rfl rfl⟩
  | @accepted absorbed' current known appended absorbs =>
    obtain ⟨absorbed, _⟩ := trails.absorb front absorbs
    obtain ⟨settled, _⟩ := absorbed.adopt msg.commitSeq
    have further : rep.lastApplied ≤ (absorbed'.adoptCommit msg.commitSeq).applyCommitted.lastApplied := by
      rw [trails.inStep.applied, settled.inStep.applied]
      exact (le_commitIndex_absorb trails front absorbs).trans (le_commitIndex_adopt absorbed msg.commitSeq)
    exact ⟨settled, further, borne settled rfl rfl⟩

/-! ### Every step keeps the invariant -/

def appliedBy (cluster : FeedCluster) (id : NodeId) : Nat := (cluster.nodes id).replicator.lastApplied

structure Sound (members : List NodeId) (primary : NodeId) (orders : List Command)
    (history : List LogEntry) (cluster : FeedCluster) : Prop where
  sameMembers : cluster.members = members
  feeding : Feeding primary orders history cluster.appliedBy (cluster.nodes primary)
  trails : ∀ id, id ≠ primary → Trails kInstrument history id (cluster.nodes id).replicator
  messages : ∀ envelope ∈ cluster.inFlight, Reports primary history cluster.appliedBy envelope

namespace Sound

variable {members : List NodeId} {cluster : FeedCluster}

/-- **The primary moves.** -/
theorem act_primary (sound : Sound members primary orders history cluster) {result : FeedNode × Transport}
    (grows : history <+: history')
    (feeding : Feeding primary orders history' cluster.appliedBy result.1)
    (said : Speaks primary history' result.2) :
    Sound members primary orders history' (cluster.act primary result) := by
  have others : ∀ id, id ≠ primary → (cluster.act primary result).nodes id = cluster.nodes id :=
    fun id other => Function.update_of_ne other _ _
  have same : ∀ id, id ≠ primary → cluster.appliedBy id ≤ (cluster.act primary result).appliedBy id := by
    intro id other
    unfold appliedBy
    rw [others id other]
  have here : (cluster.act primary result).nodes primary = result.1 := Function.update_self _ _ _
  refine ⟨sound.sameMembers, ?_, fun id other => ?_, fun envelope isMessage => ?_⟩
  · rw [here]
    exact { feeding with leads := feeding.leads.mono same }
  · rw [others id other]
    exact (sound.trails id other).mono grows
  · rcases List.mem_append.mp isMessage with old | new
    · exact (sound.messages envelope old).mono grows same
    · exact said.reports envelope new

/-- **A backup moves.** -/
theorem act_backup (sound : Sound members primary orders history cluster) {id : NodeId}
    (other : id ≠ primary) {result : FeedNode × Transport}
    (trails : Trails kInstrument history id result.1.replicator)
    (further : cluster.appliedBy id ≤ result.1.replicator.lastApplied)
    (sent : ∀ applied : NodeId → Nat, result.1.replicator.lastApplied ≤ applied id →
      ∀ envelope ∈ result.2.outgoing id, Reports primary history applied envelope) :
    Sound members primary orders history (cluster.act id result) := by
  have itself : (cluster.act id result).nodes id = result.1 := Function.update_self _ _ _
  have others : ∀ any, any ≠ id → (cluster.act id result).nodes any = cluster.nodes any :=
    fun any different => Function.update_of_ne different _ _
  have more : ∀ any, any ≠ primary → cluster.appliedBy any ≤ (cluster.act id result).appliedBy any := by
    intro any _
    by_cases same : any = id
    · unfold appliedBy
      rw [same, itself]
      exact further
    · unfold appliedBy
      rw [others any same]
  refine ⟨sound.sameMembers, ?_, fun any different => ?_, fun envelope isMessage => ?_⟩
  · rw [others primary other.symm]
    exact { sound.feeding with leads := sound.feeding.leads.mono more }
  · by_cases same : any = id
    · rw [same, itself]
      exact trails
    · rw [others any same]
      exact sound.trails any different
  · rcases List.mem_append.mp isMessage with old | new
    · exact (sound.messages envelope old).mono List.prefix_rfl more
    · refine sent _ ?_ envelope new
      unfold appliedBy
      rw [itself]

/-- Losing messages, or seeing them twice. -/
theorem reshuffle (sound : Sound members primary orders history cluster) {inFlight : List Envelope}
    (known : inFlight ⊆ cluster.inFlight) :
    Sound members primary orders history { cluster with inFlight } :=
  { sound with messages := fun envelope isMessage => sound.messages envelope (known isMessage) }

/-- A backup's bookkeeping of peers says nothing. -/
theorem call_silent (sound : Sound members primary orders history cluster) {id : NodeId}
    (other : id ≠ primary) {result : Replicator × Transport}
    (frame : result.1.core = (cluster.nodes id).replicator.core) (silent : result.2.sent = []) :
    Sound members primary orders history (cluster.call id result) := by
  have applied : result.1.lastApplied = (cluster.nodes id).replicator.lastApplied :=
    congrArg (·.lastApplied) frame
  refine sound.act_backup other ((sound.trails id other).of_core frame) (Nat.le_of_eq applied.symm) ?_
  intro applied _ envelope isSent
  replace isSent : envelope ∈ result.2.outgoing id := isSent
  unfold Transport.outgoing at isSent
  rw [silent] at isSent
  cases isSent

/-- **The primary's replicator is called.** -/
theorem call_primary (sound : Sound members primary orders history cluster)
    (running : (cluster.nodes primary).complete = false) {result : Replicator × Transport}
    (leads : Leads primary history cluster.appliedBy result.1)
    (said : Speaks primary history result.2) :
    Sound members primary orders history (cluster.call primary result) := by
  refine sound.act_primary List.prefix_rfl { sound.feeding with leads, done := fun complete => ?_ } said
  exact absurd (running.symm.trans complete) Bool.false_ne_true

/-- **A message is delivered.** -/
theorem receive (sound : Sound members primary orders history cluster) {envelope : Envelope}
    (isMessage : envelope ∈ cluster.inFlight) (running : (cluster.nodes envelope.target).complete = false)
    (link : Link) :
    Sound members primary orders history (cluster.call envelope.target
      ((cluster.nodes envelope.target).replicator.onMessage { link } envelope.source envelope.message)) := by
  have reports := sound.messages envelope isMessage
  obtain ⟨source, target, message⟩ := envelope
  have silent : Speaks primary history { link } := fun message isSent => absurd isSent List.not_mem_nil
  have ignored : Sound members primary orders history
      (cluster.call target ((cluster.nodes target).replicator, { link })) := by
    by_cases itself : target = primary
    · subst itself
      exact sound.call_primary running sound.feeding.leads silent
    · exact sound.call_silent itself rfl rfl
  cases message with
  | appendEntries msg =>
    obtain ⟨rfl, other, leader, front, carries⟩ := reports
    obtain ⟨trails, further, sent⟩ := handleAppendEntries_trails (sound.trails target other) other
      sound.feeding.leads.log.numbered front carries link
    exact sound.act_backup other trails further sent
  | appendResponse msg =>
    obtain ⟨rfl, other, within, _, checksum⟩ := reports
    obtain ⟨leads, said⟩ := sound.feeding.leads.handleAppendResponse other within checksum silent
    exact sound.call_primary running leads said
  | hello msg => exact ignored
  | heartbeat msg => exact ignored
  | commandForward msg => exact ignored
  | eventAck msg => exact ignored
  | requestVote msg => exact ignored
  | voteResponse msg => exact ignored

/-- **Every step keeps the invariant**, for a history that may have grown. -/
theorem step (sound : Sound members primary orders history cluster) {label : Label} {next : FeedCluster}
    (enabled : cluster.step label = some next) :
    ∃ history', Sound members primary orders history' next := by
  have silent (link : Link) : Speaks primary history { link } :=
    fun message isSent => absurd isSent List.not_mem_nil
  cases label with
  | cycle id readyPeers link =>
    obtain ⟨⟨_, running⟩, moved⟩ := Option.ite_none_right_eq_some.mp enabled
    obtain rfl := Option.some.inj moved
    by_cases itself : id = primary
    · subst itself
      obtain ⟨history', grows, feeding, said⟩ := cycle_feeding sound.feeding running link readyPeers
      exact ⟨history', sound.act_primary grows feeding said⟩
    · have trails := sound.trails id itself
      have following : (cluster.nodes id).replicator.role ≠ .primary := by
        rw [trails.role]
        decide
      obtain ⟨same, nothing⟩ := cycle_backup following { link } readyPeers
      refine ⟨history, sound.act_backup itself ?_ ?_ fun applied _ envelope isSent => ?_⟩
      · rw [same]
        exact trails
      · rw [same]
        exact Nat.le_refl _
      · rw [nothing] at isSent
        cases isSent
  | peerUp id peer link =>
    obtain ⟨⟨⟨_, running⟩, _, different⟩, moved⟩ := Option.ite_none_right_eq_some.mp enabled
    obtain rfl := Option.some.inj moved
    by_cases itself : id = primary
    · subst itself
      obtain ⟨leads, said⟩ := sound.feeding.leads.onPeerUp different (silent link)
      exact ⟨history, sound.call_primary running leads said⟩
    · have trails := sound.trails id itself
      have idle : (cluster.nodes id).replicator.onPeerUp { link } peer =
          ((cluster.nodes id).replicator, { link }) := if_pos (by rw [trails.role]; decide)
      rw [idle]
      exact ⟨history, sound.call_silent itself rfl rfl⟩
  | peerDown id peer =>
    obtain ⟨⟨_, running⟩, moved⟩ := Option.ite_none_right_eq_some.mp enabled
    obtain rfl := Option.some.inj moved
    by_cases itself : id = primary
    · subst itself
      exact ⟨history, sound.call_primary running (sound.feeding.leads.onPeerDown peer) (silent {})⟩
    · exact ⟨history, sound.call_silent itself rfl rfl⟩
  | deliver index link =>
    obtain ⟨envelope, found, enabled'⟩ := Option.bind_eq_some_iff.mp enabled
    obtain ⟨⟨_, running⟩, moved⟩ := Option.ite_none_right_eq_some.mp enabled'
    obtain rfl := Option.some.inj moved
    have received := sound.receive (List.mem_of_getElem? found) running link
    refine ⟨history, { received.reshuffle ?_ with }⟩
    exact List.append_subset.mpr
      ⟨List.Subset.trans List.eraseIdx_subset (List.subset_append_left _ _), List.subset_append_right _ _⟩
  | duplicate index =>
    obtain ⟨envelope, found, rfl⟩ := Option.map_eq_some_iff.mp enabled
    have isMessage := List.mem_of_getElem? found
    refine ⟨history, sound.reshuffle (List.append_subset.mpr ⟨List.Subset.refl _, ?_⟩)⟩
    exact List.cons_subset.mpr ⟨isMessage, List.nil_subset _⟩
  | lose index =>
    obtain ⟨_, moved⟩ := Option.ite_none_right_eq_some.mp enabled
    obtain rfl := Option.some.inj moved
    exact ⟨history, sound.reshuffle List.eraseIdx_subset⟩

end Sound

theorem sound_start (members : List NodeId) (primary : NodeId) (modes : NodeId → ReplicationMode)
    (windows : NodeId → Nat) (orders : NodeId → List Command) (exits : NodeId → Bool) :
    Sound members primary (orders primary) [] (start members primary modes windows orders exits) where
  sameMembers := rfl
  feeding :=
    { leads :=
        { role := if_pos rfl
          inStep := ⟨rfl, Nat.le_refl _, rfl⟩
          log := CommandLog.retains_empty
          uncompacted := rfl
          named := fun found => nomatch found
          others := fun _ _ found => nomatch found
          reported := fun _ _ found => nomatch found
          noDivergence := rfl }
      file := rfl
      inside := Nat.zero_le _
      submitted := rfl
      done := fun complete => absurd complete Bool.false_ne_true }
  trails := fun _ other =>
    { self := rfl
      role := if_neg other
      inStep := ⟨rfl, Nat.le_refl _, rfl⟩
      whole := CommandLog.whole_empty
      front := List.nil_prefix }
  messages := fun _ isMessage => absurd isMessage List.not_mem_nil

/-! ### What the cluster makes of the order file -/

/-- The engine is that of the replay driver on the first of the orders. -/
def ReplaysFront (orders : List Command) (rep : Replicator) : Prop :=
  rep.lastApplied ≤ orders.length ∧
    rep.engine = MatchingEngine.replay kInstrument (orders.take rep.lastApplied)

/-- The log is the order file, and the engine is that of the replay driver on it. -/
structure ReplaysAll (orders : List Command) (rep : Replicator) : Prop where
  log : rep.log.entries.map (·.command) = orders
  applied : rep.lastApplied = orders.length
  engine : rep.engine = MatchingEngine.replay kInstrument orders

structure Replays (primary : NodeId) (orders : List Command) (cluster : FeedCluster) : Prop where
  /-- No order is submitted twice, and none is passed over. -/
  submitted : (cluster.nodes primary).replicator.log.entries.map (·.command) =
    orders.take (cluster.nodes primary).nextOrder
  front : ∀ id, ReplaysFront (orders.take (cluster.nodes primary).nextOrder) (cluster.nodes id).replicator
  agree : (cluster.nodes primary).replicator.stats.checksumMismatches = 0
  /-- The primary leaves with everything, and not before a backup is there. -/
  left : (cluster.nodes primary).complete = true →
    ReplaysAll orders (cluster.nodes primary).replicator ∧ orders ≠ [] ∧
      (cluster.nodes primary).replicator.backups.isEmpty = false
  /-- Every backup it knows then has everything too. -/
  filed : (cluster.nodes primary).complete = true → ∀ id backup,
    (cluster.nodes primary).replicator.backups.find? id = some backup →
      ReplaysAll orders (cluster.nodes id).replicator

namespace Sound

variable {members : List NodeId} {cluster : FeedCluster}

theorem inStep (sound : Sound members primary orders history cluster) (id : NodeId) :
    InStep kInstrument history (cluster.nodes id).replicator := by
  by_cases itself : id = primary
  · rw [itself]
    exact sound.feeding.leads.inStep
  · exact (sound.trails id itself).inStep

theorem lastApplied_le (sound : Sound members primary orders history cluster) (id : NodeId) :
    (cluster.nodes id).replicator.lastApplied ≤ history.length := by
  rw [(sound.inStep id).applied]
  refine (sound.inStep id).committed.trans ?_
  by_cases itself : id = primary
  · rw [itself, sound.feeding.leads.log.lastSeq]
  · rw [(sound.trails id itself).whole.lastSeq]
    exact (sound.trails id itself).front.length_le

/-- The primary's log is the history. -/
theorem entries_primary (sound : Sound members primary orders history cluster) :
    (cluster.nodes primary).replicator.log.entries = history := by
  have entries := sound.feeding.leads.log.entries
  rw [sound.feeding.leads.uncompacted, List.drop_zero] at entries
  exact entries

/-- A node that has applied the whole history has the whole of what was submitted. -/
theorem replaysAll (sound : Sound members primary orders history cluster) {id : NodeId}
    (all : history.length ≤ (cluster.nodes id).replicator.lastApplied)
    (submitted : history.map (·.command) = orders) : ReplaysAll orders (cluster.nodes id).replicator := by
  have inStep := sound.inStep id
  have held : (cluster.nodes id).replicator.log.entries = history := by
    by_cases itself : id = primary
    · rw [itself]
      exact sound.entries_primary
    · have trails := sound.trails id itself
      have long : history.length ≤ (cluster.nodes id).replicator.log.entries.length := by
        rw [← trails.whole.lastSeq]
        exact (all.trans_eq inStep.applied).trans inStep.committed
      exact trails.front.eq_of_length_le long
  refine ⟨held ▸ submitted, ?_, ?_⟩
  · rw [← submitted, List.length_map]
    exact Nat.le_antisymm (sound.lastApplied_le id) all
  · rw [inStep.engine]
    unfold engineAt
    rw [List.take_of_length_le all, submitted]

/-- What the primary has seen when it leaves. -/
theorem finished (sound : Sound members primary orders history cluster)
    (complete : (cluster.nodes primary).complete = true) :
    history.map (·.command) = orders ∧ orders ≠ [] ∧
      history.length ≤ (cluster.nodes primary).replicator.lastApplied ∧
        (cluster.nodes primary).replicator.backups.isEmpty = false ∧
          ∀ id backup, (cluster.nodes primary).replicator.backups.find? id = some backup →
            history.length ≤ (cluster.nodes id).replicator.lastApplied := by
  obtain ⟨readyPeers, finished⟩ := sound.feeding.done complete
  have leads := sound.feeding.leads
  unfold FeedNode.finished at finished
  dsimp only at finished
  rw [if_pos leads.role] at finished
  obtain ⟨_, everything, applied, _, known, caughtUp, nonempty⟩ := of_decide_eq_true finished
  rw [leads.log.lastSeq] at applied caughtUp nonempty
  have submitted : history.map (·.command) = orders := by
    rw [sound.feeding.submitted, everything, sound.feeding.file, List.take_length]
  refine ⟨submitted, fun empty => ?_, Nat.le_of_eq applied.symm, Bool.eq_false_iff.mpr known,
    fun id backup found => ?_⟩
  · rw [List.map_eq_nil_iff.mp (submitted.trans empty)] at nonempty
    exact absurd nonempty (Nat.lt_irrefl 0)
  · have reported : backup.lastApplied = history.length :=
      caughtUp (id, backup) ((OrderedMap.find?_eq_some_iff _).mp found)
    rw [← reported]
    exact leads.reported id backup found

theorem replays (sound : Sound members primary orders history cluster) :
    cluster.Replays primary orders := by
  refine ⟨?_, fun id => ⟨?_, ?_⟩, sound.feeding.leads.noDivergence, fun complete => ?_,
    fun complete id backup found => ?_⟩
  · rw [sound.entries_primary]
    exact sound.feeding.submitted
  · rw [← sound.feeding.submitted, List.length_map]
    exact sound.lastApplied_le id
  · rw [← sound.feeding.submitted, ← List.map_take]
    exact (sound.inStep id).engine
  · obtain ⟨submitted, nonempty, applied, known, _⟩ := sound.finished complete
    exact ⟨sound.replaysAll applied submitted, nonempty, known⟩
  · obtain ⟨submitted, _, _, _, caughtUp⟩ := sound.finished complete
    exact sound.replaysAll (caughtUp id backup found) submitted

end Sound

/-- **The cluster replays the order file**, whatever the schedule and the network do. -/
theorem orderFeed_replays (members : List NodeId) (primary : NodeId) (modes : NodeId → ReplicationMode)
    (windows : NodeId → Nat) (orders : NodeId → List Command) (exits : NodeId → Bool)
    (labels : List Label) :
    Always step (fun cluster => cluster.Replays primary (orders primary))
      (start members primary modes windows orders exits) labels :=
  always_of_guarded (fun cluster => ∃ history, Sound members primary (orders primary) history cluster)
    (fun ⟨_, sound⟩ _ enabled => sound.step enabled) (fun ⟨_, sound⟩ => sound.replays)
    ⟨[], sound_start members primary modes windows orders exits⟩ (guarded_true _ _)

/-- The primary does leave. -/
example : (run step (start [1, 2] 1 (fun _ => .asynchronous) (fun _ => 1)
      (fun _ => [ReplicatorCluster.restingSell 1]) fun _ => true)
    [.peerUp 1 2 {}, .deliver 0 {}, .cycle 1 1 {}, .deliver 0 {}, .deliver 0 {}, .deliver 0 {},
      .deliver 0 {}, .deliver 0 {}, .cycle 1 1 {}]).any (fun cluster => (cluster.nodes 1).complete) =
    true := by
  decide +kernel

end FeedCluster

end Sententia
