/-
**The engine and the applied history.** A replicator's engine is the replay of the entries its node has
applied, those its log has dropped since included, and neither the commit point nor the applied committed
entries ever go back — as long as no conflict cuts a log that has dropped a front
(`engine_reflects_history`). On such a log `rebuildFromLog` starts from a fresh engine, finds no first
entry to replay, and takes `lastApplied` and `commitIndex` back to zero.

A `Chronicle` is a replicator together with what its log has ever had: the entries it has, after those it
has dropped, as they were when it had them.
-/

import Sententia.Replication.OnlyPrimary
import Sententia.Replication.Replica

namespace Sententia

open Library Relation

namespace Replica

/-- The entries that are applied and committed. -/
def settled (replica : Replica) : List LogEntry :=
  replica.history.take (min replica.applied replica.committed)

/-- The engine is the replay of the applied entries, and nothing unsettled has been dropped. -/
structure Faithful (instrument : InstrumentId) (replica : Replica) : Prop where
  engine : replica.engine =
    MatchingEngine.replay instrument ((replica.history.take replica.applied).map (·.command))
  applied : replica.applied ≤ replica.history.length
  kept : replica.dropped ≤ min replica.applied replica.committed

/-- A faithful replica that a few steps have taken further. -/
structure Grown (instrument : InstrumentId) (replica replica' : Replica) : Prop where
  faithful : replica'.Faithful instrument
  dropped : replica'.dropped = replica.dropped
  front : replica'.history.take replica.dropped = replica.history.take replica.dropped
  committed : replica.committed ≤ replica'.committed
  settled : replica.settled <+: replica'.settled

variable {instrument : InstrumentId} {replica replica' replica'' : Replica}

theorem Grown.refl (faithful : replica.Faithful instrument) : Grown instrument replica replica :=
  ⟨faithful, rfl, rfl, Nat.le_refl _, List.prefix_rfl⟩

theorem Grown.trans (first : Grown instrument replica replica')
    (second : Grown instrument replica' replica'') : Grown instrument replica replica'' where
  faithful := second.faithful
  dropped := second.dropped.trans first.dropped
  front := by
    have front := second.front
    rw [first.dropped] at front
    exact front.trans first.front
  committed := first.committed.trans second.committed
  settled := first.settled.trans second.settled

/-- What is settled stays settled where the history agrees on it and the points have not gone back. -/
theorem settled_prefix (same : replica'.history.take (min replica.applied replica.committed) =
      replica.history.take (min replica.applied replica.committed))
    (forward : min replica.applied replica.committed ≤ min replica'.applied replica'.committed) :
    replica.settled <+: replica'.settled := by
  unfold settled
  rw [← same]
  exact List.take_prefix_take_left forward

/-- A new entry. -/
theorem Faithful.grow (faithful : replica.Faithful instrument) (entry : LogEntry) :
    Grown instrument replica { replica with history := replica.history ++ [entry] } := by
  have applied := faithful.applied
  have kept := faithful.kept
  have take : ∀ count, count ≤ replica.history.length →
      (replica.history ++ [entry]).take count = replica.history.take count := fun count inside =>
    List.take_append_of_le_length inside
  refine ⟨⟨?_, ?_, kept⟩, rfl, take _ (by omega), Nat.le_refl _, settled_prefix (take _ (by omega)) ?_⟩
  · rw [take _ applied]
    exact faithful.engine
  · rw [List.length_append]
    exact Nat.le_add_right_of_le applied
  · exact Nat.le_refl _

theorem Works.grown (works : Works replica replica') (faithful : replica.Faithful instrument) :
    Grown instrument replica replica' := by
  have applied := faithful.applied
  have kept := faithful.kept
  cases works with
  | grow entry => exact faithful.grow entry
  | commit seq forward inside =>
    refine ⟨⟨faithful.engine, applied, ?_⟩, rfl, rfl, forward, settled_prefix rfl ?_⟩
    · show replica.dropped ≤ min replica.applied seq
      omega
    · show min replica.applied replica.committed ≤ min replica.applied seq
      omega
  | apply entry behind notDropped next =>
    obtain ⟨inside, rfl⟩ := List.getElem?_eq_some_iff.mp next
    refine ⟨⟨?_, inside, ?_⟩, rfl, rfl, Nat.le_refl _, settled_prefix rfl ?_⟩
    · show (replica.engine.apply _).1 = _
      rw [← List.take_append_getElem inside, List.map_append, faithful.engine]
      unfold MatchingEngine.replay
      rw [MatchingEngine.applyAll_append]
      rfl
    · show replica.dropped ≤ min (replica.applied + 1) replica.committed
      omega
    · show min replica.applied replica.committed ≤ min (replica.applied + 1) replica.committed
      omega

theorem grown_works (path : ReflTransGen Works replica replica')
    (faithful : replica.Faithful instrument) : Grown instrument replica replica' := by
  induction path with
  | refl => exact .refl faithful
  | tail _ works ih => exact ih.trans (works.grown ih.faithful)

/-- A whole log is cut above the commit point: the rebuilt engine is the replay of what is left. -/
theorem Faithful.cut (faithful : replica.Faithful instrument) (whole : replica.dropped = 0) {seq : Nat}
    (uncommitted : replica.committed < seq) (inside : seq ≤ replica.history.length) :
    Grown instrument replica (replica.cutAt seq) := by
  have named : replica.engine.instrument = instrument := by
    rw [faithful.engine, MatchingEngine.instrument_replay]
  have length : (replica.history.take (seq - 1)).length = seq - 1 := by
    rw [List.length_take]
    omega
  unfold cutAt
  simp only [if_pos whole]
  refine ⟨⟨?_, ?_, ?_⟩, rfl, ?_, Nat.le_refl _, settled_prefix ?_ ?_⟩
  · rw [named, List.take_take, Nat.min_self]
  · exact Nat.le_of_eq length.symm
  · show replica.dropped ≤ _
    rw [whole]
    exact Nat.zero_le _
  · rw [whole]
    rfl
  · show (replica.history.take (seq - 1)).take _ = _
    rw [List.take_take]
    congr 1
    omega
  · show min replica.applied replica.committed ≤ min (seq - 1) replica.committed
    omega

/-- The entry loop, where it cuts nothing but whole logs. -/
theorem grown_edits {cuts : Nat → Prop} (path : ReflTransGen (Edits cuts) replica replica')
    (faithful : replica.Faithful instrument)
    (whole : ∀ seq, cuts seq → replica.dropped = 0 ∨ seq ≤ replica.committed) :
    Grown instrument replica replica' := by
  induction path with
  | refl => exact .refl faithful
  | tail _ edits ih =>
    refine ih.trans ?_
    cases edits with
    | grow entry => exact ih.faithful.grow entry
    | cut seq allowed uncommitted kept inside =>
      rcases whole seq allowed with untrimmed | below
      · exact ih.faithful.cut (ih.dropped.trans untrimmed) uncommitted inside
      · have raised := ih.committed
        omega

end Replica

/-! ### Runs -/

open Replica

structure Chronicle where
  rep : Replicator
  /-- What the log has ever had. -/
  history : List LogEntry := []

namespace Chronicle

/-- The log's entries come after those it has dropped. -/
def step (chronicle : Chronicle) (call : Replicator.Call) : Option Chronicle :=
  let rep := (chronicle.rep.perform call).1
  some { rep, history := chronicle.history.take rep.log.truncatedThrough ++ rep.log.entries }

/-- The engine is a fresh one after the applied entries. -/
def Reflects (instrument : InstrumentId) (chronicle : Chronicle) : Prop :=
  chronicle.rep.engine =
    MatchingEngine.replay instrument
      ((chronicle.history.take chronicle.rep.lastApplied).map (·.command))

/-- The applied committed entries. -/
def settled (chronicle : Chronicle) : List LogEntry :=
  chronicle.history.take (min chronicle.rep.lastApplied chronicle.rep.commitIndex)

/-- If the message passes the checks of its term and predecessor, then the log has dropped nothing, or the
message cuts nothing: the first record that the log does not have is unknown to it or committed. For
records that do not ascend this is asked of everything that could be cut. -/
def CutsWhole (rep : Replicator) (msg : AppendEntries) : Prop :=
  rep.term ≤ msg.term → rep.log.termAt msg.prevSeq = some msg.prevTerm →
    rep.log.truncatedThrough = 0 ∨
      (Ascending msg.entries ∧ ∀ record ∈ firstNew rep.log.termAt msg.entries,
        rep.log.termAt record.seq ≠ none → record.seq ≤ rep.commitIndex) ∨
      Agrees (· ≤ rep.commitIndex) rep.log.termAt msg.entries

instance (rep : Replicator) (msg : AppendEntries) : Decidable (CutsWhole rep msg) :=
  inferInstanceAs (Decidable (_ → _ → _))

def CutsWholeLog (chronicle : Chronicle) : Replicator.Call → Prop
  | .onMessage _ (.appendEntries msg) _ => CutsWhole chronicle.rep msg
  | _ => True

instance (chronicle : Chronicle) (call : Replicator.Call) : Decidable (chronicle.CutsWholeLog call) := by
  cases call with
  | onMessage source msg link => cases msg <;> unfold CutsWholeLog <;> infer_instance
  | _ => exact isTrue trivial

/-- **An `AppendEntries` that cuts only whole logs** takes a faithful replica further. -/
theorem handleAppendEntries_grown {instrument : InstrumentId} {replica : Replica} {rep : Replicator}
    (stands : replica.Stands rep) (faithful : replica.Faithful instrument) (net : Transport)
    (source : NodeId) {msg : AppendEntries} (whole : CutsWhole rep msg) :
    ∃ replica', replica'.Stands (rep.handleAppendEntries net source msg).1 ∧
      Grown instrument replica replica' := by
  have known : rep.log.termAt = replica.termAt := by
    funext seq
    exact stands.termAt_eq seq
  rcases rep.handleAppendEntries_cases net source msg with
    ⟨stats, rejected⟩ | ⟨current, follows, absorbed, outcome⟩
  · rw [rejected]
    exact ⟨replica, stands.reframe, .refl faithful⟩
  · -- Whatever the loop has made of the log, the handler goes on from there.
    have finishes : ∀ {replica' : Replica}, replica'.Stands absorbed → Grown instrument replica replica' →
        ∃ replica'', replica''.Stands (rep.handleAppendEntries net source msg).1 ∧
          Grown instrument replica replica'' := by
      intro replica' stands' grown
      rcases outcome with ⟨_, result⟩ | ⟨_, result⟩
      · rw [result]
        exact ⟨replica', stands', grown⟩
      · obtain ⟨replica'', path, stands''⟩ := stands'.settle msg.commitSeq
        have commits : Works replica'
            { replica' with
              committed := max replica'.committed (min msg.commitSeq replica'.history.length) } :=
          .commit _ (Nat.le_max_left _ _) (max_le stands'.inside (Nat.min_le_right _ _))
        rw [result]
        exact ⟨replica'', stands'', grown.trans (grown_works (.head commits path) grown.faithful)⟩
    have absorbs : (rep.appendRecords msg.entries).1 = absorbed := by
      rcases outcome with ⟨loop, _⟩ | ⟨loop, _⟩
      · rw [loop]
      · rw [loop]
    have plain : ∀ cuts : Nat → Prop, Agrees cuts replica.termAt msg.entries →
        (∀ seq, cuts seq → replica.dropped = 0 ∨ seq ≤ replica.committed) →
          ∃ replica'', replica''.Stands (rep.handleAppendEntries net source msg).1 ∧
            Grown instrument replica replica'' := by
      intro cuts agrees harmless
      obtain ⟨replica', path, stands'⟩ := stands.appendRecords_edits msg.entries agrees
      rw [absorbs] at stands'
      exact finishes stands' (grown_edits path faithful harmless)
    rcases whole current follows with untrimmed | ⟨ascending, first⟩ | agrees
    · rw [stands.dropped] at untrimmed
      refine plain (fun _ => True) ⟨fun _ _ _ _ _ => trivial, ?_⟩ fun _ _ => Or.inl untrimmed
      exact List.pairwise_of_forall fun _ _ _ _ => trivial
    · rw [known, stands.committed] at first
      rcases stands.appendRecords_ascending (· ≤ replica.committed) msg.entries ascending first with
        refused | ⟨rep', replica', accepted, path, stands'⟩
      · rw [refused] at absorbs
        exact finishes (absorbs ▸ stands) (.refl faithful)
      · rw [accepted] at absorbs
        exact finishes (absorbs ▸ stands') (grown_edits path faithful fun _ => Or.inr)
    · rw [known, stands.committed] at agrees
      exact plain _ agrees fun _ => Or.inr

/-- The chronicle is that of a faithful replica. -/
def Sound (instrument : InstrumentId) (chronicle : Chronicle) : Prop :=
  ∃ replica : Replica, replica.Stands chronicle.rep ∧ replica.history = chronicle.history ∧
    replica.Faithful instrument

/-- Neither the commit point nor the applied committed entries go back. -/
def Advances (before after : Chronicle) : Prop :=
  before.rep.commitIndex ≤ after.rep.commitIndex ∧ before.settled <+: after.settled

theorem settled_eq {rep : Replicator} {history : List LogEntry} {replica : Replica}
    (stands : replica.Stands rep) (same : replica.history = history) :
    settled { rep, history } = replica.settled := by
  unfold settled Replica.settled
  rw [same, stands.applied, stands.committed]

/-- The chronicle follows a replica that grows. -/
theorem sound_of_grown {instrument : InstrumentId} {chronicle : Chronicle} {replica replica' : Replica}
    {rep : Replicator} (stands : replica.Stands chronicle.rep)
    (same : replica.history = chronicle.history) (stands' : replica'.Stands rep)
    (grown : Grown instrument replica replica') :
    let next : Chronicle :=
      { rep, history := chronicle.history.take rep.log.truncatedThrough ++ rep.log.entries }
    next.Sound instrument ∧ chronicle.Advances next := by
  have joined : replica'.history =
      chronicle.history.take rep.log.truncatedThrough ++ rep.log.entries := by
    rw [stands'.log.entries, stands'.dropped, grown.dropped, ← same, ← grown.front,
      List.take_append_drop]
  refine ⟨⟨replica', stands', joined, grown.faithful⟩, ?_, ?_⟩
  · rw [stands.committed]
    exact grown.committed.trans (Nat.le_of_eq stands'.committed.symm)
  · have before : chronicle.settled = replica.settled := settled_eq stands same
    rw [before, settled_eq stands' joined]
    exact grown.settled

/-- **Every step** keeps the chronicle sound and takes it further. -/
theorem Sound.step {instrument : InstrumentId} {chronicle next : Chronicle} {call : Replicator.Call}
    (sound : chronicle.Sound instrument) (whole : chronicle.CutsWholeLog call)
    (moved : chronicle.step call = some next) : next.Sound instrument ∧ chronicle.Advances next := by
  obtain ⟨replica, stands, same, faithful⟩ := sound
  obtain rfl := Option.some.inj moved
  by_cases append : ∃ source msg link, call = .onMessage source (.appendEntries msg) link
  · obtain ⟨source, msg, link, rfl⟩ := append
    obtain ⟨replica', stands', grown⟩ := handleAppendEntries_grown stands faithful { link } source whole
    exact sound_of_grown stands same stands' grown
  · by_cases compacts : call = .compactLog
    · subst compacts
      obtain ⟨dropped, _, bounded, stands'⟩ := stands.compactLog
      have joined : replica.history = chronicle.history.take chronicle.rep.compactLog.log.truncatedThrough ++
          chronicle.rep.compactLog.log.entries := by
        rw [stands'.log.entries, stands'.dropped, same, List.take_append_drop]
      have kept := faithful.kept
      refine ⟨⟨_, stands', joined, faithful.engine, faithful.applied, ?_⟩, ?_, ?_⟩
      · show dropped ≤ min replica.applied replica.committed
        omega
      · rw [stands.committed]
        exact Nat.le_of_eq stands'.committed.symm
      · have before : chronicle.settled = replica.settled := settled_eq stands same
        exact ⟨[], (List.append_nil _).trans (before.trans (settled_eq stands' joined).symm)⟩
    · obtain ⟨replica', path, stands'⟩ := stands.perform compacts fun source msg link equal =>
        append ⟨source, msg, link, equal⟩
      exact sound_of_grown stands same stands' (grown_works path faithful)

/-- **The engine reflects the applied history**, and neither the commit point nor the applied committed
entries ever go back, in every run in which no conflict cuts a log that has dropped a front. -/
theorem engine_reflects_history (self : NodeId) (role : Role) (mode : ReplicationMode)
    (instrument : InstrumentId) (clusterSize syncWindow : Nat) (calls : List Replicator.Call)
    (whole : Guarded step CutsWholeLog
      { rep := { self, role, mode, engine := { instrument }, clusterSize, syncWindow } } calls) :
    Always step (Reflects instrument)
        { rep := { self, role, mode, engine := { instrument }, clusterSize, syncWindow } } calls ∧
      ∀ earlier later before after, earlier <+: later → later <+: calls →
        run step { rep := { self, role, mode, engine := { instrument }, clusterSize, syncWindow } }
            earlier = some before →
          run step { rep := { self, role, mode, engine := { instrument }, clusterSize, syncWindow } }
              later = some after →
            before.rep.commitIndex ≤ after.rep.commitIndex ∧ before.settled <+: after.settled := by
  have start : Sound instrument
      { rep := { self, role, mode, engine := { instrument }, clusterSize, syncWindow } } := by
    refine ⟨{ history := [], dropped := 0, applied := 0, committed := 0, engine := { instrument } },
      ?_, rfl, rfl, Nat.le_refl 0, Nat.le_refl 0⟩
    exact ⟨CommandLog.retains_empty, rfl, rfl, rfl, rfl, rfl, Nat.le_refl 0⟩
  constructor
  · refine always_of_guarded (Sound instrument) (fun sound whole moved => (sound.step whole moved).1)
      ?_ start whole
    rintro chronicle ⟨replica, stands, same, faithful⟩
    unfold Reflects
    rw [stands.engine, stands.applied, ← same]
    exact faithful.engine
  · intro earlier later before after first second reached reached'
    refine run_grows (Sound instrument) Advances ?_ ?_ ?_ start whole first second reached reached'
    · exact fun chronicle => ⟨Nat.le_refl _, List.prefix_rfl⟩
    · exact fun first second => ⟨first.1.trans second.1, first.2.trans second.2⟩
    · exact fun sound whole moved => sound.step whole moved

/-- Node 1 leads nodes 2 and 3 in term 1 with three entries, of which node 2 acknowledges the first. -/
def partlyCommitted : List Replicator.Call :=
  [.setTerm 1, .setRole .primary, .onPeerUp 2 {}, .submit (.cancelOrder { id := 1 }) {},
    .submit (.cancelOrder { id := 2 }) {}, .submit (.cancelOrder { id := 3 }) {},
    .onMessage 2 (.appendResponse { term := 1, nodeId := 2, lastLogSeq := 1, ok := true }) {}]

/-- Node 1 is demoted. The leader of term 2 has the first two entries and another third one, and does not
know yet what is committed. -/
def overruled : List Replicator.Call :=
  [.setTerm 2, .setRole .backup,
    .onMessage 3 (.appendEntries
      { term := 2
        leaderId := 3
        prevSeq := 2
        prevTerm := 1
        entries := [⟨3, 2, .cancelOrder { id := 4 }⟩] }) {}]

/-- One of three nodes. -/
def member : Chronicle :=
  { rep :=
      { self := 1
        role := .backup
        mode := .asynchronous
        engine := { instrument := 1 }
        clusterSize := 3
        syncWindow := 1 } }

theorem engine_reflects_history_overruled :
    Guarded step CutsWholeLog member (partlyCommitted ++ overruled) ∧
      Always step (Reflects 1) member (partlyCommitted ++ overruled) :=
  have whole : Guarded step CutsWholeLog member (partlyCommitted ++ overruled) := by decide +kernel
  ⟨whole, (engine_reflects_history 1 .backup .asynchronous 1 3 1 _ whole).1⟩

/-- Had node 1 compacted its log meanwhile, it would lose its engine and its commit point. -/
theorem compaction_loses_engine :
    ∃ before after, run step member (partlyCommitted ++ [.compactLog]) = some before ∧
      run step member (partlyCommitted ++ [.compactLog] ++ overruled) = some after ∧
      before.rep.commitIndex = 1 ∧ before.settled = [⟨1, 1, .cancelOrder { id := 1 }⟩] ∧
        before.rep.engine.commandSeq = 1 ∧ after.rep.commitIndex = 0 ∧ after.settled = [] ∧
          after.rep.engine.commandSeq = 0 := by
  refine ⟨_, _, (Option.some_get (by decide +kernel)).symm, (Option.some_get (by decide +kernel)).symm,
    ?_, ?_, ?_, ?_, ?_, ?_⟩ <;> decide +kernel

end Chronicle

end Sententia
