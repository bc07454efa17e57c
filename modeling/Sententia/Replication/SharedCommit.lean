/-
**What a follower commits.** A follower adopts the leader's commit point up to the head of its own log,
not up to the last entry that the message covers. Where it already has everything the message carries, a
divergent tail beyond the message stays in its log and is committed with the rest. This is the only way
in which a follower comes to commit what it does not share with its leader, but for one: a leader that has
dropped the predecessor of a batch sends zero for its term (`sharesCommitted_iff`).
-/

import Sententia.Replication.Replica

namespace Sententia

open Library

namespace Replica

/-- The first record that the log does not have, if there is one, is one that it has dropped: the entry
loop leaves the log as it is. -/
def Keeps (known : Nat → Option Nat) (dropped : Nat) (records : List LogRecord) : Prop :=
  ∀ record ∈ firstNew known records, record.seq ≤ dropped

theorem keeps_cons_of_known {known : Nat → Option Nat} {dropped : Nat} {record : LogRecord}
    {rest : List LogRecord} (same : known record.seq = some record.term) :
    Keeps known dropped (record :: rest) ↔ Keeps known dropped rest := by
  have skips : firstNew known (record :: rest) = firstNew known rest := by
    simp [firstNew, same]
  unfold Keeps
  rw [skips]

theorem keeps_cons_of_new {known : Nat → Option Nat} {dropped : Nat} {record : LogRecord}
    {rest : List LogRecord} (new : known record.seq ≠ some record.term) :
    Keeps known dropped (record :: rest) ↔ record.seq ≤ dropped := by
  have found : firstNew known (record :: rest) = some record := by
    simp [firstNew, new]
  unfold Keeps
  rw [found]
  simp

theorem termAt_succ {replica : Replica} {i term : Nat} (known : replica.termAt (i + 1) = some term) :
    replica.dropped < i + 1 ∧ ∃ inside : i < replica.history.length, replica.history[i].term = term := by
  unfold termAt at known
  rw [if_neg (Nat.succ_ne_zero i), Nat.add_sub_cancel] at known
  split_ifs at known with kept
  obtain ⟨entry, found, rfl⟩ := Option.map_eq_some_iff.mp known
  obtain ⟨inside, rfl⟩ := List.getElem?_eq_some_iff.mp found
  exact ⟨kept, inside, rfl⟩

theorem history_cutAt (replica : Replica) (seq : Nat) :
    (replica.cutAt seq).history = replica.history.take (seq - 1) := by
  unfold cutAt
  simp only
  split_ifs <;> rfl

theorem dropped_cutAt (replica : Replica) (seq : Nat) :
    (replica.cutAt seq).dropped = replica.dropped := by
  unfold cutAt
  simp only
  split_ifs <;> rfl

theorem committed_cutAt (replica : Replica) (seq : Nat) :
    (replica.cutAt seq).committed ≤ replica.committed := by
  unfold cutAt
  simp only
  split_ifs
  · exact Nat.le_refl _
  · exact Nat.zero_le _

namespace Stands

variable {replica : Replica} {rep : Replicator}

/-- A slice that begins where the history ends is appended. -/
theorem appendSlice {leader : List LogEntry} (numbered : Numbered leader) (i : Nat)
    (inside : i ≤ leader.length) (stands : replica.Stands rep)
    (ends : replica.history.length = i) :
    ∃ rep', rep.appendRecords ((leader.drop i).map LogEntry.record) = (rep', true) ∧
      Stands { replica with history := replica.history ++ leader.drop i } rep' := by
  induction left : leader.length - i generalizing i replica rep with
  | zero =>
    have all : leader.drop i = [] := List.drop_eq_nil_of_le (by omega)
    rw [all, List.append_nil]
    exact ⟨rep, rfl, stands⟩
  | succ left ih =>
    have more : i < leader.length := by omega
    have seq : leader[i].record.seq = i + 1 := numbered i more
    have unknown : rep.log.termAt leader[i].record.seq = none := by
      cases known : rep.log.termAt leader[i].record.seq with
      | none => rfl
      | some term =>
        have reached := stands.log.le_of_termAt known
        omega
    rw [List.drop_eq_getElem_cons more, List.map_cons, Replicator.appendRecords_unknown unknown]
    rcases stands.storeFrom_cases leader[i].record ((leader.drop (i + 1)).map LogEntry.record) with
      ⟨gap, _⟩ | ⟨_, rep', stored, grown⟩
    · exact absurd (by omega) gap
    · have ends' : (replica.history ++ [leader[i]]).length = i + 1 := by
        rw [List.length_append, List.length_singleton, ends]
      obtain ⟨rep'', appended, stands'⟩ := ih (i + 1) more grown ends' (by omega)
      refine ⟨rep'', stored.trans appended, ?_⟩
      rw [List.append_assoc] at stands'
      exact stands'

/-- **A slice of the leader's log**, from a position that the follower's log reaches, is kept or takes the
place of whatever the follower has from there on. -/
theorem absorbSlice {leader lead : List LogEntry} (front : leader <+: lead) (numbered : Numbered lead)
    (stands : replica.Stands rep) (matching : Replicator.Matches replica.history lead)
    (agree : replica.history.take replica.committed = lead.take replica.committed) (i : Nat)
    (inside : i ≤ leader.length) (held : i ≤ replica.history.length) :
    ∃ rep', rep.appendRecords ((leader.drop i).map LogEntry.record) = (rep', true) ∧
      ((Keeps replica.termAt replica.dropped ((leader.drop i).map LogEntry.record) ∧
          replica.Stands rep') ∨
        (¬ Keeps replica.termAt replica.dropped ((leader.drop i).map LogEntry.record) ∧
          ∃ replica' : Replica, replica'.Stands rep' ∧ replica'.committed ≤ replica.committed ∧
            replica'.dropped = replica.dropped ∧
              replica'.history = replica.history.take i ++ leader.drop i)) := by
  have numbered' : Numbered leader := by
    rw [List.prefix_iff_eq_take.mp front]
    exact numbered.take _
  -- Induction on the number of records left; the log has the next one, or it is the first it has not.
  induction left : leader.length - i generalizing i with
  | zero =>
    have noTail : leader.drop i = [] := List.drop_eq_nil_of_le (by omega)
    rw [noTail]
    exact ⟨rep, rfl, Or.inl ⟨nofun, stands⟩⟩
  | succ left ih =>
    have more : i < leader.length := by omega
    have inLead : i < lead.length := Nat.lt_of_lt_of_le more front.length_le
    have same : leader[i] = lead[i] := front.getElem more
    have seq : leader[i].record.seq = i + 1 := same ▸ numbered i inLead
    have slice : (leader.drop i).map LogEntry.record =
        leader[i].record :: (leader.drop (i + 1)).map LogEntry.record := by
      rw [List.drop_eq_getElem_cons more, List.map_cons]
    -- A log that ends here takes the rest of the slice.
    have appends : ∀ {replica' : Replica} {rep' : Replicator}, replica'.Stands rep' →
        replica'.history = replica.history.take i →
          ∃ rep'', rep'.appendRecords ((leader.drop i).map LogEntry.record) = (rep'', true) ∧
            Stands { replica' with history := replica.history.take i ++ leader.drop i } rep'' := by
      intro replica' rep' stands' ends
      have length : replica'.history.length = i := by
        rw [ends, List.length_take]
        omega
      rw [← ends]
      exact stands'.appendSlice numbered' i inside length
    rcases stands.appendRecords_cases leader[i].record ((leader.drop (i + 1)).map LogEntry.record) with
      ⟨known, goes⟩ | ⟨unknown, goes⟩ | ⟨⟨term, known, differ⟩, conflict⟩
    · have known' := known
      rw [seq] at known'
      obtain ⟨_, reached, sameTerm⟩ := termAt_succ known'
      have agree' := matching i reached inLead (sameTerm.trans (congrArg LogEntry.term same))
      have entry : replica.history[i] = leader[i] := by
        have here := congrArg (·[i]?) agree'
        simp only [List.getElem?_take, if_pos (Nat.lt_succ_self i), List.getElem?_eq_getElem reached,
          List.getElem?_eq_getElem inLead] at here
        rw [same]
        exact Option.some.inj here
      obtain ⟨rep', appended, outcome⟩ := ih (i + 1) more reached (by omega)
      rw [slice, goes, keeps_cons_of_known known]
      have joined : replica.history.take (i + 1) ++ leader.drop (i + 1) =
          replica.history.take i ++ leader[i] :: leader.drop (i + 1) := by
        rw [← List.take_append_getElem reached, entry, List.append_assoc, List.singleton_append]
      rw [List.drop_eq_getElem_cons more, ← joined]
      exact ⟨rep', appended, outcome⟩
    · -- The log does not have the entry: it has dropped it, or it ends right before.
      have new : replica.termAt leader[i].record.seq ≠ some leader[i].record.term := by
        rw [unknown]
        exact nofun
      have dropped : replica.dropped ≤ replica.history.length := stands.dropped ▸ stands.log.compacted
      by_cases gone : i + 1 ≤ replica.dropped
      · rw [slice, goes, keeps_cons_of_new new]
        rcases stands.storeFrom_cases leader[i].record ((leader.drop (i + 1)).map LogEntry.record) with
          ⟨_, rep', stored, stands'⟩ | ⟨next, _⟩
        · exact ⟨rep', stored, Or.inl ⟨by omega, stands'⟩⟩
        · omega
      · have ends : replica.history.length = i := by
          unfold termAt at unknown
          rw [seq, if_neg (Nat.succ_ne_zero i), if_pos (by omega), Nat.add_sub_cancel,
            Option.map_eq_none_iff, List.getElem?_eq_none_iff] at unknown
          omega
        obtain ⟨rep', appended, stands'⟩ :=
          appends stands (List.take_of_length_le (Nat.le_of_eq ends)).symm
        refine ⟨rep', appended, Or.inr ⟨?_, _, stands', Nat.le_refl _, rfl, rfl⟩⟩
        rw [slice, keeps_cons_of_new new]
        omega
    · rcases conflict with ⟨settled, _⟩ | ⟨uncommitted, kept, reached, rep', goes, cut⟩
      · -- Committed entries are the leader's: the loop never refuses.
        exfalso
        rw [seq] at known settled
        obtain ⟨_, reached, rfl⟩ := termAt_succ known
        have here := congrArg (·[i]?) agree
        simp only [List.getElem?_take, if_pos (Nat.lt_of_succ_le settled),
          List.getElem?_eq_getElem reached, List.getElem?_eq_getElem inLead] at here
        rw [Option.some.inj here, ← same] at differ
        exact differ rfl
      · have new : replica.termAt leader[i].record.seq ≠ some leader[i].record.term := by
          rw [known]
          simpa using differ
        have ends : (replica.cutAt leader[i].record.seq).history = replica.history.take i := by
          rw [history_cutAt, seq, Nat.add_sub_cancel]
        have beyond : rep'.log.termAt leader[i].record.seq = none := by
          cases found : rep'.log.termAt leader[i].record.seq with
          | none => rfl
          | some _ =>
            have reached' := cut.log.le_of_termAt found
            rw [ends, List.length_take] at reached'
            omega
        obtain ⟨rep'', appended, stands'⟩ := appends cut ends
        refine ⟨rep'', ?_, Or.inr ⟨?_, _, stands', committed_cutAt _ _, dropped_cutAt _ _, rfl⟩⟩
        · rw [slice, goes, ← Replicator.appendRecords_unknown beyond, ← slice]
          exact appended
        · rw [slice, keeps_cons_of_new new]
          omega

end Stands

end Replica

namespace Replicator

/-! ### The handler -/

/-- The follower answers the message with `ok`, over a link that takes the answer. -/
def Accepts (rep : Replicator) (source : NodeId) (msg : AppendEntries) : Prop :=
  ∃ answer, (rep.handleAppendEntries { link := {} } source msg).2.sent =
    [(source, .appendResponse answer)] ∧ answer.ok = true

theorem accepts_iff {rep : Replicator} {source : NodeId} {msg : AppendEntries} :
    rep.Accepts source msg ↔
      rep.term ≤ msg.term ∧ rep.log.termAt msg.prevSeq = some msg.prevTerm ∧
        (rep.appendRecords msg.entries).2 = true := by
  unfold Accepts handleAppendEntries
  by_cases stale : msg.term < rep.term
  · simp [stale, Transport.send, response, Nat.not_le.mpr stale]
  · have current := Nat.le_of_not_lt stale
    cases known : rep.log.termAt msg.prevSeq with
    | none => simp [stale, Transport.send, response]
    | some prevTerm =>
      by_cases mismatch : prevTerm = msg.prevTerm
      · generalize rep.appendRecords msg.entries = result
        obtain ⟨absorbed, accepted⟩ := result
        cases accepted <;> simp [stale, current, mismatch, Transport.send, response]
      · simp [stale, mismatch, Transport.send, response]

theorem handleAppendEntries_of_accepts {rep : Replicator} {source : NodeId} {msg : AppendEntries}
    (current : rep.term ≤ msg.term) (known : rep.log.termAt msg.prevSeq = some msg.prevTerm)
    {absorbed : Replicator} (appended : rep.appendRecords msg.entries = (absorbed, true))
    (net : Transport) :
    (rep.handleAppendEntries net source msg).1 =
      (absorbed.adoptCommit msg.commitSeq).applyCommitted := by
  unfold handleAppendEntries
  rw [if_neg (Nat.not_lt.mpr current), known]
  simp only [ne_eq, not_true_eq_false, if_false, appended]

/-- Adopting a commit point and applying up to it leaves the log as it is. -/
theorem settle_points (rep : Replicator) (commitSeq : Nat) (inside : rep.commitIndex ≤ rep.log.lastSeq) :
    (rep.adoptCommit commitSeq).applyCommitted.log = rep.log ∧
      (rep.adoptCommit commitSeq).applyCommitted.commitIndex =
        max rep.commitIndex (min commitSeq rep.log.lastSeq) := by
  obtain ⟨engine, lastApplied, applied, stats, _, equation⟩ :=
    applyLoop_frame ((rep.adoptCommit commitSeq).commitIndex -
      (rep.adoptCommit commitSeq).lastApplied) (rep.adoptCommit commitSeq)
  have applies : (rep.adoptCommit commitSeq).applyCommitted = _ := equation
  rw [applies]
  unfold adoptCommit
  split_ifs with more
  · refine ⟨rfl, ?_⟩
    show min commitSeq rep.log.lastSeq = _
    omega
  · refine ⟨rfl, ?_⟩
    show rep.commitIndex = _
    omega

/-! ### Sharing what is committed -/

/-- Every entry at or below the commit point is the one of the leader's history. -/
def SharesCommitted (rep : Replicator) (lead : List LogEntry) : Prop :=
  ∀ seq entry, seq ≤ rep.commitIndex → rep.log.at? seq = some entry → lead[seq - 1]? = some entry

/-- If the message passes the checks, the leader vouches for every entry that it declares committed and
does not replace: those before the message, and all of them where the log keeps what it has. -/
def Vouched (rep : Replicator) (lead : List LogEntry) (msg : AppendEntries) : Prop :=
  rep.term ≤ msg.term → rep.log.termAt msg.prevSeq = some msg.prevTerm →
    ∀ seq entry, seq ≤ msg.commitSeq → rep.log.at? seq = some entry →
      (seq ≤ msg.prevSeq ∨ Replica.Keeps rep.log.termAt rep.log.truncatedThrough msg.entries) →
        lead[seq - 1]? = some entry

theorem at?_of_stands {replica : Replica} {rep : Replicator} (stands : replica.Stands rep) {seq : Nat}
    {entry : LogEntry} :
    rep.log.at? seq = some entry ↔ replica.dropped < seq ∧ replica.history[seq - 1]? = some entry := by
  rw [stands.log.at?_eq, stands.dropped]
  split_ifs with kept
  · simp [kept]
  · simp [kept]

/-- After the handler, in terms of the replica that the entry loop leaves. -/
theorem sharesCommitted_settle {replica : Replica} {absorbed : Replicator}
    (stands : replica.Stands absorbed) (commitSeq : Nat) (lead : List LogEntry) :
    (absorbed.adoptCommit commitSeq).applyCommitted.SharesCommitted lead ↔
      ∀ seq entry, seq ≤ max replica.committed (min commitSeq replica.history.length) →
        replica.dropped < seq → replica.history[seq - 1]? = some entry →
          lead[seq - 1]? = some entry := by
  have inside : absorbed.commitIndex ≤ absorbed.log.lastSeq := by
    rw [stands.log.lastSeq, stands.committed]
    exact stands.inside
  obtain ⟨sameLog, points⟩ := absorbed.settle_points commitSeq inside
  unfold SharesCommitted
  rw [sameLog, points, stands.log.lastSeq, stands.committed]
  simp only [at?_of_stands stands, and_imp]

/-- **A follower commits only what it shares with the leader** exactly when the leader vouches for what
the message leaves in place. -/
theorem sharesCommitted_iff {leader rep : Replicator} {lead held : List LogEntry}
    (leads : leader.log.Retains lead) (follows : rep.log.Retains held)
    (base : rep.snapshotBase = none) (matching : Matches held lead)
    (inside : rep.commitIndex ≤ held.length)
    (agree : held.take rep.commitIndex = lead.take rep.commitIndex) {msg : AppendEntries}
    (built : leader.AppendOf msg) (net : Transport) (source : NodeId) :
    (rep.Accepts source msg → (rep.handleAppendEntries net source msg).1.SharesCommitted lead) ↔
      rep.Vouched lead msg := by
  obtain ⟨front, isFront, carries⟩ := built.carries leads
  unfold Vouched
  by_cases checked : rep.term ≤ msg.term ∧ rep.log.termAt msg.prevSeq = some msg.prevTerm
  swap
  · refine iff_of_true (fun accepted => ?_) fun current known => absurd ⟨current, known⟩ checked
    obtain ⟨current, known, _⟩ := accepts_iff.mp accepted
    exact absurd ⟨current, known⟩ checked
  obtain ⟨current, known⟩ := checked
  let replica : Replica :=
    { history := held
      dropped := rep.log.truncatedThrough
      applied := rep.lastApplied
      committed := rep.commitIndex
      engine := rep.engine }
  have stands : replica.Stands rep := ⟨follows, rfl, rfl, rfl, rfl, base, inside⟩
  have reached : msg.prevSeq ≤ held.length := follows.le_of_termAt known
  have settled : ∀ seq entry, seq ≤ rep.commitIndex → replica.dropped < seq →
      held[seq - 1]? = some entry → lead[seq - 1]? = some entry := by
    intro seq entry below positive found
    have here := congrArg (·[seq - 1]?) agree
    simp only [List.getElem?_take, if_pos (show seq - 1 < rep.commitIndex by omega), found] at here
    exact here.symm
  obtain ⟨absorbed, appended, outcome⟩ :=
    stands.absorbSlice isFront leads.numbered matching agree msg.prevSeq carries.inside reached
  rw [← carries.entries] at appended outcome
  have accepted : rep.Accepts source msg := accepts_iff.mpr ⟨current, known, by rw [appended]⟩
  have sameTerms : replica.termAt = rep.log.termAt := funext fun seq => (stands.termAt_eq seq).symm
  rw [sameTerms] at outcome
  rw [handleAppendEntries_of_accepts current known appended net]
  simp only [accepted, current, known, forall_const, at?_of_stands stands, and_imp]
  rcases outcome with ⟨keeps, stands'⟩ | ⟨replaces, replica', stands', below, sameDropped, joined⟩
  · -- The log stays as it is, with whatever lies beyond the message.
    rw [sharesCommitted_settle stands']
    constructor
    · intro shares seq entry declared kept found _
      have short := (List.getElem?_eq_some_iff.mp found).1
      exact shares seq entry (by omega) kept found
    · intro vouched seq entry point kept found
      by_cases old : seq ≤ rep.commitIndex
      · exact settled seq entry old kept found
      · have point' : seq ≤ max rep.commitIndex (min msg.commitSeq held.length) := point
        exact vouched seq entry (by omega) kept found (Or.inr keeps)
  · -- What the message carries takes the place of everything behind its predecessor.
    have joined' : replica'.history = held.take msg.prevSeq ++ front.drop msg.prevSeq := joined
    rw [sharesCommitted_settle stands', joined', sameDropped]
    have length : (held.take msg.prevSeq).length = msg.prevSeq := by
      rw [List.length_take]
      omega
    have before : ∀ seq, 0 < seq → seq ≤ msg.prevSeq →
        (held.take msg.prevSeq ++ front.drop msg.prevSeq)[seq - 1]? = held[seq - 1]? := by
      intro seq positive early
      rw [List.getElem?_append_left (by omega), List.getElem?_take, if_pos (by omega)]
    constructor
    · intro shares seq entry declared kept found covered
      have early : seq ≤ msg.prevSeq := covered.resolve_right replaces
      refine shares seq entry ?_ kept ((before seq (by omega) early).trans found)
      rw [List.length_append, length]
      omega
    · intro vouched seq entry point kept found
      by_cases early : seq ≤ msg.prevSeq
      · rw [before seq (by omega) early] at found
        by_cases old : seq ≤ rep.commitIndex
        · exact settled seq entry old kept found
        · exact vouched seq entry (by
            have below' : replica'.committed ≤ rep.commitIndex := below
            omega) kept found (Or.inl early)
      · rw [List.getElem?_append_right (by omega), length, List.getElem?_drop] at found
        have position : msg.prevSeq + (seq - 1 - msg.prevSeq) = seq - 1 := by omega
        rw [position] at found
        obtain ⟨inFront, rfl⟩ := List.getElem?_eq_some_iff.mp found
        exact List.prefix_iff_getElem?.mp isFront _ inFront

/-! ### A tail that no message covers -/

/-- The entry loop leaves a log that has every record as it is. -/
theorem appendRecords_known {rep : Replicator} {held : List LogEntry} (retains : rep.log.Retains held)
    {records : List LogRecord}
    (known : ∀ record ∈ records, rep.log.termAt record.seq = some record.term) :
    rep.appendRecords records = (rep, true) := by
  induction records with
  | nil => rfl
  | cons record rest ih =>
    have here := known record List.mem_cons_self
    have inside : record.seq ≤ rep.log.lastSeq := retains.lastSeq ▸ retains.le_of_termAt here
    rw [appendRecords]
    simp only [here, if_pos inside, if_true]
    exact ih fun record member => known record (List.mem_cons_of_mem _ member)

/-- `n` entries of term 1, and one more. -/
def ledger (n lastTerm : Nat) : List LogEntry :=
  (List.range n).map (fun i => { seq := i + 1, term := 1, command := .cancelOrder { id := 1 } }) ++
    [{ seq := n + 1, term := lastTerm, command := .cancelOrder { id := 1 } }]

/-- The leader of term 2, which has committed everything it has. -/
def ledgerLeader (n : Nat) : Replicator :=
  { self := 1
    role := .primary
    mode := .asynchronous
    engine := { instrument := 1 }
    clusterSize := 3
    term := 2
    log := { entries := ledger n 2, lastSeq := n + 1 }
    commitIndex := n + 1 }

/-- A follower of the leader of term 1 before, which still has its last entry. -/
def ledgerFollower (n : Nat) : Replicator :=
  { self := 2
    role := .backup
    mode := .asynchronous
    engine := { instrument := 1 }
    clusterSize := 3
    term := 2
    log := { entries := ledger n 1, lastSeq := n + 1 } }

theorem numbered_ledger (n lastTerm : Nat) : Numbered (ledger n lastTerm) := by
  refine Numbered.append ?_ (by simp)
  intro i inside
  simp

theorem length_ledger (n lastTerm : Nat) : (ledger n lastTerm).length = n + 1 := by
  simp [ledger]

theorem retains_ledgerLeader (n : Nat) : (ledgerLeader n).log.Retains (ledger n 2) :=
  ⟨numbered_ledger n 2, rfl, Nat.zero_le _, rfl, (length_ledger n 2).symm⟩

theorem retains_ledgerFollower (n : Nat) : (ledgerFollower n).log.Retains (ledger n 1) :=
  ⟨numbered_ledger n 1, rfl, Nat.zero_le _, rfl, (length_ledger n 1).symm⟩

theorem matches_ledger (n : Nat) : Matches (ledger n 1) (ledger n 2) := by
  intro k held inside sameTerm
  have short : k ≠ n := by
    rintro rfl
    simp [ledger] at sameTerm
  have within : k + 1 ≤ n := by
    rw [length_ledger] at held
    omega
  simp [ledger, List.take_append, within]

/-- The first batch of the leader is what the two logs share. -/
theorem appendRecords_ledger {n : Nat} (long : kMaxEntriesPerAppend ≤ n) :
    (ledgerFollower n).appendRecords ((ledgerLeader n).batchAppend 1).entries =
      (ledgerFollower n, true) := by
  refine appendRecords_known (retains_ledgerFollower n) fun record member => ?_
  have batch : ((ledgerLeader n).batchAppend 1).entries =
      ((ledger n 2).take kMaxEntriesPerAppend).map LogEntry.record := by
    show ((ledgerLeader n).log.range 1 kMaxEntriesPerAppend).map LogEntry.record = _
    rw [(retains_ledgerLeader n).range_eq (by decide) Nat.zero_lt_one
      (by simp [length_ledger])]
    rfl
  rw [batch] at member
  obtain ⟨entry, inBatch, rfl⟩ := List.mem_map.mp member
  obtain ⟨i, inside, rfl⟩ := List.mem_iff_getElem.mp inBatch
  have early : i < n := by
    rw [List.length_take] at inside
    omega
  rw [(retains_ledgerFollower n).termAt_eq, (retains_ledgerFollower n).at?_eq]
  simp [LogEntry.record, ledger, ledgerFollower, early, List.getElem?_append_left]

instance (known : Nat → Option Nat) (dropped : Nat) (records : List LogRecord) :
    Decidable (Replica.Keeps known dropped records) :=
  inferInstanceAs (Decidable (∀ record ∈ Replica.firstNew known records, record.seq ≤ dropped))

/-- One batch covers a short log: the entry of term 1 gives way. -/
theorem sharesCommitted_shortLedger :
    ((ledgerFollower 1).handleAppendEntries { link := {} } 1
      ((ledgerLeader 1).batchAppend 1)).1.SharesCommitted (ledger 1 2) := by
  have accepted : (ledgerFollower 1).Accepts 1 ((ledgerLeader 1).batchAppend 1) :=
    accepts_iff.mpr (by decide +kernel)
  refine (sharesCommitted_iff (retains_ledgerLeader 1) (retains_ledgerFollower 1) rfl
    (matches_ledger 1) (Nat.zero_le _) rfl
    (.batch 1 (by decide) (by decide +kernel)) { link := {} } 1).mpr ?_ accepted
  intro _ _ seq entry _ found covered
  rcases covered with early | keeps
  · rw [Nat.le_zero.mp early] at found
    cases found
  · exact absurd keeps (by decide +kernel)

/-- **A full batch leaves the last entry of a longer log unchecked**, and the follower commits it. -/
theorem tail_committed :
    (ledgerLeader 512).log.Retains (ledger 512 2) ∧ (ledgerFollower 512).log.Retains (ledger 512 1) ∧
      Matches (ledger 512 1) (ledger 512 2) ∧
        (ledgerLeader 512).AppendOf ((ledgerLeader 512).batchAppend 1) ∧
          (ledgerFollower 512).Accepts 1 ((ledgerLeader 512).batchAppend 1) ∧
            ¬ ((ledgerFollower 512).handleAppendEntries { link := {} } 1
              ((ledgerLeader 512).batchAppend 1)).1.SharesCommitted (ledger 512 2) := by
  have kept := appendRecords_ledger (Nat.le_refl 512)
  have accepted : (ledgerFollower 512).Accepts 1 ((ledgerLeader 512).batchAppend 1) :=
    accepts_iff.mpr ⟨by decide, rfl, by rw [kept]⟩
  refine ⟨retains_ledgerLeader 512, retains_ledgerFollower 512, matches_ledger 512,
    .batch 1 (by decide) (by decide +kernel), accepted, ?_⟩
  rw [handleAppendEntries_of_accepts (by decide) rfl kept]
  obtain ⟨sameLog, points⟩ := (ledgerFollower 512).settle_points
    ((ledgerLeader 512).batchAppend 1).commitSeq (Nat.zero_le _)
  intro shares
  have last : (ledger 512 2)[512]? = some ⟨513, 1, .cancelOrder { id := 1 }⟩ := by
    refine shares 513 _ ?_ ?_
    · rw [points]
      decide
    · rw [sameLog]
      decide +kernel
  revert last
  decide +kernel

end Replicator

end Sententia
