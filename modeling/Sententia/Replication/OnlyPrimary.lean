/-
**Who sends `AppendEntries`.** Every entry point of a replicator checks the role before it sends, but for
one: the end of `handleAppendResponse` sends what the respondent lacks, in whatever role. So a backup
sends an `AppendEntries` exactly when it is handed a response of no later term after which there is
something to send to the respondent (`onlyPrimary_iff`).
-/

import Sententia.Library.Transition
import Sententia.Replication.ReplicatorSpec

namespace Sententia

open Library

namespace Replicator

def step (rep : Replicator) (call : Call) : Option Replicator := some (rep.perform call).1

/-- The call sends an `AppendEntries` only if the node is a primary. -/
def LeadsOnly (rep : Replicator) (call : Call) : Prop :=
  ∀ message ∈ (rep.perform call).2.sent, ∀ append, message.2 = .appendEntries append →
    rep.role = .primary

/-- A backup is handed no response, of its own or an earlier term, after which it has unsent entries or an
unsent commit point for the respondent; unless the transport refuses the send. -/
def Unasked (rep : Replicator) : Call → Prop
  | .onMessage source (.appendResponse msg) link =>
    rep.role ≠ .primary → msg.term ≤ rep.term → rep.needsAppend (rep.respondent source msg) = true →
      rep.hasAppend (rep.respondent source msg) → link.sendResult 0 ≠ .ok
  | _ => True

/-- An `AppendEntries` is answered with an `AppendResponse`. -/
theorem handleAppendEntries_replies (rep : Replicator) (link : Link) (source : NodeId)
    (msg : AppendEntries) :
    ∃ answer, (rep.handleAppendEntries { link } source msg).2 =
      (({ link } : Transport).send source (.appendResponse answer)).1 := by
  unfold handleAppendEntries
  split_ifs
  · exact ⟨_, rfl⟩
  · cases rep.log.termAt msg.prevSeq with
    | none => exact ⟨_, rfl⟩
    | some prevTerm =>
      simp only
      split_ifs
      · exact ⟨_, rfl⟩
      · generalize rep.appendRecords msg.entries = result
        obtain ⟨absorbed, accepted⟩ := result
        cases accepted with
        | false => exact ⟨_, rfl⟩
        | true => exact ⟨_, rfl⟩

/-- A backup that sends nothing but responses leads nobody. -/
theorem leadsOnly_of_nil {rep : Replicator} {call : Call} (silent : (rep.perform call).2.sent = []) :
    rep.LeadsOnly call := by
  intro message member
  rw [silent] at member
  exact absurd member List.not_mem_nil

/-- What a backup sends on a response is all `AppendEntries`. -/
theorem leadsOnly_response_iff {rep : Replicator} (following : rep.role ≠ .primary) (source : NodeId)
    (msg : AppendResponse) (link : Link) :
    rep.LeadsOnly (.onMessage source (.appendResponse msg) link) ↔
      (rep.handleAppendResponse { link } source msg).2.sent = [] := by
  constructor
  · intro leadsOnly
    rw [List.eq_nil_iff_forall_not_mem]
    intro message member
    obtain ⟨append, isAppend, _⟩ :=
      (rep.handleAppendResponse_steady link source msg).appends message member
    exact following (leadsOnly message member append isAppend)
  · exact fun silent => leadsOnly_of_nil silent

/-- **Each call** of a replicator leads only as a primary, but for responses. -/
theorem leadsOnly_iff (rep : Replicator) (call : Call) : rep.LeadsOnly call ↔ rep.Unasked call := by
  by_cases leading : rep.role = .primary
  · refine iff_of_true (fun _ _ _ _ => leading) ?_
    unfold Unasked
    split
    · exact fun following => absurd leading following
    · trivial
  · cases call with
    | submit cmd link =>
      refine iff_of_true (leadsOnly_of_nil ?_) trivial
      show (rep.submit { link } cmd).2.1.sent = []
      rw [submit_idle leading]
    | tick link =>
      refine iff_of_true (leadsOnly_of_nil ?_) trivial
      show (rep.tick { link }).2.sent = []
      rw [tick_idle leading]
    | compactLog => exact iff_of_true (leadsOnly_of_nil rfl) trivial
    | onPeerUp id link =>
      refine iff_of_true (leadsOnly_of_nil ?_) trivial
      show (rep.onPeerUp { link } id).2.sent = []
      rw [onPeerUp_idle leading]
    | onPeerDown id => exact iff_of_true (leadsOnly_of_nil rfl) trivial
    | setRole role => exact iff_of_true (leadsOnly_of_nil rfl) trivial
    | setTerm term => exact iff_of_true (leadsOnly_of_nil rfl) trivial
    | onMessage source msg link =>
      cases msg with
      | appendResponse answer =>
        rw [leadsOnly_response_iff leading, handleAppendResponse_sent_eq_nil leading]
        exact ⟨fun quiet _ => quiet, fun quiet => quiet leading⟩
      | appendEntries append =>
        refine iff_of_true (fun message member other isAppend => ?_) trivial
        obtain ⟨answer, replies⟩ := rep.handleAppendEntries_replies link source append
        have sent : message ∈ (({ link } : Transport).send source (.appendResponse answer)).1.sent :=
          replies ▸ member
        rcases ({ link } : Transport).sent_send source (.appendResponse answer) with
          ⟨_, same⟩ | ⟨_, same⟩
        · rw [same] at sent
          rw [List.mem_singleton.mp sent] at isAppend
          cases isAppend
        · rw [same] at sent
          exact absurd sent List.not_mem_nil
      | hello msg => exact iff_of_true (leadsOnly_of_nil rfl) trivial
      | heartbeat msg => exact iff_of_true (leadsOnly_of_nil rfl) trivial
      | commandForward msg => exact iff_of_true (leadsOnly_of_nil rfl) trivial
      | eventAck msg => exact iff_of_true (leadsOnly_of_nil rfl) trivial
      | requestVote msg => exact iff_of_true (leadsOnly_of_nil rfl) trivial
      | voteResponse msg => exact iff_of_true (leadsOnly_of_nil rfl) trivial

/-- **Only a primary leads**, in exactly those runs in which no backup is asked for more by a response. -/
theorem onlyPrimary_iff (rep : Replicator) (calls : List Call) :
    Guarded step LeadsOnly rep calls ↔ Guarded step Unasked rep calls :=
  guarded_congr (fun rep call => rep.leadsOnly_iff call) rep calls

/-- Node 1 is primary in term 1, connects to node 2, accepts a command and is demoted in term 2; then
node 2's response to the probe arrives. -/
def lateResponse : List Call :=
  [.setTerm 1, .setRole .primary, .onPeerUp 2 {}, .submit (.cancelOrder { id := 7 }) {}, .setTerm 2,
    .setRole .backup]

/-- The former primary sends its entry, stamped with a term it never won. -/
theorem backup_leads :
    ∃ rep, run step { self := 1, role := .backup, mode := .asynchronous, engine := { instrument := 1 } }
        lateResponse = some rep ∧ rep.role = .backup ∧
      (rep.perform (.onMessage 2 (.appendResponse { term := 1, nodeId := 2, ok := true }) {})).2.sent =
        [(2, .appendEntries {
          term := 2
          leaderId := 1
          entries := [{ seq := 1, term := 1, command := .cancelOrder { id := 7 } }] })] ∧
      ¬ rep.LeadsOnly (.onMessage 2 (.appendResponse { term := 1, nodeId := 2, ok := true }) {}) := by
  have sends : ∃ rep, run step
      { self := 1, role := .backup, mode := .asynchronous, engine := { instrument := 1 } }
        lateResponse = some rep ∧ rep.role = .backup ∧
      (rep.perform (.onMessage 2 (.appendResponse { term := 1, nodeId := 2, ok := true }) {})).2.sent =
        [(2, .appendEntries {
          term := 2
          leaderId := 1
          entries := [{ seq := 1, term := 1, command := .cancelOrder { id := 7 } }] })] :=
    ⟨_, (Option.some_get (by decide +kernel)).symm, by decide +kernel, by decide +kernel⟩
  obtain ⟨rep, ran, following, sent⟩ := sends
  refine ⟨rep, ran, following, sent, fun leadsOnly => ?_⟩
  have leading := leadsOnly _ (by rw [sent]; exact List.mem_singleton_self _) _ rfl
  rw [following] at leading
  cases leading

end Replicator

end Sententia
