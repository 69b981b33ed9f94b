import Kafkaman.Dispatch.System
import Mathlib.Data.List.InsertIdx
import Mathlib.Logic.Function.Basic

/-!
# Dispatch.Sessions — any number of dispatchers on one received relation

A claim transaction holds its row from the claim to its end, and a failure whose savepoint rollback
failed is recorded afterwards, on a connection that holds nothing.  The two are apart here: `claims`
are the rows of the open claim transactions, `pending` the failures on their way to a fresh
connection.  `history` is a history variable: the failures recorded against a row since its history
was last cleared.  A dispatcher that panics while it schedules a retry loses its claim or its pending
failure (`lose`, `crash`); the steps that record one are not limited to retries that can be scheduled.

* `Step`, `step_of_next` — everything a step can do;
* `Held` — a claimed row stays as it was claimed until its own transaction ends;
* `simulates_dispatch` — the cycles of `Dispatch.System` are runs of this system.
-/

namespace Kafkaman
namespace Dispatch
namespace Sessions

open Lib Received

/-- The entry `record_received_failure` appends. -/
def entry (failure : ReceivedFailureRecord) : ReceivedError :=
  ReceivedError.new failure.disposition.kind failure.message failure.occurredAt
    (some failure.disposition.stage)

structure State where
  received : ReceivedTable
  /-- The rows of the open claim transactions, each locked by its own. -/
  claims : List ReceivedRow
  /-- Failures about to be recorded on a fresh connection. -/
  pending : List ReceivedFailureRecord
  history : Uuid → List ReceivedError

inductive Action where
  | ingest (insert : InsertReceivedRow) (now : Timestamp)
  | claim (dueAt : Instant) (held : Uuid → Bool)
  /-- The savepoint body held and the transaction commits. -/
  | settle (index : Nat) (processedAt : Instant)
  /-- The failure is recorded in the claim transaction, which commits. -/
  | fail (index : Nat) (policy : RetryPolicy) (disposition : FailureDisposition)
      (message : String) (occurredAt : Instant) (backoff : Nanos)
  /-- The savepoint rollback failed: the transaction is given up. -/
  | unwind (index : Nat) (disposition : FailureDisposition) (message : String)
      (occurredAt : Instant)
  /-- The transaction ends without effect. -/
  | lose (index : Nat)
  | record (index : Nat) (policy : RetryPolicy) (backoff : Nanos)
  /-- The process dies before it has recorded the failure. -/
  | crash (index : Nat)
  | redrive (replay : Replay) (held : Uuid → Bool)

/-- The policy a step records a failure under. -/
def Action.policy? : Action → Option RetryPolicy
  | .fail _ policy _ _ _ _ | .record _ policy _ => some policy
  | .ingest _ _ | .claim _ _ | .settle _ _ | .unwind _ _ _ _ | .lose _ | .crash _
  | .redrive _ _ => none

namespace State

/-- Rows `SKIP LOCKED` passes over: those of the open claims, and those others have. -/
def locked (s : State) (held : Uuid → Bool) (messageId : Uuid) : Bool :=
  held messageId || s.claims.any fun row => row.messageId = messageId

/-- `record_received_failure`, with the history it makes. -/
def note (s : State) (policy : RetryPolicy) (failure : ReceivedFailureRecord)
    (backoff : Nanos) : State :=
  let recorded := recordReceivedFailure policy failure backoff s.received
  { s with
    received := recorded.1
    history :=
      if recorded.2 = .updated then
        Function.update s.history failure.messageId
          (s.history failure.messageId ++ [entry failure])
      else
        s.history }

end State

/-- The rows a redrive updates. -/
def redriven (replay : Replay) (locked : Uuid → Bool) (t : ReceivedTable) (row : ReceivedRow) :
    Bool :=
  (redriveCandidates replay locked t).any (fun c => c.messageId = row.messageId) &&
    replayFilter replay row

theorem mem_redrive {replay : Replay} {locked : Uuid → Bool} {t : ReceivedTable}
    {r' : ReceivedRow} :
    r' ∈ redrive replay locked t ↔
      ∃ r ∈ t, (if redriven replay locked t r then redrivenRow replay.clearHistory r else r) =
        r' :=
  ReceivedTable.mem_updateWhere

/-- What is left of the histories after a redrive. -/
def clearedHistory (replay : Replay) (locked : Uuid → Bool) (t : ReceivedTable)
    (history : Uuid → List ReceivedError) (messageId : Uuid) : List ReceivedError :=
  if replay.clearHistory &&
      t.rows.any (fun row => row.messageId = messageId && redriven replay locked t row) then
    []
  else
    history messageId

def next (s : State) : Action → Option State
  | .ingest insert now =>
      some { s with received := (insertReceivedRow now insert s.received).1 }
  | .claim dueAt held =>
      match claimReceivedRow dueAt (s.locked held) s.received with
      | none => some s
      | some row => some { s with claims := row :: s.claims }
  | .settle index processedAt =>
      (s.claims[index]?).map fun row =>
        { s with
          received := (markReceivedProcessed row.messageId processedAt s.received).1
          claims := s.claims.eraseIdx index }
  | .fail index policy disposition message occurredAt backoff =>
      (s.claims[index]?).map fun row =>
        { s.note policy (ReceivedFailureRecord.of row disposition message occurredAt) backoff with
          claims := s.claims.eraseIdx index }
  | .unwind index disposition message occurredAt =>
      (s.claims[index]?).map fun row =>
        { s with
          claims := s.claims.eraseIdx index
          pending := ReceivedFailureRecord.of row disposition message occurredAt :: s.pending }
  | .lose index => some { s with claims := s.claims.eraseIdx index }
  | .record index policy backoff =>
      match s.pending[index]? with
      | none => none
      | some failure =>
          -- The statement waits for whoever holds the row.
          if ∃ row ∈ s.claims, row.messageId = failure.messageId then
            none
          else
            some { s.note policy failure backoff with pending := s.pending.eraseIdx index }
  | .crash index => some { s with pending := s.pending.eraseIdx index }
  | .redrive replay held =>
      some { s with
        received := redrive replay (s.locked held) s.received
        history := clearedHistory replay (s.locked held) s.received s.history }

def State.initial : State :=
  { received := ReceivedTable.empty
    claims := []
    pending := []
    history := fun _ => [] }

/-- The relation starts out empty, so every row in it was written by an ingest. -/
def system : TransitionSystem State Action :=
  { init := fun s => s = State.initial
    next := next }

/-! ## What a step can do -/

/-- Everything a step can do. -/
inductive Step (s : State) : Action → State → Prop where
  | ingested {insert : InsertReceivedRow} {now : Timestamp} :
      Step s (.ingest insert now)
        { s with received := (insertReceivedRow now insert s.received).1 }
  | claimedNone {dueAt : Instant} {held : Uuid → Bool} :
      Step s (.claim dueAt held) s
  | claimed {dueAt : Instant} {held : Uuid → Bool} {row : ReceivedRow} :
      claimReceivedRow dueAt (s.locked held) s.received = some row →
      Step s (.claim dueAt held) { s with claims := row :: s.claims }
  | settled {index : Nat} {processedAt : Instant} {row : ReceivedRow} :
      s.claims[index]? = some row →
      Step s (.settle index processedAt)
        { s with
          received := (markReceivedProcessed row.messageId processedAt s.received).1
          claims := s.claims.eraseIdx index }
  | failed {index : Nat} {policy : RetryPolicy} {disposition : FailureDisposition}
      {message : String} {occurredAt : Instant} {backoff : Nanos} {row : ReceivedRow} :
      s.claims[index]? = some row →
      Step s (.fail index policy disposition message occurredAt backoff)
        { s.note policy (ReceivedFailureRecord.of row disposition message occurredAt) backoff with
          claims := s.claims.eraseIdx index }
  | unwound {index : Nat} {disposition : FailureDisposition} {message : String}
      {occurredAt : Instant} {row : ReceivedRow} :
      s.claims[index]? = some row →
      Step s (.unwind index disposition message occurredAt)
        { s with
          claims := s.claims.eraseIdx index
          pending := ReceivedFailureRecord.of row disposition message occurredAt :: s.pending }
  | lost {index : Nat} :
      Step s (.lose index) { s with claims := s.claims.eraseIdx index }
  | recorded {index : Nat} {policy : RetryPolicy} {backoff : Nanos}
      {failure : ReceivedFailureRecord} :
      s.pending[index]? = some failure →
      (∀ row ∈ s.claims, row.messageId ≠ failure.messageId) →
      Step s (.record index policy backoff)
        { s.note policy failure backoff with pending := s.pending.eraseIdx index }
  | crashed {index : Nat} :
      Step s (.crash index) { s with pending := s.pending.eraseIdx index }
  | redriven {replay : Replay} {held : Uuid → Bool} :
      Step s (.redrive replay held)
        { s with
          received := redrive replay (s.locked held) s.received
          history := clearedHistory replay (s.locked held) s.received s.history }

theorem step_of_next {s s' : State} {a : Action} (h : system.next s a = some s') :
    Step s a s' := by
  cases a with
  | ingest insert now =>
      cases h
      exact Step.ingested
  | claim dueAt held =>
      simp only [system, next] at h
      split at h
      · cases h
        exact Step.claimedNone
      · rename_i row hclaim
        cases h
        exact Step.claimed hclaim
  | settle index processedAt =>
      rcases Option.map_eq_some_iff.1 h with ⟨row, hrow, rfl⟩
      exact Step.settled hrow
  | fail index policy disposition message occurredAt backoff =>
      rcases Option.map_eq_some_iff.1 h with ⟨row, hrow, rfl⟩
      exact Step.failed hrow
  | unwind index disposition message occurredAt =>
      rcases Option.map_eq_some_iff.1 h with ⟨row, hrow, rfl⟩
      exact Step.unwound hrow
  | lose index =>
      cases h
      exact Step.lost
  | record index policy backoff =>
      simp only [system, next] at h
      split at h
      · cases h
      · rename_i failure hfailure
        split at h
        · cases h
        · rename_i hfree
          cases h
          exact Step.recorded hfailure fun row hrow hid => hfree ⟨row, hrow, hid⟩
  | crash index =>
      cases h
      exact Step.crashed
  | redrive replay held =>
      cases h
      exact Step.redriven

/-! ## What every row keeps -/

/-- The row rule: what an insert establishes and the three assignments keep holds of every row of a
relation that these statements made. -/
theorem forall_received_of_reachable {Q : ReceivedRow → Prop}
    (hinsert : ∀ insert now, Q (InsertReceivedRow.row insert now))
    (hprocessed : ∀ processedAt r, Q r → Q (processedRow processedAt r))
    (hfailed : ∀ policy failure backoff r, Q r → Q (failedRow policy failure backoff r))
    (hredriven : ∀ clearHistory r, Q r → Q (redrivenRow clearHistory r))
    {s : State} (h : system.Reachable s) : ∀ r ∈ s.received, Q r := by
  refine TransitionSystem.Reachable.invariant (I := fun s => ∀ r ∈ s.received, Q r) ?_ ?_ h
  · rintro s rfl
    exact fun r hr => absurd hr ReceivedTable.not_mem_empty
  · intro s a s' hs hnext
    cases step_of_next hnext with
    | ingested =>
        intro r hr
        rcases mem_of_insertReceivedRow hr with hold | rfl
        · exact hs r hold
        · exact hinsert _ _
    | claimedNone =>
        exact hs
    | claimed _ =>
        exact hs
    | settled _ =>
        exact ReceivedTable.forall_updateWhere (frozen_processedRow _) hs (hprocessed _)
    | failed _ =>
        exact ReceivedTable.forall_updateWhere (frozen_failedRow _ _ _) hs (hfailed _ _ _)
    | unwound _ =>
        exact hs
    | lost =>
        exact hs
    | recorded _ _ =>
        exact ReceivedTable.forall_updateWhere (frozen_failedRow _ _ _) hs (hfailed _ _ _)
    | crashed =>
        exact hs
    | redriven =>
        exact ReceivedTable.forall_updateWhere (frozen_redrivenRow _) hs (hredriven _)

theorem timed_of_reachable {s : State} (h : system.Reachable s) : ∀ r ∈ s.received, Timed r :=
  forall_received_of_reachable timed_inserted (fun processedAt r _ => timed_processedRow processedAt r)
    (fun policy failure backoff r _ => timed_failedRow policy failure backoff r)
    (fun clearHistory r _ => timed_redrivenRow clearHistory r) h

/-! ## A claimed row is held -/

/-- Every open transaction has its row as it claimed it, and no two have the same. -/
structure Held (s : State) : Prop where
  stored : ∀ row ∈ s.claims, row ∈ s.received ∧ unsettled row = true
  distinct : (s.claims.map ReceivedRow.messageId).Nodup

theorem Held.ne_of_mem_eraseIdx {s : State} (h : Held s) {index : Nat} {row other : ReceivedRow}
    (hrow : s.claims[index]? = some row) (hother : other ∈ s.claims.eraseIdx index) :
    other.messageId ≠ row.messageId := by
  rcases List.mem_eraseIdx_iff_getElem?.1 hother with ⟨j, hj, hget⟩
  intro hid
  have hlt : index < (s.claims.map ReceivedRow.messageId).length := by
    rw [List.length_map]
    exact (List.getElem?_eq_some_iff.1 hrow).1
  have hsame : (s.claims.map ReceivedRow.messageId)[index]? =
      (s.claims.map ReceivedRow.messageId)[j]? := by
    rw [List.getElem?_map, List.getElem?_map, hrow, hget]
    exact congrArg some hid.symm
  exact hj ((List.getElem?_inj hlt h.distinct).1 hsame).symm

theorem mem_of_mem_eraseIdx {s : State} {index : Nat} {row : ReceivedRow}
    (h : row ∈ s.claims.eraseIdx index) : row ∈ s.claims :=
  (List.eraseIdx_sublist _ _).mem h

theorem Held.distinct_eraseIdx {s : State} (h : Held s) (index : Nat) :
    ((s.claims.eraseIdx index).map ReceivedRow.messageId).Nodup :=
  h.distinct.sublist ((List.eraseIdx_sublist _ _).map _)

theorem stored_updateWhere {t : ReceivedTable} {p : ReceivedRow → Bool}
    {f : ReceivedRow → ReceivedRow} (hf : ∀ r, (f r).frozen = r.frozen) {row : ReceivedRow}
    (hrow : row ∈ t) (hp : ¬ p row = true) : row ∈ t.updateWhere p f hf :=
  ReceivedTable.mem_updateWhere.2 ⟨row, hrow, if_neg hp⟩

theorem not_markable_of_ne {messageId : Uuid} {row : ReceivedRow}
    (h : row.messageId ≠ messageId) : ¬ markable messageId row = true :=
  fun hmark => h (markable_iff.1 hmark).1

theorem not_redriven_of_unsettled {replay : Replay} {locked : Uuid → Bool} {t : ReceivedTable}
    {row : ReceivedRow} (h : unsettled row = true) : ¬ redriven replay locked t row = true := by
  intro hredriven
  simp only [redriven, replayFilter, Bool.and_eq_true, decide_eq_true_eq] at hredriven
  simp [unsettled, hredriven.2.1.1] at h

theorem held_step {s s' : State} {a : Action} (h : Held s) (hstep : Step s a s') : Held s' := by
  cases hstep with
  | ingested =>
      refine ⟨fun row hrow => ?_, h.distinct⟩
      exact ⟨mem_insertReceivedRow_of_mem (h.stored row hrow).1, (h.stored row hrow).2⟩
  | claimedNone =>
      exact h
  | claimed hclaim =>
      rename_i row
      refine ⟨List.forall_mem_cons.2 ⟨claimReceivedRow_spec hclaim, h.stored⟩, ?_⟩
      rw [List.map_cons, List.nodup_cons]
      refine ⟨?_, h.distinct⟩
      -- The claim passed over every row an open transaction has.
      intro hmem
      rcases List.mem_map.1 hmem with ⟨other, hother, hid⟩
      have hfree := unlocked_of_claimReceivedRow hclaim
      rw [State.locked, Bool.or_eq_false_iff, List.any_eq_false] at hfree
      exact hfree.2 other hother (decide_eq_true hid)
  | settled hrow =>
      refine ⟨fun other hother => ?_, h.distinct_eraseIdx _⟩
      have hstored := h.stored other (mem_of_mem_eraseIdx hother)
      exact ⟨stored_updateWhere (frozen_processedRow _) hstored.1
        (not_markable_of_ne (h.ne_of_mem_eraseIdx hrow hother)), hstored.2⟩
  | failed hrow =>
      refine ⟨fun other hother => ?_, h.distinct_eraseIdx _⟩
      have hstored := h.stored other (mem_of_mem_eraseIdx hother)
      exact ⟨stored_updateWhere (frozen_failedRow _ _ _) hstored.1
        (not_markable_of_ne (h.ne_of_mem_eraseIdx hrow hother)), hstored.2⟩
  | unwound _ =>
      exact ⟨fun row hrow => h.stored row (mem_of_mem_eraseIdx hrow), h.distinct_eraseIdx _⟩
  | lost =>
      exact ⟨fun row hrow => h.stored row (mem_of_mem_eraseIdx hrow), h.distinct_eraseIdx _⟩
  | recorded _ hfree =>
      refine ⟨fun row hrow => ?_, h.distinct⟩
      have hstored := h.stored row hrow
      exact ⟨stored_updateWhere (frozen_failedRow _ _ _) hstored.1
        (not_markable_of_ne (hfree row hrow)), hstored.2⟩
  | crashed =>
      exact ⟨h.stored, h.distinct⟩
  | redriven =>
      refine ⟨fun row hrow => ?_, h.distinct⟩
      have hstored := h.stored row hrow
      exact ⟨stored_updateWhere (frozen_redrivenRow _) hstored.1
        (not_redriven_of_unsettled hstored.2), hstored.2⟩

theorem held_initial : Held State.initial :=
  ⟨fun _ h => (nomatch h), List.nodup_nil⟩

theorem Held.eq_of_markable {s : State} (h : Held s) {index : Nat} {row r : ReceivedRow}
    (hrow : s.claims[index]? = some row) (hr : r ∈ s.received)
    (hmark : markable row.messageId r = true) : r = row :=
  ReceivedTable.eq_of_messageId_eq hr (h.stored row (List.mem_of_getElem? hrow)).1
    (markable_iff.1 hmark).1

theorem settled_row_stays {s s' : State} {a : Action} {r : ReceivedRow} (hstep : Step s a s')
    (hr : r ∈ s.received) (hsettled : unsettled r = false)
    (hfailed : r.status = .failed → ∀ replay held, a ≠ .redrive replay held) :
    r ∈ s'.received := by
  have hmark : ∀ messageId, ¬ markable messageId r = true := by
    intro messageId h
    rw [(markable_iff.1 h).2] at hsettled
    cases hsettled
  cases hstep with
  | ingested => exact mem_insertReceivedRow_of_mem hr
  | claimedNone | claimed _ | unwound _ | lost | crashed => exact hr
  | settled _ => exact stored_updateWhere (frozen_processedRow _) hr (hmark _)
  -- The update of a late record has the same guard as the one under the claim.
  | failed _ | recorded _ _ => exact stored_updateWhere (frozen_failedRow _ _ _) hr (hmark _)
  | redriven =>
      -- The filter of a replay selects failed rows only.
      refine stored_updateWhere (frozen_redrivenRow _) hr fun h => ?_
      simp only [replayFilter, Bool.and_eq_true, decide_eq_true_eq] at h
      exact hfailed h.2.1.1 _ _ rfl

theorem processed_run {s s' : State} {as : List Action} {r : ReceivedRow}
    (hrun : system.run s as = some s') (hr : r ∈ s.received) (hstatus : r.status = .processed) :
    r ∈ s'.received := by
  refine TransitionSystem.invariant_of_run (I := fun _ s => r ∈ s.received) hr ?_ hrun
  intro _ s a s' hr hnext
  exact settled_row_stays (step_of_next hnext) hr (by simp [unsettled, hstatus]) (by simp [hstatus])

/-! ## Dispatch cycles are runs of this system -/

section Simulation

variable {σ ω : Type} (dispatcher : Dispatcher σ ω)

/-- What a cycle does to the received relation, and the failure record it leaves behind. -/
inductive RowEffect (env : CycleEnv ω) (db : Database σ) (result : CycleResult σ) : Prop where
  | nothing :
      result.db.received = db.received → result.ending.pending = [] →
      RowEffect env db result
  | settled {row : ReceivedRow} :
      claimReceivedRow env.dueAt env.locked db.received = some row →
      result.db.received = (markReceivedProcessed row.messageId env.dueAt db.received).1 →
      result.ending.pending = [] → RowEffect env db result
  | failed {row : ReceivedRow} (disposition : FailureDisposition) (message : String) :
      claimReceivedRow env.dueAt env.locked db.received = some row →
      result.db.received = (recordReceivedFailure dispatcher.retry
        (ReceivedFailureRecord.of row disposition message env.dueAt) env.backoff
        db.received).1 →
      result.ending.pending = [] → RowEffect env db result
  | unwound {row : ReceivedRow} (disposition : FailureDisposition) (message : String)
      (panicked : Option Uuid) :
      claimReceivedRow env.dueAt env.locked db.received = some row →
      result.db.received = db.received →
      result.ending.pending =
        [⟨ReceivedFailureRecord.of row disposition message env.dueAt, panicked⟩] →
      RowEffect env db result

variable {dispatcher} {env : CycleEnv ω} {db : Database σ} {row : ReceivedRow}

theorem received_of_converge {converged : Converged σ}
    (h : convergeAndDispatch dispatcher env row db = .ok converged) :
    converged.db.received = (markReceivedProcessed row.messageId env.dueAt db.received).1 := by
  unfold convergeAndDispatch at h
  rcases bind_eq_ok.1 h with ⟨⟨flow, view⟩, hbefore, h⟩
  rcases bind_eq_ok.1 h with ⟨⟨cache, outcome⟩, _, h⟩
  rcases bind_eq_ok.1 h with ⟨⟨ran, view'⟩, hafter, h⟩
  rcases bind_eq_ok.1 h with ⟨_, _, h⟩
  cases pure_eq_ok.1 h
  -- Neither handler position touches the received relation.
  have hview := (runBefore_ok hbefore).2
  have hview' := (runAfter_ok hafter).2
  simp only [hview', hview]

theorem rowEffect_of_ended {result : CycleResult σ} (h : Ended dispatcher env db result) :
    RowEffect dispatcher env db result := by
  cases h with
  | gaveUp _ | panicked =>
      exact RowEffect.nothing rfl rfl
  | idle _ =>
      exact RowEffect.nothing rfl rfl
  | settled hclaim hconverge _ =>
      exact RowEffect.settled hclaim (received_of_converge hconverge) rfl
  | recorded hclaim _ =>
      exact RowEffect.failed _ _ hclaim rfl rfl
  | fallback hclaim =>
      exact RowEffect.unwound _ _ _ hclaim rfl rfl

/-- The same received relation, between two claim transactions. -/
structure Simulates (w : World σ) (s : State) : Prop where
  received : s.received = w.db.received
  claims : s.claims = []
  pending : s.pending = w.fallbacks.map Fallback.failure

/-- Every failure is recorded under the one policy. -/
def Action.FixedPolicy (policy : RetryPolicy) (a : Action) : Prop :=
  ∀ other ∈ a.policy?, other = policy

instance (policy : RetryPolicy) (a : Action) : Decidable (a.FixedPolicy policy) :=
  inferInstanceAs (Decidable (∀ other ∈ a.policy?, other = policy))

/-- `Dispatch.System`, from an empty received relation on. -/
def dispatchSystem (dispatcher : Dispatcher σ ω) :
    TransitionSystem (World σ) (Dispatch.Action ω σ) :=
  { init := fun w =>
      (Dispatch.system dispatcher).init w ∧ w.db.received = ReceivedTable.empty
    next := Dispatch.next dispatcher }

/-- Runs under one policy. -/
abbrev ReachableUnder (policy : RetryPolicy) : State → Prop :=
  system.ReachableBy fun _ a => a.FixedPolicy policy

theorem ReachableUnder.step {policy : RetryPolicy} {s s' : State} {a : Action}
    (h : ReachableUnder policy s) (hpolicy : a.policy? = none ∨ a.policy? = some policy)
    (hnext : next s a = some s') : ReachableUnder policy s' := by
  refine TransitionSystem.ReachableBy.step h ?_ hnext
  intro other hother
  rcases hpolicy with hnone | hsome
  · rw [hnone] at hother
    cases hother
  · exact (Option.some.inj (hsome.symm.trans hother)).symm

theorem locked_of_claims_nil {s : State} (h : s.claims = []) (held : Uuid → Bool) :
    s.locked held = held := by
  funext messageId
  simp [State.locked, h]

theorem Simulates.claim {policy : RetryPolicy} {w : World σ} {s : State} (h : Simulates w s)
    (hs : ReachableUnder policy s)
    (hclaim : claimReceivedRow env.dueAt env.locked w.db.received = some row) :
    ReachableUnder policy { s with claims := [row] } := by
  refine hs.step (Or.inl rfl) (a := .claim env.dueAt env.locked) ?_
  rw [next, locked_of_claims_nil h.claims, h.received, hclaim, h.claims]

theorem Simulates.cycle {w : World σ} {s : State} (h : Simulates w s)
    (hs : ReachableUnder dispatcher.retry s) (env : CycleEnv ω) :
    ∃ s', ReachableUnder dispatcher.retry s' ∧
      Simulates
        { db := (dispatchOnce dispatcher env w.db).db
          fallbacks := (dispatchOnce dispatcher env w.db).ending.pending ++ w.fallbacks
          executions := (dispatchOnce dispatcher env w.db).execution.toList ++ w.executions } s' := by
  cases rowEffect_of_ended (ended_dispatchOnce dispatcher env w.db) with
  | nothing hreceived hpending =>
      refine ⟨s, hs, h.received.trans hreceived.symm, h.claims, ?_⟩
      rw [hpending]
      exact h.pending
  -- The claim of the cycle is the first session, at index zero.
  | @settled row hclaim hreceived hpending =>
      have hend := (h.claim hs hclaim).step (a := .settle 0 env.dueAt)
        (Or.inl rfl) rfl
      refine ⟨_, hend, ?_, rfl, ?_⟩
      · rw [hreceived, ← h.received]
      · rw [hpending]
        exact h.pending
  | @failed row disposition message hclaim hreceived hpending =>
      have hend := (h.claim hs hclaim).step
        (a := .fail 0 dispatcher.retry disposition message env.dueAt env.backoff)
        (Or.inr rfl) rfl
      refine ⟨_, hend, ?_, rfl, ?_⟩
      · rw [hreceived, ← h.received]
        rfl
      · rw [hpending]
        exact h.pending
  | @unwound row disposition message panicked hclaim hreceived hpending =>
      have hend := (h.claim hs hclaim).step (a := .unwind 0 disposition message env.dueAt)
        (Or.inl rfl) rfl
      refine ⟨_, hend, h.received.trans hreceived.symm, rfl, ?_⟩
      rw [hpending]
      exact congrArg (List.cons _) h.pending

theorem Simulates.fallback {w : World σ} {s : State} (h : Simulates w s)
    (hs : ReachableUnder dispatcher.retry s) {index : Nat} {pending : Fallback}
    (hpending : w.fallbacks[index]? = some pending) (env : CycleEnv ω) :
    ∃ s', ReachableUnder dispatcher.retry s' ∧
      Simulates
        { w with
          db := (recordOnFreshConnection dispatcher env pending w.db).1
          fallbacks := w.fallbacks.eraseIdx index } s' := by
  have herase : s.pending.eraseIdx index =
      (w.fallbacks.eraseIdx index).map Fallback.failure := by
    rw [h.pending, List.eraseIdx_map]
  rcases recordOnFreshConnection_cases dispatcher env pending w.db with heq | heq
  -- The fallback fails and its failure is forgotten, or it is recorded.
  · have hend := hs.step (a := .crash index) (Or.inl rfl) rfl
    refine ⟨_, hend, ?_, h.claims, herase⟩
    rw [heq]
    exact h.received
  · have hget : s.pending[index]? = some pending.failure := by
      rw [h.pending, List.getElem?_map, hpending]
      rfl
    have hnext : next s (.record index dispatcher.retry env.backoff) =
        some { s.note dispatcher.retry pending.failure env.backoff with
          pending := s.pending.eraseIdx index } := by
      simp [next, hget, h.claims]
    have hend := hs.step (a := .record index dispatcher.retry env.backoff)
      (Or.inr rfl) hnext
    refine ⟨_, hend, ?_, h.claims, herase⟩
    rw [heq, ← h.received]
    rfl

/-- Whatever dispatch cycles do to a received relation, these sessions can do. -/
theorem simulates_dispatch {w : World σ} (h : (dispatchSystem dispatcher).Reachable w) :
    ∃ s, ReachableUnder dispatcher.retry s ∧ Simulates w s := by
  refine TransitionSystem.Reachable.invariant
    (I := fun w => ∃ s, ReachableUnder dispatcher.retry s ∧ Simulates w s) ?_ ?_ h
  · rintro w ⟨⟨_, _, hfallbacks, _⟩, hempty⟩
    refine ⟨State.initial, TransitionSystem.ReachableBy.start rfl, hempty.symm, rfl, ?_⟩
    rw [hfallbacks]
    rfl
  · rintro w a w' ⟨s, hs, hsim⟩ hnext
    cases a with
    | ingest insert now =>
        cases hnext
        have hend := hs.step (a := .ingest insert now) (Or.inl rfl) rfl
        refine ⟨_, hend, ?_, hsim.claims, hsim.pending⟩
        rw [hsim.received]
    | cycle env =>
        cases hnext
        exact hsim.cycle hs env
    | fallback index env =>
        simp only [dispatchSystem, Dispatch.next] at hnext
        cases hpending : w.fallbacks[index]? with
        | none =>
            rw [hpending] at hnext
            cases hnext
        | some pending =>
            rw [hpending] at hnext
            cases hnext
            exact hsim.fallback hs hpending env
    | crash index =>
        simp only [dispatchSystem, Dispatch.next] at hnext
        split at hnext
        · cases hnext
          have hend := hs.step (a := .crash index) (Or.inl rfl) rfl
          refine ⟨_, hend, hsim.received, hsim.claims, ?_⟩
          change s.pending.eraseIdx index = _
          rw [hsim.pending, List.eraseIdx_map]
        · cases hnext
    | redrive replay locked =>
        cases hnext
        have hend := hs.step (a := .redrive replay locked) (Or.inl rfl) rfl
        refine ⟨_, hend, ?_, hsim.claims, hsim.pending⟩
        -- Between cycles no session holds a claim, so the locks are those of the redrive alone.
        change redrive replay (s.locked locked) s.received = _
        rw [locked_of_claims_nil hsim.claims, hsim.received]
    | application app =>
        cases hnext
        exact ⟨s, hs, hsim.received, hsim.claims, hsim.pending⟩

end Simulation

end Sessions
end Dispatch
end Kafkaman
