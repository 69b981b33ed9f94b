import Kafkaman.Dispatch.Cycle

/-!
# Dispatch.Atomic — the ways a dispatch cycle can end

`CommittedTogether` says what a cycle commits when it settles its row: the processed mark, the cache
apply and the handlers' writes, all of them and of this cycle only.  `FailureAppended` says what
recording a failure does to the received relation.  `Ended` lists what a cycle can return, and
`ended_dispatchOnce` proves the list complete, whatever the handlers do and wherever the database
fails; `Outcome` is what the endings come to.
-/

namespace Kafkaman
namespace Dispatch

open Lib Received

section Spec

variable {σ ω : Type} (dispatcher : Dispatcher σ ω) (env : CycleEnv ω) (row : ReceivedRow)

/-! ## What a settled cycle commits -/

/-- The application's state after the pre-upsert position. -/
def appBefore (db : Database σ) : σ :=
  match dispatcher.router.beforeHandlerFor row.messageType with
  | none => db.app
  | some before => (before env.beforeSees (ReceivedMeta.ofRow row) row.payload db).app

/-- The application's state after a post-upsert handler that ran on this view. -/
def appAfter (view : Database σ) : σ :=
  match dispatcher.router.handlerFor row.messageType with
  | none => view.app
  | some handler => (handler env.afterSees (ReceivedMeta.ofRow row) row.payload view).app

/-- Mark, cache apply and handler writes of one cycle, from `db` to `db'`. -/
structure CommittedTogether (db db' : Database σ) (x : Execution) : Prop where
  claimed : x.row = row
  flow : match dispatcher.router.beforeHandlerFor row.messageType with
    | none => x.flow = .proceed
    | some before =>
        (before env.beforeSees (ReceivedMeta.ofRow row) row.payload db).result =
          .returned (.ok x.flow)
  afterRan : x.afterRan = true ↔
    (dispatcher.router.handlerFor row.messageType).isSome = true ∧ x.flow = .proceed ∧
      x.applied ≠ .ignored
  cache : ∃ entity written, receivedEntityKey row = .ok entity ∧
    cacheApply env.now entity row dispatcher.descriptor.topic (db.cache.lookup entity) =
      .ok (written, x.applied) ∧
    db'.cache = writeBack db.cache written
  app : db'.app =
    if x.afterRan then
      appAfter dispatcher env row
        { received := db.received
          cache := db'.cache
          app := appBefore dispatcher env row db }
    else
      appBefore dispatcher env row db
  received : ∀ r', r' ∈ db'.received ↔
    ∃ r ∈ db.received, (if markable row.messageId r then processedRow env.dueAt r else r) = r'

/-! ## What a recorded failure does -/

/-- One more failure on the row if it is still unsettled, and nothing else. -/
structure FailureAppended (policy : RetryPolicy) (messageId : Uuid) (t t' : ReceivedTable) :
    Prop where
  appended : ∀ r ∈ t, r.messageId = messageId → unsettled r = true →
    ∃ r' ∈ t', r'.frozen = r.frozen ∧ r'.attempts = r.attempts + 1 ∧
      (∃ e, r'.errors = keepNewest (max policy.errorsLimit 1) (r.errors ++ [e])) ∧
      (r'.status = .retryable ∨ r'.status = .failed)
  kept : ∀ r ∈ t, ¬ (r.messageId = messageId ∧ unsettled r = true) → r ∈ t'
  only : ∀ r' ∈ t', ∃ r ∈ t, r'.frozen = r.frozen ∧
    (r' = r ∨ r.messageId = messageId ∧ unsettled r = true)

theorem failureAppended_recordReceivedFailure (policy : RetryPolicy)
    (failure : ReceivedFailureRecord) (backoff : Nanos) (t : ReceivedTable) :
    FailureAppended policy failure.messageId t
      (recordReceivedFailure policy failure backoff t).1 := by
  refine
    { appended := ?_
      kept := ?_
      only := ?_ }
  · intro r hr hid hopen
    have hmark : markable failure.messageId r = true := markable_iff.2 ⟨hid, hopen⟩
    refine ⟨failedRow policy failure backoff r, mem_recordReceivedFailure.2 ⟨r, hr, ?_⟩,
      frozen_failedRow policy failure backoff r, rfl, ⟨_, rfl⟩, ?_⟩
    · simp [hmark]
    · simp only [failedRow]
      split
      · exact Or.inr rfl
      · exact Or.inl rfl
  · intro r hr hnot
    have hmark : ¬ markable failure.messageId r = true := fun h => hnot (markable_iff.1 h)
    exact mem_recordReceivedFailure.2 ⟨r, hr, by simp [hmark]⟩
  · intro r' hr'
    rcases mem_recordReceivedFailure.1 hr' with ⟨r, hr, rfl⟩
    refine ⟨r, hr, ?_⟩
    by_cases hmark : markable failure.messageId r = true
    · simp only [hmark, if_true]
      exact ⟨frozen_failedRow policy failure backoff r, Or.inr (markable_iff.1 hmark)⟩
    · simp [hmark]

/-! ## The endings of a cycle -/

/-- What a cycle returns, by how far it got.  A result that is `ok` carries the stated statistics;
an error may follow a commit that went through all the same. -/
inductive Ended (db : Database σ) : CycleResult σ → Prop where
  | gaveUp (error : Error) : Ended db (giveUp db error)
  | panicked : Ended db { db := db, execution := none, ending := .panicked }
  | idle :
      claimReceivedRow env.dueAt env.locked db.received = none →
      Ended db
        { db := db
          execution := none
          ending := .finished (.ok DispatchStats.default) }
  | settled {row : ReceivedRow} {converged : Converged σ} {result : Except Error DispatchStats} :
      claimReceivedRow env.dueAt env.locked db.received = some row →
      convergeAndDispatch dispatcher env row db = .ok converged →
      (∀ stats, result = .ok stats →
        stats = { DispatchStats.default with
          claimed := 1
          processed := if converged.mark = .updated then 1 else 0 }) →
      Ended db
        { db := converged.db
          execution := some converged.execution
          ending := .finished result }
  | recorded {row : ReceivedRow} {disposition : FailureDisposition} {message : String}
      {result : Except Error DispatchStats} :
      claimReceivedRow env.dueAt env.locked db.received = some row →
      (∀ stats, result = .ok stats →
        ∃ outcome panicked, stats = dispatchFailureStats outcome panicked) →
      Ended db
        { db := { db with
            received := (recordReceivedFailure dispatcher.retry
              (ReceivedFailureRecord.of row disposition message env.dueAt) env.backoff
              db.received).1 }
          execution := none
          ending := .finished result }
  | fallback {row : ReceivedRow} {disposition : FailureDisposition} {message : String}
      {panicked : Option Uuid} :
      claimReceivedRow env.dueAt env.locked db.received = some row →
      Ended db
        { db := db
          execution := none
          ending := .fallback
            { failure := ReceivedFailureRecord.of row disposition message env.dueAt
              panicked := panicked } }

/-- How a cycle can end. -/
inductive Outcome (db : Database σ) : CycleResult σ → Prop where
  /-- It changed nothing: an error, a panic, or no row was due. -/
  | nothing {ending : CycleEnd} :
      (∃ error, ending = .finished (.error error)) ∨ ending = .panicked ∨
        claimReceivedRow env.dueAt env.locked db.received = none ∧
          ending = .finished (.ok DispatchStats.default) →
      Outcome db { db := db, execution := none, ending := ending }
  /-- The row is settled. -/
  | settled {row : ReceivedRow} {db' : Database σ} {x : Execution}
      {result : Except Error DispatchStats} :
      claimReceivedRow env.dueAt env.locked db.received = some row →
      CommittedTogether dispatcher env row db db' x →
      Outcome db { db := db', execution := some x, ending := .finished result }
  /-- A failure is recorded in the claim transaction. -/
  | recorded {row : ReceivedRow} {failure : ReceivedFailureRecord}
      {result : Except Error DispatchStats} :
      claimReceivedRow env.dueAt env.locked db.received = some row →
      failure.messageId = row.messageId →
      Outcome db
        { db := { db with
            received := (recordReceivedFailure dispatcher.retry failure env.backoff
              db.received).1 }
          execution := none
          ending := .finished result }
  /-- The transaction is given up, and the record goes to a fresh connection. -/
  | fallback {row : ReceivedRow} {pending : Fallback} :
      claimReceivedRow env.dueAt env.locked db.received = some row →
      pending.failure.messageId = row.messageId →
      Outcome db { db := db, execution := none, ending := .fallback pending }

end Spec

section Cycles

variable {σ ω : Type} {dispatcher : Dispatcher σ ω} {env : CycleEnv ω} {row : ReceivedRow}
  {db : Database σ}

theorem runBefore_ok {flow : HandlerFlow} {view : View σ}
    (h : runBefore dispatcher env row db = .ok (flow, view)) :
    (match dispatcher.router.beforeHandlerFor row.messageType with
      | none => flow = .proceed
      | some before =>
          (before env.beforeSees (ReceivedMeta.ofRow row) row.payload db).result =
            .returned (.ok flow)) ∧
      view.db = { db with app := appBefore dispatcher env row db } := by
  unfold runBefore at h
  unfold appBefore
  cases hrouted : dispatcher.router.beforeHandlerFor row.messageType with
  | none =>
      rw [hrouted] at h
      cases h
      exact ⟨rfl, rfl⟩
  | some before =>
      rw [hrouted] at h
      dsimp only at h
      split at h
      · cases h
      · rename_i flow' hresult
        cases h
        exact ⟨runHandler_eq_ok.1 hresult, rfl⟩

theorem runAfter_ok {flow : HandlerFlow} {outcome : CacheApplyOutcome} {view view' : View σ}
    {ran : Bool} (h : runAfter dispatcher env row flow outcome view = .ok (ran, view')) :
    (ran = true ↔ (dispatcher.router.handlerFor row.messageType).isSome = true ∧
      flow = .proceed ∧ outcome ≠ .ignored) ∧
      view'.db = { view.db with
        app := if ran then appAfter dispatcher env row view.db else view.db.app } := by
  unfold runAfter at h
  unfold appAfter
  split at h
  · rename_i hcond
    split at h
    · rename_i hnone
      cases h
      simp [hnone]
    · rename_i handler hsome
      dsimp only at h
      split at h
      · cases h
      · cases h
        simp [hsome, hcond]
  · rename_i hcond
    cases h
    refine ⟨?_, by simp⟩
    -- Not run because a handler stopped the flow or the cache ignored the row.
    simp only [Bool.false_eq_true, false_iff]
    rintro ⟨_, hflow, houtcome⟩
    exact hcond ⟨hflow, houtcome⟩

theorem committedTogether_of_converge {converged : Converged σ}
    (h : convergeAndDispatch dispatcher env row db = .ok converged) :
    CommittedTogether dispatcher env row db converged.db converged.execution := by
  unfold convergeAndDispatch at h
  rcases bind_eq_ok.1 h with ⟨⟨flow, view⟩, hbefore, h⟩
  rcases bind_eq_ok.1 h with ⟨⟨cache, outcome⟩, hupsert, h⟩
  rcases bind_eq_ok.1 h with ⟨⟨ran, view'⟩, hafter, h⟩
  rcases bind_eq_ok.1 h with ⟨_, _, h⟩
  cases pure_eq_ok.1 h
  rcases runBefore_ok hbefore with ⟨hflow, hview⟩
  rcases runAfter_ok hafter with ⟨hran, hview'⟩
  have hcache := cacheApply_of_upsert (mapError_eq_ok.1 hupsert)
  refine
    { claimed := rfl
      flow := hflow
      afterRan := hran
      cache := ?_
      app := ?_
      received := ?_ }
  · rw [hview] at hcache
    simpa only [hview'] using hcache
  · simp only [hview', hview]
  · intro r'
    simp only [hview', hview]
    exact mem_markReceivedProcessed

theorem ended_recordInClaimTransaction {disposition : FailureDisposition} {message : String}
    {panicked : Option Uuid}
    (hclaim : claimReceivedRow env.dueAt env.locked db.received = some row) :
    Ended dispatcher env db
      (recordInClaimTransaction dispatcher env
        (ReceivedFailureRecord.of row disposition message env.dueAt) panicked db) := by
  unfold recordInClaimTransaction
  split
  · exact Ended.panicked
  · cases env.fails .recordFailure with
    | some text =>
        exact Ended.gaveUp _
    | none =>
        cases env.fails .commitFailure with
        | some text =>
            cases env.lands with
            | false =>
                exact Ended.gaveUp _
            | true =>
                exact Ended.recorded hclaim (fun _ h => nomatch h)
        | none =>
            refine Ended.recorded hclaim ?_
            intro stats hstats
            exact ⟨_, panicked, (Except.ok.inj hstats).symm⟩

theorem ended_commitConverged {converged : Converged σ}
    (hclaim : claimReceivedRow env.dueAt env.locked db.received = some row)
    (hconverge : convergeAndDispatch dispatcher env row db = .ok converged) :
    Ended dispatcher env db (commitConverged env converged db) := by
  unfold commitConverged
  cases env.fails .commit with
  | some text =>
      cases env.lands with
      | false =>
          exact Ended.gaveUp _
      -- The commit went through and only its answer was lost.
      | true =>
          exact Ended.settled hclaim hconverge (fun _ h => nomatch h)
  | none =>
      refine Ended.settled hclaim hconverge ?_
      intro stats hstats
      exact (Except.ok.inj hstats).symm

theorem ended_dispatchClaimedRow
    (hclaim : claimReceivedRow env.dueAt env.locked db.received = some row) :
    Ended dispatcher env db (dispatchClaimedRow dispatcher env row db) := by
  unfold dispatchClaimedRow
  split
  · cases env.fails .savepoint with
    | some text =>
        exact Ended.gaveUp _
    | none =>
        cases hconverge : convergeAndDispatch dispatcher env row db with
        | ok converged =>
            exact ended_commitConverged hclaim hconverge
        | error failure =>
            simp only [unwindAndRecord]
            cases env.fails .rollbackToSavepoint with
            | none =>
                exact ended_recordInClaimTransaction hclaim
            | some text =>
                exact Ended.fallback hclaim
  · exact ended_recordInClaimTransaction hclaim

/-- The list of endings is complete. -/
theorem ended_dispatchOnce (dispatcher : Dispatcher σ ω) (env : CycleEnv ω) (db : Database σ) :
    Ended dispatcher env db (dispatchOnce dispatcher env db) := by
  unfold dispatchOnce
  cases env.fails .beginClaim with
  | some text =>
      exact Ended.gaveUp _
  | none =>
      cases env.fails .claim with
      | some text =>
          exact Ended.gaveUp _
      | none =>
          cases hclaim : claimReceivedRow env.dueAt env.locked db.received with
          | some row =>
              exact ended_dispatchClaimedRow hclaim
          | none =>
              cases env.fails .commit with
              | some text =>
                  exact Ended.gaveUp _
              | none =>
                  exact Ended.idle hclaim

theorem Ended.outcome {result : CycleResult σ} (h : Ended dispatcher env db result) :
    Outcome dispatcher env db result := by
  cases h with
  | gaveUp error =>
      exact Outcome.nothing (Or.inl ⟨error, rfl⟩)
  | panicked =>
      exact Outcome.nothing (Or.inr (Or.inl rfl))
  | idle hclaim =>
      exact Outcome.nothing (Or.inr (Or.inr ⟨hclaim, rfl⟩))
  | settled hclaim hconverge _ =>
      exact Outcome.settled hclaim (committedTogether_of_converge hconverge)
  | recorded hclaim _ =>
      exact Outcome.recorded hclaim rfl
  | fallback hclaim =>
      exact Outcome.fallback hclaim rfl

theorem outcome_dispatchOnce (dispatcher : Dispatcher σ ω) (env : CycleEnv ω)
    (db : Database σ) : Outcome dispatcher env db (dispatchOnce dispatcher env db) :=
  (ended_dispatchOnce dispatcher env db).outcome

end Cycles

end Dispatch
end Kafkaman
