import Kafkaman.Core.Storable
import Kafkaman.Dispatch.Effects
import Kafkaman.Dispatch.Sessions
import Kafkaman.Lib.Descent
import Mathlib.Algebra.Order.BigOperators.Group.List

/-!
# Dispatch.Drain — one dispatcher and a table full of failing rows

The claim takes the oldest due row, so a row that a cycle can neither settle nor count a failure
against is claimed again by the next one, and the one after it.  With the database available three
things decide whether a claiming cycle gets anywhere: the deferred constraints, checked by the
`COMMIT`, the text of the failure, which has to fit into a `jsonb` column, and the wait before the
retry, which has to end within the calendar.

* `Available` — the database fails only over the data;
* `Clear` — the three conditions on the data of one cycle;
* `dispatcher_drains` — a claiming cycle advances its row exactly when it is clear, and clear cycles
  empty the table within its retry budget.
-/

namespace Kafkaman
namespace Dispatch
namespace Drain

open Lib Received

section Cycle

variable {σ ω : Type} (accepts : σ → σ → Prop) (dispatcher : Dispatcher σ ω) (env : CycleEnv ω)
  (db : Database σ)

/-! ## Failures fixed by the data -/

/-- The failure a cycle records against its row, if it comes to that. -/
def failureOf (row : ReceivedRow) : Option ReceivedFailureRecord :=
  if dispatcher.router.routes row.messageType then
    match convergeAndDispatch dispatcher env row db with
    | .ok _ => none
    | .error failure =>
        some (ReceivedFailureRecord.of row failure.disposition
          (failure.error.display dispatcher.codec.uuidText) env.dueAt)
  else
    let error := Error.missingHandler row.messageType
    some (ReceivedFailureRecord.of row (failureDisposition error .routing)
      (error.display dispatcher.codec.uuidText) env.dueAt)

/-- The handlers' writes, if the cycle gets as far as its `COMMIT`, pass the deferred constraints;
`accepts` judges the application's state by what it was. -/
def CommitAccepted : Prop :=
  ∀ row converged, claimReceivedRow env.dueAt env.locked db.received = some row →
    dispatcher.router.routes row.messageType = true →
    convergeAndDispatch dispatcher env row db = .ok converged →
    accepts db.app converged.db.app

/-- The failure text, if the cycle records one, can be stored. -/
def TextAccepted : Prop :=
  ∀ row failure, claimReceivedRow env.dueAt env.locked db.received = some row →
    failureOf dispatcher env db row = some failure → storableText failure.message = true

/-- The retry, if the cycle schedules one, is within the calendar. -/
def WaitAccepted : Prop :=
  ∀ row failure, claimReceivedRow env.dueAt env.locked db.received = some row →
    failureOf dispatcher env db row = some failure →
    failure.panics dispatcher.retry env.backoff = false

/-- One dispatcher on an available database: nobody else holds a row, and a statement or a `COMMIT`
fails only over the data it is given. -/
structure Available : Prop where
  alone : ∀ messageId, env.locked messageId = false
  others : ∀ point, point ≠ .commit → point ≠ .recordFailure → env.fails point = none
  commit : env.fails .commit = none ↔ CommitAccepted accepts dispatcher env db
  recordFailure : env.fails .recordFailure = none ↔ TextAccepted dispatcher env db
  /-- A `COMMIT` that a constraint refuses is a rollback. -/
  refused : env.lands = false

/-- The cycle's data give nobody a reason to refuse it. -/
structure Clear : Prop where
  commit : CommitAccepted accepts dispatcher env db
  text : TextAccepted dispatcher env db
  wait : WaitAccepted dispatcher env db

end Cycle

section Cycles

variable {σ ω : Type} {accepts : σ → σ → Prop} {dispatcher : Dispatcher σ ω} {env : CycleEnv ω}
  {db : Database σ} {row : ReceivedRow}

/-! ## One cycle -/

/-- The row is processed, or has one failure more. -/
def Advances (row : ReceivedRow) (t : ReceivedTable) : Prop :=
  ∃ r ∈ t, r.messageId = row.messageId ∧
    (r.status = .processed ∨ r.attempts = row.attempts + 1)

/-- What a cycle that gets anywhere writes. -/
inductive Written (policy : RetryPolicy) (env : CycleEnv ω) (row : ReceivedRow)
    (t t' : ReceivedTable) : Prop where
  | processed :
      t' = (markReceivedProcessed row.messageId env.dueAt t).1 → Written policy env row t t'
  | failed (disposition : FailureDisposition) (message : String) :
      t' = (recordReceivedFailure policy
        (ReceivedFailureRecord.of row disposition message env.dueAt) env.backoff t).1 →
      Written policy env row t t'

theorem recordInClaimTransaction_of_available
    (havail : Available accepts dispatcher env db) {failure : ReceivedFailureRecord}
    {panicked : Option Uuid} :
    (env.fails .recordFailure = none → failure.panics dispatcher.retry env.backoff = false →
      (recordInClaimTransaction dispatcher env failure panicked db).db.received =
        (recordReceivedFailure dispatcher.retry failure env.backoff db.received).1) ∧
      (env.fails .recordFailure ≠ none ∨ failure.panics dispatcher.retry env.backoff = true →
        (recordInClaimTransaction dispatcher env failure panicked db).db = db) := by
  have hcommit := havail.others .commitFailure (by decide) (by decide)
  cases hpanics : failure.panics dispatcher.retry env.backoff with
  | true =>
      simp [recordInClaimTransaction, hpanics]
  | false =>
      cases hfails : env.fails .recordFailure with
      | none =>
          simp [recordInClaimTransaction, hpanics, hfails, hcommit]
      | some text =>
          simp [recordInClaimTransaction, hpanics, hfails, giveUp]

theorem failureOf_eq {failure : ReceivedFailureRecord}
    (h : failureOf dispatcher env db row = some failure) :
    ∃ disposition message,
      failure = ReceivedFailureRecord.of row disposition message env.dueAt := by
  unfold failureOf at h
  split at h
  · split at h
    · cases h
    · exact ⟨_, _, (Option.some.inj h).symm⟩
  · exact ⟨_, _, (Option.some.inj h).symm⟩

theorem dispatchClaimedRow_of_failure (havail : Available accepts dispatcher env db)
    {failure : ReceivedFailureRecord} (hfailure : failureOf dispatcher env db row = some failure) :
    ∃ panicked, dispatchClaimedRow dispatcher env row db =
      recordInClaimTransaction dispatcher env failure panicked db := by
  have hsavepoint := havail.others .savepoint (by decide) (by decide)
  have hrollback := havail.others .rollbackToSavepoint (by decide) (by decide)
  unfold failureOf at hfailure
  unfold dispatchClaimedRow
  split at hfailure
  · rename_i hroutes
    rw [if_pos hroutes, hsavepoint]
    cases hconverge : convergeAndDispatch dispatcher env row db with
    | ok converged =>
        rw [hconverge] at hfailure
        cases hfailure
    | error error =>
        rw [hconverge] at hfailure
        cases hfailure
        simp only [unwindAndRecord, hrollback]
        exact ⟨_, rfl⟩
  · rename_i hroutes
    cases hfailure
    rw [if_neg hroutes]
    exact ⟨_, rfl⟩

theorem dispatchClaimedRow_of_converged (havail : Available accepts dispatcher env db)
    (hnone : failureOf dispatcher env db row = none) :
    ∃ converged, dispatcher.router.routes row.messageType = true ∧
      convergeAndDispatch dispatcher env row db = .ok converged ∧
      dispatchClaimedRow dispatcher env row db = commitConverged env converged db := by
  have hsavepoint := havail.others .savepoint (by decide) (by decide)
  unfold failureOf at hnone
  split at hnone
  · rename_i hroutes
    cases hconverge : convergeAndDispatch dispatcher env row db with
    | ok converged =>
        refine ⟨converged, hroutes, rfl, ?_⟩
        simp only [dispatchClaimedRow, hroutes, if_true, hsavepoint, hconverge]
    | error error =>
        rw [hconverge] at hnone
        cases hnone
  · cases hnone

theorem dispatchOnce_of_claim (havail : Available accepts dispatcher env db)
    (hclaim : claimReceivedRow env.dueAt env.locked db.received = some row) :
    dispatchOnce dispatcher env db = dispatchClaimedRow dispatcher env row db := by
  have hbegin := havail.others .beginClaim (by decide) (by decide)
  have hselect := havail.others .claim (by decide) (by decide)
  simp [dispatchOnce, hbegin, hselect, hclaim]

theorem dispatchOnce_of_no_claim (havail : Available accepts dispatcher env db)
    (hclaim : claimReceivedRow env.dueAt env.locked db.received = none) :
    (dispatchOnce dispatcher env db).db = db := by
  have hbegin := havail.others .beginClaim (by decide) (by decide)
  have hselect := havail.others .claim (by decide) (by decide)
  simp only [dispatchOnce, hbegin, hselect, hclaim]
  cases env.fails .commit <;> rfl

/-- Clear data: the row is marked or its failure is recorded. -/
theorem written_of_clear (havail : Available accepts dispatcher env db)
    (hclaim : claimReceivedRow env.dueAt env.locked db.received = some row)
    (hclear : Clear accepts dispatcher env db) :
    Written dispatcher.retry env row db.received
      (dispatchOnce dispatcher env db).db.received := by
  rw [dispatchOnce_of_claim havail hclaim]
  cases hfailure : failureOf dispatcher env db row with
  | none =>
      rcases dispatchClaimedRow_of_converged havail hfailure with ⟨converged, -, hconverge, heq⟩
      rw [heq]
      simp only [commitConverged, havail.commit.2 hclear.commit]
      exact Written.processed (Sessions.received_of_converge hconverge)
  | some failure =>
      rcases dispatchClaimedRow_of_failure havail hfailure with ⟨panicked, heq⟩
      rcases failureOf_eq hfailure with ⟨disposition, message, rfl⟩
      rw [heq]
      exact Written.failed _ _ ((recordInClaimTransaction_of_available havail).1
        (havail.recordFailure.2 hclear.text) (hclear.wait row _ hclaim hfailure))

theorem unchanged_of_not_clear (havail : Available accepts dispatcher env db)
    (hclaim : claimReceivedRow env.dueAt env.locked db.received = some row)
    (hnot : ¬ Clear accepts dispatcher env db) :
    (dispatchOnce dispatcher env db).db = db := by
  rw [dispatchOnce_of_claim havail hclaim]
  have hrow : ∀ row', claimReceivedRow env.dueAt env.locked db.received = some row' → row' = row :=
    fun row' hclaim' => Option.some.inj (hclaim'.symm.trans hclaim)
  -- What the cycle comes to decides which of the conditions says anything.
  cases hfailure : failureOf dispatcher env db row with
  | none =>
      have hfails : env.fails .commit ≠ none := by
        intro hcommit
        refine hnot ⟨havail.commit.1 hcommit, ?_, ?_⟩
        · intro row' failure hclaim' hfailure'
          rw [hrow row' hclaim', hfailure] at hfailure'
          cases hfailure'
        · intro row' failure hclaim' hfailure'
          rw [hrow row' hclaim', hfailure] at hfailure'
          cases hfailure'
      rcases dispatchClaimedRow_of_converged havail hfailure with ⟨converged, -, -, heq⟩
      rw [heq]
      cases hcommit : env.fails .commit with
      | none => exact absurd hcommit hfails
      | some text => simp [commitConverged, hcommit, havail.refused]
  | some failure =>
      rcases dispatchClaimedRow_of_failure havail hfailure with ⟨panicked, heq⟩
      rw [heq]
      refine (recordInClaimTransaction_of_available havail).2 ?_
      by_contra hboth
      push Not at hboth
      refine hnot ⟨?_, havail.recordFailure.1 hboth.1, ?_⟩
      · intro row' converged hclaim' hroutes hconverge
        rw [hrow row' hclaim'] at hroutes hconverge
        simp [failureOf, hroutes, hconverge] at hfailure
      · intro row' failure' hclaim' hfailure'
        rw [hrow row' hclaim', hfailure] at hfailure'
        cases hfailure'
        simpa using hboth.2

theorem Written.advances {policy : RetryPolicy} {t t' : ReceivedTable}
    (h : Written policy env row t t') (hrow : row ∈ t) (hopen : unsettled row = true) :
    Advances row t' := by
  have hmark : markable row.messageId row = true := markable_iff.2 ⟨rfl, hopen⟩
  cases h with
  | processed ht =>
      subst ht
      exact ⟨_, mem_markReceivedProcessed.2 ⟨row, hrow, if_pos hmark⟩, rfl, Or.inl rfl⟩
  | failed disposition message ht =>
      subst ht
      exact ⟨_, mem_recordReceivedFailure.2 ⟨row, hrow, if_pos hmark⟩, rfl, Or.inr rfl⟩

theorem advances_iff_clear (havail : Available accepts dispatcher env db)
    (hclaim : claimReceivedRow env.dueAt env.locked db.received = some row) :
    Advances row (dispatchOnce dispatcher env db).db.received ↔
      Clear accepts dispatcher env db := by
  rcases claimReceivedRow_spec hclaim with ⟨hrow, hopen⟩
  constructor
  · rintro ⟨r, hr, hid, hadvanced⟩
    by_contra hnot
    rw [unchanged_of_not_clear havail hclaim hnot] at hr
    obtain rfl : r = row := ReceivedTable.eq_of_messageId_eq hr hrow hid
    rcases hadvanced with hprocessed | hattempts
    · exact ne_processed_of_unsettled hopen hprocessed
    · omega
  · intro hclear
    exact (written_of_clear havail hclaim hclear).advances hrow hopen

/-! ## What is left to do -/

/-- The failures a row may still be given. -/
def retries (policy : RetryPolicy) (r : ReceivedRow) : Nat :=
  max 1 (policy.maxAttempts - r.attempts)

/-- The claiming cycles a row may still take. -/
def weight (policy : RetryPolicy) (r : ReceivedRow) : Nat :=
  if unsettled r then retries policy r else 0

def backlog (policy : RetryPolicy) (t : ReceivedTable) : Nat :=
  (t.rows.map (weight policy)).sum

def retryBudget (policy : RetryPolicy) (t : ReceivedTable) : Nat :=
  (t.rows.map (retries policy)).sum

theorem backlog_le_retryBudget (policy : RetryPolicy) (t : ReceivedTable) :
    backlog policy t ≤ retryBudget policy t := by
  refine List.sum_le_sum fun r _ => ?_
  unfold weight
  split
  · exact Nat.le_refl _
  · exact Nat.zero_le _

theorem backlog_updateWhere_lt {policy : RetryPolicy} {t : ReceivedTable}
    {p : ReceivedRow → Bool} {f : ReceivedRow → ReceivedRow}
    (hf : ∀ r, (f r).frozen = r.frozen) (hrow : row ∈ t) (hp : p row = true)
    (honly : ∀ r ∈ t, p r = true → r = row)
    (hlt : weight policy (f row) < weight policy row) :
    backlog policy (t.updateWhere p f hf) < backlog policy t := by
  have hrows : (t.updateWhere p f hf).rows = t.rows.map fun r => if p r then f r else r := rfl
  rw [backlog, hrows, List.map_map]
  refine List.sum_lt_sum _ _ ?_ ⟨row, hrow, ?_⟩
  · intro r hr
    change weight policy (if p r then f r else r) ≤ weight policy r
    split
    · rename_i hpr
      rw [honly r hr hpr]
      exact Nat.le_of_lt hlt
    · exact Nat.le_refl _
  · change weight policy (if p row then f row else row) < weight policy row
    rw [if_pos hp]
    exact hlt

theorem weight_pos {policy : RetryPolicy} {r : ReceivedRow} (h : unsettled r = true) :
    0 < weight policy r := by
  rw [weight, if_pos h]
  exact Nat.lt_of_lt_of_le Nat.one_pos (Nat.le_max_left _ _)

theorem weight_failedRow_lt {policy : RetryPolicy} {disposition : FailureDisposition}
    {message : String} {occurredAt : Instant} {backoff : Nanos} (hopen : unsettled row = true) :
    weight policy (failedRow policy
      (ReceivedFailureRecord.of row disposition message occurredAt) backoff row) <
        weight policy row := by
  cases hexhausted : (retryOutcome policy row.attempts disposition).2 with
  | true =>
      have hsettled : unsettled (failedRow policy
          (ReceivedFailureRecord.of row disposition message occurredAt) backoff row) = false := by
        simp [unsettled, failedRow, failureSchedule, ReceivedFailureRecord.of, hexhausted]
      rw [weight, if_neg (by simp [hsettled])]
      exact weight_pos hopen
  | false =>
      simp only [retryOutcome, Bool.or_eq_false_iff, decide_eq_false_iff_not,
        Nat.not_le] at hexhausted
      have hattempts : (failedRow policy
          (ReceivedFailureRecord.of row disposition message occurredAt) backoff row).attempts =
            row.attempts + 1 := rfl
      rw [weight, weight, if_pos hopen]
      split
      · rw [retries, retries, hattempts]
        omega
      · exact Nat.lt_of_lt_of_le Nat.one_pos (Nat.le_max_left _ _)

theorem Written.backlog_lt {policy : RetryPolicy} {t t' : ReceivedTable}
    (h : Written policy env row t t') (hrow : row ∈ t) (hopen : unsettled row = true) :
    backlog policy t' < backlog policy t := by
  have hmark : markable row.messageId row = true := markable_iff.2 ⟨rfl, hopen⟩
  have honly : ∀ r ∈ t, markable row.messageId r = true → r = row := fun r hr hmark' =>
    ReceivedTable.eq_of_messageId_eq hr hrow (markable_iff.1 hmark').1
  cases h with
  | processed ht =>
      subst ht
      refine backlog_updateWhere_lt (frozen_processedRow _) hrow hmark honly ?_
      rw [weight, if_neg (by simp [unsettled, processedRow])]
      exact weight_pos hopen
  | failed disposition message ht =>
      subst ht
      exact backlog_updateWhere_lt (frozen_failedRow _ _ _) hrow hmark honly
        (weight_failedRow_lt hopen)

/-! ## A row is due in the end -/

theorem exists_claim {t : ReceivedTable} (htimed : ∀ r ∈ t, Timed r) {r : ReceivedRow}
    (hr : r ∈ t) (hopen : unsettled r = true) {env : CycleEnv ω}
    (halone : ∀ messageId, env.locked messageId = false)
    (htime : ∀ time ∈ r.nextAttemptAt, time ≤ env.dueAt.timestamptz) :
    (claimReceivedRow env.dueAt env.locked t).isSome = true := by
  have hstatus : r.status = .pending ∨ r.status = .retryable := by
    simpa only [unsettled, Bool.or_eq_true, decide_eq_true_eq] using hopen
  have hdue : due env.dueAt r = true := by
    cases hnext : r.nextAttemptAt with
    | none =>
        -- Only a pending row may lack a time.
        rcases hstatus with hpending | hretryable
        · simp [due, hpending, hnext]
        · exact absurd hnext ((htimed r hr).scheduled hretryable)
    | some next =>
        have hle : sqlLe (some next) env.dueAt.timestamptz = true :=
          sqlLe_iff.2 ⟨next, rfl, htime next hnext⟩
        rcases hstatus with hpending | hretryable
        · simp [due, hpending, hnext, hle]
        · simp [due, hretryable, hnext, hle]
  have hmem : r ∈ t.rows.filter fun r => due env.dueAt r && !env.locked r.messageId := by
    refine List.mem_filter.2 ⟨hr, ?_⟩
    simp [hdue, halone]
  rw [claimReceivedRow, List.isSome_head?]
  exact orderByLimit_ne_nil Nat.one_pos (List.ne_nil_of_mem hmem)

end Cycles

/-! ## Cycle after cycle -/

/-- What an endless run of cycles meets: the environment of each, and what the application writes
on its own before it. -/
structure Schedule (σ ω : Type) where
  env : Nat → CycleEnv ω
  outside : Nat → σ → σ

section Run

variable {σ ω : Type} (dispatcher : Dispatcher σ ω) (schedule : Schedule σ ω) (db : Database σ)

/-- The database the `n`th cycle starts from. -/
def stateAt : Nat → Database σ
  | 0 => { db with app := schedule.outside 0 db.app }
  | n + 1 =>
      let result := dispatchOnce dispatcher (schedule.env n) (stateAt n)
      { result.db with app := schedule.outside (n + 1) result.db.app }

/-- The row the `n`th cycle claims. -/
def claimedAt (n : Nat) : Option ReceivedRow :=
  claimReceivedRow (schedule.env n).dueAt (schedule.env n).locked
    (stateAt dispatcher schedule db n).received

/-- How many of the first `n` cycles claim a row. -/
def claimingCycles (n : Nat) : Nat :=
  Descent.countBefore (fun n => (claimedAt dispatcher schedule db n).isSome) n

variable {dispatcher schedule db} {accepts : σ → σ → Prop}

theorem received_stateAt_succ (n : Nat) :
    (stateAt dispatcher schedule db (n + 1)).received =
      (dispatchOnce dispatcher (schedule.env n) (stateAt dispatcher schedule db n)).db.received :=
  rfl

theorem received_of_no_claim
    (havail : ∀ n, Available accepts dispatcher (schedule.env n)
      (stateAt dispatcher schedule db n)) {n : Nat}
    (hclaim : claimedAt dispatcher schedule db n = none) :
    (stateAt dispatcher schedule db (n + 1)).received =
      (stateAt dispatcher schedule db n).received := by
  rw [received_stateAt_succ, dispatchOnce_of_no_claim (havail n) hclaim]

theorem backlog_drop
    (havail : ∀ n, Available accepts dispatcher (schedule.env n)
      (stateAt dispatcher schedule db n))
    (hclear : ∀ n, Clear accepts dispatcher (schedule.env n)
      (stateAt dispatcher schedule db n)) (n : Nat) :
    backlog dispatcher.retry (stateAt dispatcher schedule db (n + 1)).received +
        ((claimedAt dispatcher schedule db n).isSome).toNat ≤
      backlog dispatcher.retry (stateAt dispatcher schedule db n).received := by
  cases hclaim : claimedAt dispatcher schedule db n with
  | none =>
      rw [received_of_no_claim havail hclaim]
      exact Nat.le_refl _
  | some row =>
      rcases claimReceivedRow_spec hclaim with ⟨hrow, hopen⟩
      exact (written_of_clear (havail n) hclaim (hclear n)).backlog_lt hrow hopen

theorem timed_stateAt (htimed : ∀ r ∈ db.received, Timed r)
    (havail : ∀ n, Available accepts dispatcher (schedule.env n)
      (stateAt dispatcher schedule db n))
    (hclear : ∀ n, Clear accepts dispatcher (schedule.env n)
      (stateAt dispatcher schedule db n)) (n : Nat) :
    ∀ r ∈ (stateAt dispatcher schedule db n).received, Timed r := by
  induction n with
  | zero =>
      exact htimed
  | succ n ih =>
      cases hclaim : claimedAt dispatcher schedule db n with
      | none =>
          rw [received_of_no_claim havail hclaim]
          exact ih
      | some row =>
          rw [received_stateAt_succ]
          cases written_of_clear (havail n) hclaim (hclear n) with
          | processed ht =>
              rw [ht]
              exact ReceivedTable.forall_updateWhere (frozen_processedRow _) ih
                fun r _ => timed_processedRow _ r
          | failed disposition message ht =>
              rw [ht]
              exact ReceivedTable.forall_updateWhere (frozen_failedRow _ _ _) ih
                fun r _ => timed_failedRow _ _ _ r

/-- Every row has reached the end of its life. -/
def Settled (t : ReceivedTable) : Prop :=
  ∀ r ∈ t, r.status = .processed ∨ r.status = .failed

theorem not_unsettled_of_settled {r : ReceivedRow}
    (h : r.status = .processed ∨ r.status = .failed) : ¬ unsettled r = true := by
  rcases h with h | h
  · simp [unsettled, h]
  · simp [unsettled, h]

theorem settled_of_no_unsettled {t : ReceivedTable} (h : ∀ r ∈ t, ¬ unsettled r = true) :
    Settled t := by
  intro r hr
  have hnot := h r hr
  cases hstatus : r.status with
  | pending =>
      simp [unsettled, hstatus] at hnot
  | processed =>
      exact Or.inl rfl
  | retryable =>
      simp [unsettled, hstatus] at hnot
  | failed =>
      exact Or.inr rfl

theorem claimedAt_of_settled {n : Nat}
    (h : Settled (stateAt dispatcher schedule db n).received) :
    claimedAt dispatcher schedule db n = none := by
  cases hclaim : claimedAt dispatcher schedule db n with
  | none =>
      rfl
  | some row =>
      rcases claimReceivedRow_spec hclaim with ⟨hrow, hopen⟩
      exact absurd hopen (not_unsettled_of_settled (h row hrow))

theorem settled_stays
    (havail : ∀ n, Available accepts dispatcher (schedule.env n)
      (stateAt dispatcher schedule db n)) {m n : Nat} (hle : n ≤ m)
    (h : Settled (stateAt dispatcher schedule db n).received) :
    Settled (stateAt dispatcher schedule db m).received := by
  induction hle with
  | refl =>
      exact h
  | step _ ih =>
      rw [received_of_no_claim havail (claimedAt_of_settled ih)]
      exact ih

/-- The time of every retry that is waited for comes. -/
def TimesPass (dispatcher : Dispatcher σ ω) (schedule : Schedule σ ω) (db : Database σ) : Prop :=
  ∀ n, ∀ r ∈ (stateAt dispatcher schedule db n).received, ∃ m, n ≤ m ∧
    ∀ time ∈ r.nextAttemptAt, time ≤ (schedule.env m).dueAt.timestamptz

theorem exists_claimedAt (htimed : ∀ r ∈ db.received, Timed r)
    (havail : ∀ n, Available accepts dispatcher (schedule.env n)
      (stateAt dispatcher schedule db n))
    (hclear : ∀ n, Clear accepts dispatcher (schedule.env n)
      (stateAt dispatcher schedule db n))
    (hpass : TimesPass dispatcher schedule db)
    (n : Nat) (hnot : ¬ Settled (stateAt dispatcher schedule db n).received) :
    ∃ m, n ≤ m ∧ (claimedAt dispatcher schedule db m).isSome = true := by
  by_contra hnone
  -- Without a claim the relation stays what it is, while the due times pass.
  have hsame : ∀ m, n ≤ m → (stateAt dispatcher schedule db m).received =
      (stateAt dispatcher schedule db n).received := by
    intro m hm
    induction hm with
    | refl =>
        rfl
    | @step m hm ih =>
        have hclaim : claimedAt dispatcher schedule db m = none := by
          cases hclaim : claimedAt dispatcher schedule db m with
          | none =>
              rfl
          | some row =>
              exact absurd ⟨m, hm, by rw [hclaim]; rfl⟩ hnone
        rw [received_of_no_claim havail hclaim, ih]
  apply hnot
  apply settled_of_no_unsettled
  intro r hr hopen
  rcases hpass n r hr with ⟨m, hm, htime⟩
  have hsome := exists_claim (timed_stateAt htimed havail hclear n) hr hopen (havail m).alone htime
  rw [← hsame m hm] at hsome
  exact hnone ⟨m, hm, hsome⟩

end Run

/-- Along any run of one dispatcher on an available database, a claiming cycle marks its row or
counts a failure against it exactly when its data are clear.  If they always are, there are no more
claiming cycles than the rows have retries left, and once the due times have passed every row is
processed or failed for good. -/
theorem dispatcher_drains {σ ω : Type} (dispatcher : Dispatcher σ ω) (accepts : σ → σ → Prop)
    {s : Sessions.State} (hs : Sessions.system.Reachable s) (db : Database σ)
    (hreceived : db.received = s.received) (schedule : Schedule σ ω)
    (havail : ∀ n, Available accepts dispatcher (schedule.env n)
      (stateAt dispatcher schedule db n)) :
    (∀ n row, claimedAt dispatcher schedule db n = some row →
      (Advances row (stateAt dispatcher schedule db (n + 1)).received ↔
        Clear accepts dispatcher (schedule.env n) (stateAt dispatcher schedule db n))) ∧
    ((∀ n, Clear accepts dispatcher (schedule.env n) (stateAt dispatcher schedule db n)) →
      (∀ n, claimingCycles dispatcher schedule db n ≤
        retryBudget dispatcher.retry db.received) ∧
      (TimesPass dispatcher schedule db →
        ∃ n, ∀ m, n ≤ m → Settled (stateAt dispatcher schedule db m).received)) := by
  have htimed : ∀ r ∈ db.received, Timed r := hreceived ▸ Sessions.timed_of_reachable hs
  refine ⟨fun n row hclaim => advances_iff_clear (havail n) hclaim, fun hclear => ⟨?_, ?_⟩⟩
  · intro n
    -- A claiming cycle takes one from the backlog, so there are no more of them than it had.
    have hcount := Descent.countBefore_add_le _
      (fun n => backlog dispatcher.retry (stateAt dispatcher schedule db n).received)
      (backlog_drop havail hclear) n
    calc
      claimingCycles dispatcher schedule db n
          ≤ backlog dispatcher.retry (stateAt dispatcher schedule db 0).received :=
            Nat.le_trans (Nat.le_add_right _ _) hcount
      _ ≤ retryBudget dispatcher.retry db.received := backlog_le_retryBudget _ _
  · intro hpass
    rcases Descent.exists_done _
      (fun n => backlog dispatcher.retry (stateAt dispatcher schedule db n).received)
      (backlog_drop havail hclear) (exists_claimedAt htimed havail hclear hpass) with ⟨n, hn⟩
    exact ⟨n, fun m hm => settled_stays havail hm hn⟩

/-! ### One row, four ways to fail -/

namespace Poison

/-- The relation after one ingest. -/
def sessions : Sessions.State :=
  { Sessions.State.initial with
    received := (insertReceivedRow 0 (Counting.insert "texts" 1) ReceivedTable.empty).1 }

theorem sessions_reachable : Sessions.system.Reachable sessions :=
  TransitionSystem.Reachable.step (a := .ingest (Counting.insert "texts" 1) 0)
    (TransitionSystem.Reachable.start rfl) rfl

def db : Database Nat :=
  { received := sessions.received
    cache := Table.empty
    app := 0 }

/-- A handler that comes to this whenever it is called, after a write of its own. -/
def handler (result : AppCall (Except Error Unit)) : Handler Nat Unit Unit :=
  fun _ _ _ db =>
    { result := result
      app := db.app + 1
      aborted := false }

/-- A dispatcher with the handlers given. -/
def dispatcher (handlers : SortedMap String (Handler Nat Unit Unit)) : Dispatcher Nat Unit :=
  { router :=
      { handlers := handlers
        beforeHandlers := SortedMap.empty }
    descriptor := { messageType := "text", topic := "texts" }
    retry := { maxAttempts := 3, errorsLimit := 5 }
    codec := Broker.Spelling.codec }

/-- A cycle every microsecond, each wait as given; the statement at a point in `refused` fails. -/
def schedule (refused : List Point) (backoff : Nanos) : Schedule Nat Unit :=
  { env := fun n =>
      { dueAt := 1000 * n
        now := n
        locked := fun _ => false
        beforeSees := ()
        afterSees := ()
        fails := fun point => if point ∈ refused then some "refused" else none
        lands := false
        backoff := backoff }
    outside := fun _ app => app }

/-! No handler at all. -/

/-- The states of a dispatcher without handlers. -/
abbrev unrouted (n : Nat) : Database Nat :=
  stateAt (dispatcher SortedMap.empty) (schedule [] 5000) db n

theorem messageType_unrouted (n : Nat) : ∀ r ∈ (unrouted n).received, r.messageType = "text" := by
  induction n with
  | zero =>
      exact List.forall_mem_singleton.2 rfl
  | succ n ih =>
      intro r' hr'
      have hstep : Step (dispatcher SortedMap.empty) _ _ _ := step_cycle ((schedule [] 5000).env n)
        { db := unrouted n
          fallbacks := []
          executions := [] }
      rcases hstep.origin hr' with ⟨r, hr, hfrozen⟩ | ⟨_, _, hingest, _⟩
      · exact (congrArg ReceivedRow.messageType hfrozen).trans (ih r hr)
      · cases hingest

theorem text_unrouted (n : Nat) :
    TextAccepted (dispatcher SortedMap.empty) ((schedule [] 5000).env n) (unrouted n) := by
  intro row failure hclaim hfailure
  have htype := messageType_unrouted n row (claimReceivedRow_spec hclaim).1
  have hrouted : ¬ (dispatcher SortedMap.empty).router.routes row.messageType = true :=
    fun h => (nomatch h)
  rw [failureOf, if_neg hrouted, htype] at hfailure
  cases hfailure
  simp only [ReceivedFailureRecord.of]
  decide +kernel

theorem available_unrouted (n : Nat) :
    Available (fun _ _ => True) (dispatcher SortedMap.empty) ((schedule [] 5000).env n)
      (unrouted n) :=
  { alone := fun _ => rfl
    others := fun _ _ _ => rfl
    commit := iff_of_true rfl fun _ _ _ _ _ => trivial
    recordFailure := iff_of_true rfl (text_unrouted n)
    refused := rfl }

theorem settled_unrouted : Settled (unrouted 11).received := by
  change ∀ r ∈ (unrouted 11).received.rows, r.status = .processed ∨ r.status = .failed
  decide +kernel

theorem clear_unrouted (n : Nat) :
    Clear (fun _ _ => True) (dispatcher SortedMap.empty) ((schedule [] 5000).env n)
      (unrouted n) := by
  refine ⟨fun _ _ _ _ _ => trivial, text_unrouted n, fun row failure hclaim hfailure => ?_⟩
  by_cases hn : n < 11
  · rcases failureOf_eq hfailure with ⟨disposition, message, rfl⟩
    refine not_panics_of_le ?_
    have hlast : (1000 * 11 + 5000 : Int) ≤ lastInstant := by decide +kernel
    change (1000 * n + 5000 : Int) ≤ lastInstant
    omega
  · -- By then nothing is claimed any more.
    have hsettled := settled_stays available_unrouted (Nat.le_of_not_lt hn) settled_unrouted
    cases (claimedAt_of_settled hsettled).symm.trans hclaim

theorem times_pass : TimesPass (dispatcher SortedMap.empty) (schedule [] 5000) db := by
  intro n r _
  refine ⟨max n (r.nextAttemptAt.getD 0).toNat, Nat.le_max_left _ _, fun time htime => ?_⟩
  have hmicros : ((schedule [] 5000).env (max n (r.nextAttemptAt.getD 0).toNat)).dueAt.timestamptz =
      (max n (r.nextAttemptAt.getD 0).toNat : Nat) := by
    simp [schedule, Instant.timestamptz]
  rw [hmicros, Option.mem_def.1 htime, Option.getD_some]
  exact le_trans (Int.self_le_toNat time) (Int.ofNat_le.2 (Nat.le_max_right _ _))

/-! A handler whose writes a deferred constraint refuses, one whose error text holds the character
PostgreSQL refuses, and one that fails where the retry policy waits too long. -/

def violating : Dispatcher Nat Unit :=
  dispatcher (SortedMap.empty.insert "text" (handler (.returned (.ok ()))))

def unprintable : Dispatcher Nat Unit :=
  dispatcher (SortedMap.empty.insert "text" (handler (.returned (.error (.handler "\x00")))))

def refusing : Dispatcher Nat Unit :=
  dispatcher (SortedMap.empty.insert "text" (handler (.returned (.error (.handler "refused")))))

/-- The shortest wait that six million days can be jittered to. -/
def patience : Nanos :=
  3000000 * 86400 * nanosPerSecond

/-- The one row, never touched. -/
def row : ReceivedRow :=
  (Counting.insert "texts" 1).row 0

theorem claim_row (refused : List Point) (backoff : Nanos) (n : Nat) :
    claimReceivedRow ((schedule refused backoff).env n).dueAt
      ((schedule refused backoff).env n).locked db.received = some row :=
  rfl

/-- Every cycle claims the row on an available database, and none advances it. -/
def Blocks (accepts : Nat → Nat → Prop) (dispatcher : Dispatcher Nat Unit)
    (schedule : Schedule Nat Unit) : Prop :=
  ∀ n, Available accepts dispatcher (schedule.env n) (stateAt dispatcher schedule db n) ∧
    claimedAt dispatcher schedule db n = some row ∧
    ¬ Advances row (stateAt dispatcher schedule db (n + 1)).received

/-- A cycle that is not clear leaves everything as it was, and so the next one is not clear. -/
theorem blocks_of_not_clear {accepts : Nat → Nat → Prop} {dispatcher : Dispatcher Nat Unit}
    {refused : List Point} {backoff : Nanos}
    (havail : ∀ n, Available accepts dispatcher ((schedule refused backoff).env n) db)
    (hnot : ∀ n, ¬ Clear accepts dispatcher ((schedule refused backoff).env n) db) :
    Blocks accepts dispatcher (schedule refused backoff) := by
  have hsame : ∀ n, stateAt dispatcher (schedule refused backoff) db n = db := by
    intro n
    induction n with
    | zero =>
        rfl
    | succ n ih =>
        rw [stateAt, ih, unchanged_of_not_clear (havail n) (claim_row _ _ n) (hnot n)]
        rfl
  intro n
  rw [claimedAt, hsame n, hsame (n + 1)]
  refine ⟨havail n, claim_row _ _ n, ?_⟩
  rintro ⟨r, hr, _, hadvanced⟩
  obtain rfl : r = row := List.mem_singleton.1 hr
  rcases hadvanced with hprocessed | hattempts
  · cases hprocessed
  · cases hattempts

theorem others_of_refused {refused : Point} {backoff : Nanos} {n : Nat} (point : Point)
    (h : point ≠ refused) : ((schedule [refused] backoff).env n).fails point = none := by
  simp [schedule, h]

theorem blocks_violating : Blocks (fun _ _ => False) violating (schedule [.commit] 5000) := by
  have hrefused : ∀ n,
      ¬ CommitAccepted (fun _ _ => False) violating ((schedule [.commit] 5000).env n) db := by
    intro n haccepted
    have hconverges : (convergeAndDispatch violating ((schedule [.commit] 5000).env n) row db).isOk =
        true := rfl
    rcases exists_ok_of_isOk hconverges with ⟨converged, hconverge⟩
    exact haccepted row converged (claim_row _ _ n) rfl hconverge
  refine blocks_of_not_clear (fun n => ?_) fun n hclear => hrefused n hclear.commit
  refine
    { alone := fun _ => rfl
      others := fun point hcommit _ => others_of_refused point hcommit
      commit := iff_of_false (fun h => (nomatch h)) (hrefused n)
      recordFailure := iff_of_true rfl fun row' failure hclaim hfailure => ?_
      refused := rfl }
  obtain rfl : row = row' := Option.some.inj ((claim_row _ _ n).symm.trans hclaim)
  cases hfailure

theorem blocks_unprintable :
    Blocks (fun _ _ => True) unprintable (schedule [.recordFailure] 5000) := by
  have hrefused : ∀ n,
      ¬ TextAccepted unprintable ((schedule [.recordFailure] 5000).env n) db := by
    intro n haccepted
    have hstorable := haccepted row _ (claim_row _ _ n) rfl
    simp only [ReceivedFailureRecord.of] at hstorable
    revert hstorable
    decide +kernel
  refine blocks_of_not_clear (fun n => ?_) fun n hclear => hrefused n hclear.text
  exact
    { alone := fun _ => rfl
      others := fun point _ hrecord => others_of_refused point hrecord
      commit := iff_of_true rfl fun _ _ _ _ _ => trivial
      recordFailure := iff_of_false (fun h => (nomatch h)) (hrefused n)
      refused := rfl }

theorem blocks_refusing : Blocks (fun _ _ => True) refusing (schedule [] patience) := by
  refine blocks_of_not_clear (fun n => ?_) fun n hclear => ?_
  · refine
      { alone := fun _ => rfl
        others := fun _ _ _ => rfl
        commit := iff_of_true rfl fun _ _ _ _ _ => trivial
        recordFailure := iff_of_true rfl fun row' failure hclaim hfailure => ?_
        refused := rfl }
    obtain rfl : row = row' := Option.some.inj ((claim_row _ _ n).symm.trans hclaim)
    cases hfailure
    simp only [ReceivedFailureRecord.of]
    decide +kernel
  · have hreturns := hclear.wait row _ (claim_row _ _ n) rfl
    rw [panics_of_lt] at hreturns
    · cases hreturns
    · rfl
    · have hfar : lastInstant < (patience : Int) := by decide +kernel
      change lastInstant < (1000 * n + patience : Int)
      omega

end Poison

open Poison in
/-- An unrouted row runs through its three attempts and is failed. -/
theorem dispatcher_drains_unrouted :
    (∀ n, claimingCycles (dispatcher SortedMap.empty) (schedule [] 5000) db n ≤ 3) ∧
      ∃ n, ∀ m, n ≤ m → Settled (unrouted m).received := by
  have hdrains := (dispatcher_drains (dispatcher SortedMap.empty) (fun _ _ => True)
    sessions_reachable db rfl (schedule [] 5000) available_unrouted).2 clear_unrouted
  exact ⟨hdrains.1, hdrains.2 times_pass⟩

open Poison in
/-- A row whose handler writes what a deferred constraint refuses, answers with U+0000, or fails under
a policy that waits past the end of the calendar, is claimed by every cycle and advanced by none. -/
theorem poison_row_blocks_dispatcher :
    Blocks (fun _ _ => False) violating (schedule [.commit] 5000) ∧
      Blocks (fun _ _ => True) unprintable (schedule [.recordFailure] 5000) ∧
      Blocks (fun _ _ => True) refusing (schedule [] patience) :=
  ⟨blocks_violating, blocks_unprintable, blocks_refusing⟩

end Drain
end Dispatch
end Kafkaman
