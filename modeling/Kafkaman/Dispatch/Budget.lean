import Kafkaman.Dispatch.Effects
import Kafkaman.Dispatch.Sessions

/-!
# Dispatch.Budget — the retry budget under concurrent dispatchers

Whether a failure exhausts its row is decided from the attempts read at the claim, and the statement
then increments the attempts stored.  In the claim transaction the two are the same number.  On a
fresh connection they need not be: between the claim and the record another dispatcher may have
recorded a failure of its own.

* `RecordsCurrent` — no failure has been recorded in that window;
* `retry_budget_kept` — then no row is retryable with its budget spent;
* `retry_budget_overrun` — otherwise one can be.
-/

namespace Kafkaman
namespace Dispatch
namespace Sessions

open Lib Received

/-- A record on a fresh connection finds no more attempts than its claim read. -/
def RecordsCurrent (s : State) : Action → Prop
  | .record index _ _ =>
      ∀ failure ∈ s.pending[index]?, ∀ r ∈ s.received.rows,
        markable failure.messageId r = true → r.attempts ≤ failure.currentAttempts
  | _ => True

/-- No row is retryable with its attempts used up. -/
def WithinBudget (policy : RetryPolicy) (t : ReceivedTable) : Prop :=
  ∀ r ∈ t, r.status = .retryable → r.attempts < policy.maxAttempts

theorem attempts_lt_of_retryable {policy : RetryPolicy} {failure : ReceivedFailureRecord}
    {backoff : Nanos} {r : ReceivedRow} (hcurrent : r.attempts ≤ failure.currentAttempts)
    (hstatus : (failedRow policy failure backoff r).status = .retryable) :
    (failedRow policy failure backoff r).attempts < policy.maxAttempts := by
  have hverdict : (retryOutcome policy failure.currentAttempts failure.disposition).2 = false := by
    cases hexhausted : (retryOutcome policy failure.currentAttempts failure.disposition).2 with
    | false =>
        rfl
    | true =>
        simp [failedRow, failureSchedule, hexhausted] at hstatus
  simp only [retryOutcome, Bool.or_eq_false_iff, decide_eq_false_iff_not, Nat.not_le] at hverdict
  calc
    (failedRow policy failure backoff r).attempts = r.attempts + 1 := rfl
    _ ≤ failure.currentAttempts + 1 := Nat.succ_le_succ hcurrent
    _ < policy.maxAttempts := hverdict.2

theorem WithinBudget.record {policy : RetryPolicy} {t : ReceivedTable}
    (h : WithinBudget policy t) {failure : ReceivedFailureRecord} {backoff : Nanos}
    (hcurrent : ∀ r ∈ t, markable failure.messageId r = true →
      r.attempts ≤ failure.currentAttempts) :
    WithinBudget policy (recordReceivedFailure policy failure backoff t).1 := by
  intro r' hr' hstatus
  rcases mem_recordReceivedFailure.1 hr' with ⟨r, hr, rfl⟩
  by_cases hmark : markable failure.messageId r = true
  · rw [if_pos hmark] at hstatus ⊢
    exact attempts_lt_of_retryable (hcurrent r hr hmark) hstatus
  · rw [if_neg hmark] at hstatus ⊢
    exact h r hr hstatus

theorem withinBudget_step {policy : RetryPolicy} {s s' : State} {a : Action} (hheld : Held s)
    (h : WithinBudget policy s.received) (hpolicy : a.FixedPolicy policy)
    (hcurrent : RecordsCurrent s a) (hstep : Step s a s') : WithinBudget policy s'.received := by
  cases hstep with
  | ingested =>
      intro r hr hstatus
      rcases mem_of_insertReceivedRow hr with hold | rfl
      · exact h r hold hstatus
      · cases hstatus
  | claimedNone =>
      exact h
  | claimed _ =>
      exact h
  | settled _ =>
      intro r' hr' hstatus
      rcases mem_markReceivedProcessed.1 hr' with ⟨r, hr, rfl⟩
      split at hstatus
      · cases hstatus
      · rename_i hmark
        rw [if_neg hmark]
        exact h r hr hstatus
  | @failed _ used _ _ _ _ row hrow =>
      obtain rfl : used = policy := hpolicy used rfl
      -- The transaction holds its row, so the count it read is the count stored.
      refine h.record fun r hr hmark => ?_
      rw [hheld.eq_of_markable hrow hr hmark]
      exact Nat.le_refl _
  | unwound _ =>
      exact h
  | lost =>
      exact h
  | @recorded _ used _ failure hfailure _ =>
      obtain rfl : used = policy := hpolicy used rfl
      exact h.record fun r hr hmark => hcurrent failure hfailure r hr hmark
  | crashed =>
      exact h
  | redriven =>
      intro r' hr' hstatus
      rcases mem_redrive.1 hr' with ⟨r, hr, rfl⟩
      split at hstatus
      · cases hstatus
      · rename_i hredriven
        rw [if_neg hredriven]
        exact h r hr hstatus

/-- With a fixed policy, and every record on a fresh connection current, no row is ever retryable
with its budget spent. -/
theorem retry_budget_kept (policy : RetryPolicy) {s : State}
    (h : system.ReachableBy (fun s a => a.FixedPolicy policy ∧ RecordsCurrent s a) s)
    {r : ReceivedRow} (hr : r ∈ s.received) :
    ¬ (r.status = .retryable ∧ policy.maxAttempts ≤ r.attempts) := by
  have hboth : Held s ∧ WithinBudget policy s.received := by
    refine TransitionSystem.ReachableBy.invariant
      (I := fun s => Held s ∧ WithinBudget policy s.received) ?_ ?_ h
    · rintro s rfl
      exact ⟨held_initial, fun r hr => absurd hr ReceivedTable.not_mem_empty⟩
    · rintro s a s' ⟨hheld, hbudget⟩ ⟨hpolicy, hcurrent⟩ hnext
      have hstep := step_of_next hnext
      exact ⟨held_step hheld hstep, withinBudget_step hheld hbudget hpolicy hcurrent hstep⟩
  rintro ⟨hstatus, hspent⟩
  exact Nat.not_lt.2 hspent (hboth.2 r hr hstatus)

/-! ### Two dispatchers and one row -/

/-- Two attempts, the second of them the last. -/
def twice : RetryPolicy :=
  { maxAttempts := 2, errorsLimit := 5 }

def refusal : FailureDisposition :=
  { kind := .handler, stage := .handler, terminal := false }

/-- A dispatcher claims the row and its savepoint rollback fails.  It records the failure on a fresh
connection, after another dispatcher has claimed the row and failed too if one is given. -/
def race (between : List Action) : List Action :=
  [.ingest (Counting.insert "texts" 1) 0, .claim 1000 fun _ => false,
    .unwind 0 refusal "refused" 1000] ++ between ++ [.record 0 twice 0]

instance (s : State) : (a : Action) → Decidable (RecordsCurrent s a)
  | .record index _ _ =>
      inferInstanceAs (Decidable (∀ failure ∈ s.pending[index]?, ∀ r ∈ s.received.rows,
        markable failure.messageId r = true → r.attempts ≤ failure.currentAttempts))
  | .ingest _ _ | .claim _ _ | .settle _ _ | .fail _ _ _ _ _ _ | .unwind _ _ _ _ | .lose _
  | .crash _ | .redrive _ _ => isTrue trivial

/-- The fallback alone: the failure counts once, and the row may be tried again. -/
theorem retry_budget_kept_fallback :
    ∃ s, system.ReachableBy (fun s a => a.FixedPolicy twice ∧ RecordsCurrent s a) s ∧
      ∃ r ∈ s.received, r.status = .retryable ∧ r.attempts = 1 ∧
        ¬ (r.status = .retryable ∧ twice.maxAttempts ≤ r.attempts) := by
  obtain ⟨s, hreach, r, hr, hstatus, hattempts⟩ :
      ∃ s, system.ReachableBy (fun s a => a.FixedPolicy twice ∧ RecordsCurrent s a) s ∧
        ∃ r ∈ s.received.rows, r.status = .retryable ∧ r.attempts = 1 :=
    TransitionSystem.exists_reachableBy_of_run (TransitionSystem.ReachableBy.start rfl) (race [])
      (by decide +kernel) (by decide +kernel)
  exact ⟨s, hreach, r, hr, hstatus, hattempts, retry_budget_kept twice hreach hr⟩

/-- Both dispatchers read no attempts, both decide that one more is left, and the row ends up
retryable with both attempts made. -/
theorem retry_budget_overrun :
    ∃ s, system.ReachableBy (fun _ a => a.FixedPolicy twice) s ∧
      ∃ r ∈ s.received, r.status = .retryable ∧ twice.maxAttempts ≤ r.attempts := by
  obtain ⟨s, hreach, r, hr, hspent⟩ :
      ∃ s, system.ReachableBy (fun _ a => a.FixedPolicy twice) s ∧
        ∃ r ∈ s.received.rows, r.status = .retryable ∧ twice.maxAttempts ≤ r.attempts :=
    TransitionSystem.exists_reachableBy_of_run (TransitionSystem.ReachableBy.start rfl)
      (race [.claim 1000 fun _ => false, .fail 0 twice refusal "refused" 1000 0])
      (by decide +kernel) (by decide +kernel)
  exact ⟨s, hreach, r, hr, hspent⟩

end Sessions
end Dispatch
end Kafkaman
