import Kafkaman.Core.Calendar
import Kafkaman.Received.Table
import Mathlib.Data.Prod.Lex

/-!
# Received.Rows — the statements of a dispatch cycle on the received relation

Claiming a due row, marking it processed, recording a failure against it, and the operator's
redrive.  Each is one statement of the source; `markMissOutcome` is the `SELECT` that follows a mark
which matched nothing.

* `FailureDisposition`, `receivedFailureSchedule` — how a failure is classified and when it is tried
  again, or that working it out panics;
* `claimReceivedRow_spec` — a claimed row is stored, unlocked and due;
* `mem_markReceivedProcessed`, `mem_recordReceivedFailure` — what the two marks do row by row;
* `redrive` — failed rows go back to pending with their source offset unchanged;
* `Timed` — which rows have a retry time, kept by every assignment.
-/

namespace Kafkaman
namespace Received

open Lib

/-! ## Claiming -/

/-- The rows a dispatch may still settle. -/
def unsettled (row : ReceivedRow) : Bool :=
  row.status = .pending || row.status = .retryable

/-- `WHERE` of the claim. -/
def due (dueAt : Instant) (row : ReceivedRow) : Bool :=
  (row.status = .pending &&
      (row.nextAttemptAt = none || sqlLe row.nextAttemptAt dueAt.timestamptz)) ||
    (row.status = .retryable && sqlLe row.nextAttemptAt dueAt.timestamptz)

/-- `claim_received_row`; `locked` holds the rows other transactions have locked. -/
def claimReceivedRow (dueAt : Instant) (locked : Uuid → Bool) (t : ReceivedTable) :
    Option ReceivedRow :=
  (orderByLimit ReceivedRow.createdAt 1
    (t.rows.filter fun r => due dueAt r && !locked r.messageId)).head?

theorem unsettled_of_due {dueAt : Instant} {row : ReceivedRow} (h : due dueAt row = true) :
    unsettled row = true := by
  rcases Bool.or_eq_true _ _ ▸ h with hpending | hretryable
  · simp [unsettled, (Bool.and_eq_true _ _ ▸ hpending).1]
  · simp [unsettled, (Bool.and_eq_true _ _ ▸ hretryable).1]

theorem claimReceivedRow_spec {dueAt : Instant} {locked : Uuid → Bool} {t : ReceivedTable}
    {row : ReceivedRow} (h : claimReceivedRow dueAt locked t = some row) :
    row ∈ t ∧ unsettled row = true := by
  have hmem := mem_of_mem_orderByLimit (List.mem_of_mem_head? h)
  have hfilter := List.mem_filter.1 hmem
  have hdue : due dueAt row = true := by
    have := hfilter.2
    simp only [Bool.and_eq_true] at this
    exact this.1
  exact ⟨hfilter.1, unsettled_of_due hdue⟩

theorem unlocked_of_claimReceivedRow {dueAt : Instant} {locked : Uuid → Bool} {t : ReceivedTable}
    {row : ReceivedRow} (h : claimReceivedRow dueAt locked t = some row) :
    locked row.messageId = false := by
  have hfilter := (List.mem_filter.1 (mem_of_mem_orderByLimit (List.mem_of_mem_head? h))).2
  rw [Bool.and_eq_true] at hfilter
  simpa using hfilter.2

/-! ## Dispositions and the retry budget -/

/-- How a dispatch failure is recorded: its class, the frame that raised it, and whether another
attempt could change the outcome. -/
structure FailureDisposition where
  kind : ReceivedFailureKind
  stage : FailureStage
  terminal : Bool
  deriving DecidableEq, Repr

/-- Errors that are a property of the stored row. -/
def isTerminal : Error → Bool
  | .cacheOriginMismatch _ _ _ _ _ | .missingEntityKey _ _ | .invalidEntityKey _ => true
  | _ => false

def failureDisposition (error : Error) (stage : FailureStage) : FailureDisposition :=
  { kind := error.failureKind
    stage := stage
    terminal := isTerminal error }

/-- The part of `RetryPolicy` that decides what a failure does to its row. -/
structure RetryPolicy where
  maxAttempts : Nat
  errorsLimit : Nat
  deriving DecidableEq

structure FailureSchedule where
  exhausted : Bool
  nextAttemptAt : Option Instant
  errorsLimit : Nat

/-- `received_retry_outcome`, on the counts an `i32` can hold: the source's clamp and saturation change
nothing there. -/
def retryOutcome (policy : RetryPolicy) (currentAttempts : Nat)
    (disposition : FailureDisposition) : Nat × Bool :=
  (currentAttempts + 1, disposition.terminal || policy.maxAttempts ≤ currentAttempts + 1)

/-- The schedule of a failure in a calendar without an end; `backoff` is the jittered wait drawn for
it. -/
def failureSchedule (policy : RetryPolicy) (currentAttempts : Nat) (occurredAt : Instant)
    (disposition : FailureDisposition) (backoff : Nanos) : FailureSchedule :=
  let exhausted := (retryOutcome policy currentAttempts disposition).2
  { exhausted := exhausted
    nextAttemptAt := if exhausted then none else some (occurredAt + backoff)
    errorsLimit := max policy.errorsLimit 1 }

/-- `received_failure_schedule`; `none` where the next attempt is past the last instant, and the
addition panics. -/
def receivedFailureSchedule (policy : RetryPolicy) (currentAttempts : Nat) (occurredAt : Instant)
    (disposition : FailureDisposition) (backoff : Nanos) : Option FailureSchedule :=
  let schedule := failureSchedule policy currentAttempts occurredAt disposition backoff
  if schedule.nextAttemptAt.all (· ≤ lastInstant) then some schedule else none

/-! ## Marks -/

/-- Everything one failure needs recorded about it. -/
structure ReceivedFailureRecord where
  messageId : Uuid
  disposition : FailureDisposition
  message : String
  occurredAt : Instant
  currentAttempts : Nat
  deriving DecidableEq

def ReceivedFailureRecord.of (row : ReceivedRow) (disposition : FailureDisposition)
    (message : String) (occurredAt : Instant) : ReceivedFailureRecord :=
  { messageId := row.messageId
    disposition := disposition
    message := message
    occurredAt := occurredAt
    currentAttempts := row.attempts }

/-- Whether recording the failure panics, before any statement of its own. -/
def ReceivedFailureRecord.panics (failure : ReceivedFailureRecord) (policy : RetryPolicy)
    (backoff : Nanos) : Bool :=
  (receivedFailureSchedule policy failure.currentAttempts failure.occurredAt failure.disposition
    backoff).isNone

theorem not_panics_of_le {failure : ReceivedFailureRecord} {policy : RetryPolicy} {backoff : Nanos}
    (h : failure.occurredAt + (backoff : Int) ≤ lastInstant) : failure.panics policy backoff = false := by
  simp only [ReceivedFailureRecord.panics, receivedFailureSchedule, failureSchedule]
  split <;> simp [h]

theorem panics_of_lt {failure : ReceivedFailureRecord} {policy : RetryPolicy} {backoff : Nanos}
    (hretried : (retryOutcome policy failure.currentAttempts failure.disposition).2 = false)
    (h : lastInstant < failure.occurredAt + (backoff : Int)) : failure.panics policy backoff = true := by
  simp [ReceivedFailureRecord.panics, receivedFailureSchedule, failureSchedule, hretried, h]

/-- The newest `limit` entries of a history, oldest first. -/
def keepNewest (limit : Nat) (errors : List ReceivedError) : List ReceivedError :=
  errors.drop (errors.length - limit)

/-- What `mark_received_processed` assigns. -/
def processedRow (processedAt : Instant) (row : ReceivedRow) : ReceivedRow :=
  { row with
    status := .processed
    processedAt := some processedAt.timestamptz }

/-- What `record_received_failure` assigns. -/
def failedRow (policy : RetryPolicy) (failure : ReceivedFailureRecord) (backoff : Nanos)
    (row : ReceivedRow) : ReceivedRow :=
  let schedule := failureSchedule policy failure.currentAttempts failure.occurredAt
    failure.disposition backoff
  { row with
    status := if schedule.exhausted then .failed else .retryable
    attempts := row.attempts + 1
    nextAttemptAt := schedule.nextAttemptAt.map Instant.timestamptz
    errors := keepNewest schedule.errorsLimit
      (row.errors ++ [ReceivedError.new failure.disposition.kind failure.message
        failure.occurredAt (some failure.disposition.stage)])
    lastFailedAt := some failure.occurredAt.timestamptz
    lastFailureKind := some failure.disposition.kind }

theorem frozen_processedRow (processedAt : Instant) (row : ReceivedRow) :
    (processedRow processedAt row).frozen = row.frozen :=
  rfl

theorem frozen_failedRow (policy : RetryPolicy) (failure : ReceivedFailureRecord)
    (backoff : Nanos) (row : ReceivedRow) :
    (failedRow policy failure backoff row).frozen = row.frozen :=
  rfl

/-- `WHERE` of both marks. -/
def markable (messageId : Uuid) (row : ReceivedRow) : Bool :=
  row.messageId = messageId && unsettled row

/-- `mark_miss_outcome`. -/
def markMissOutcome (messageId : Uuid) (t : ReceivedTable) : MarkOutcome :=
  if t.toTable.HasKey messageId then .staleClaim else .missing

/-- The outcome of an `UPDATE` of `markable` rows. -/
def markOutcome (messageId : Uuid) (t : ReceivedTable) : MarkOutcome :=
  if t.toTable.rowsAffected (markable messageId) = 1 then .updated
  else markMissOutcome messageId t

def markReceivedProcessed (messageId : Uuid) (processedAt : Instant) (t : ReceivedTable) :
    ReceivedTable × MarkOutcome :=
  (t.updateWhere (markable messageId) (processedRow processedAt) (frozen_processedRow processedAt),
    markOutcome messageId t)

/-- `record_received_failure`, where it does not panic. -/
def recordReceivedFailure (policy : RetryPolicy) (failure : ReceivedFailureRecord)
    (backoff : Nanos) (t : ReceivedTable) : ReceivedTable × MarkOutcome :=
  (t.updateWhere (markable failure.messageId) (failedRow policy failure backoff)
      (frozen_failedRow policy failure backoff),
    markOutcome failure.messageId t)

theorem markable_iff {messageId : Uuid} {row : ReceivedRow} :
    markable messageId row = true ↔ row.messageId = messageId ∧ unsettled row = true := by
  simp [markable]

theorem mem_markReceivedProcessed {messageId : Uuid} {processedAt : Instant}
    {t : ReceivedTable} {r' : ReceivedRow} :
    r' ∈ (markReceivedProcessed messageId processedAt t).1 ↔
      ∃ r ∈ t, (if markable messageId r then processedRow processedAt r else r) = r' := by
  simp only [markReceivedProcessed, ReceivedTable.mem_updateWhere]

theorem persists_markReceivedProcessed {messageId : Uuid} {processedAt : Instant}
    {t : ReceivedTable} : t.Persists (markReceivedProcessed messageId processedAt t).1 :=
  ReceivedTable.persists_updateWhere (frozen_processedRow processedAt)

theorem persists_recordReceivedFailure {policy : RetryPolicy} {failure : ReceivedFailureRecord}
    {backoff : Nanos} {t : ReceivedTable} :
    t.Persists (recordReceivedFailure policy failure backoff t).1 :=
  ReceivedTable.persists_updateWhere (frozen_failedRow policy failure backoff)

theorem mem_recordReceivedFailure {policy : RetryPolicy} {failure : ReceivedFailureRecord}
    {backoff : Nanos} {t : ReceivedTable} {r' : ReceivedRow} :
    r' ∈ (recordReceivedFailure policy failure backoff t).1 ↔
      ∃ r ∈ t,
        (if markable failure.messageId r then failedRow policy failure backoff r else r) = r' := by
  simp only [recordReceivedFailure, ReceivedTable.mem_updateWhere]

/-! ## Redrive -/

/-- The received-row replay an operator runs. -/
structure Replay where
  occurredAfter : Option Timestamp
  maxRows : Nat
  failureKind : Option ReceivedFailureKind
  clearHistory : Bool

/-- `replay_received_filter_sql`. -/
def replayFilter (replay : Replay) (row : ReceivedRow) : Bool :=
  row.status = .failed &&
    (match replay.occurredAfter with
      | none => true
      | some after =>
          match row.lastFailedAt with
          | none => false
          | some failedAt => after ≤ failedAt) &&
    (match replay.failureKind with
      | none => true
      | some kind => row.lastFailureKind = some kind)

/-- `ORDER BY last_failed_at, created_at, message_id`, nulls last. -/
def failureOrder (row : ReceivedRow) : Bool ×ₗ Int ×ₗ Int ×ₗ Nat :=
  toLex (row.lastFailedAt.isNone,
    toLex (row.lastFailedAt.getD 0, toLex (row.createdAt, row.messageId.toNat)))

/-- What a redrive assigns. -/
def redrivenRow (clearHistory : Bool) (row : ReceivedRow) : ReceivedRow :=
  { row with
    status := .pending
    nextAttemptAt := none
    processedAt := none
    attempts := if clearHistory then 0 else row.attempts
    errors := if clearHistory then [] else row.errors
    lastFailedAt := if clearHistory then none else row.lastFailedAt
    lastFailureKind := if clearHistory then none else row.lastFailureKind }

theorem frozen_redrivenRow (clearHistory : Bool) (row : ReceivedRow) :
    (redrivenRow clearHistory row).frozen = row.frozen :=
  rfl

/-- The candidates of a redrive: the oldest failures first, no locked row among them. -/
def redriveCandidates (replay : Replay) (locked : Uuid → Bool) (t : ReceivedTable) :
    List ReceivedRow :=
  orderByLimit failureOrder replay.maxRows
    (t.rows.filter fun r => replayFilter replay r && !locked r.messageId)

/-- `redrive_received`. -/
def redrive (replay : Replay) (locked : Uuid → Bool) (t : ReceivedTable) : ReceivedTable :=
  t.updateWhere
    (fun r =>
      (redriveCandidates replay locked t).any (fun c => c.messageId = r.messageId) &&
        replayFilter replay r)
    (redrivenRow replay.clearHistory) (frozen_redrivenRow replay.clearHistory)

theorem persists_redrive {replay : Replay} {locked : Uuid → Bool} {t : ReceivedTable} :
    t.Persists (redrive replay locked t) :=
  ReceivedTable.persists_updateWhere (frozen_redrivenRow replay.clearHistory)

/-! ## Retry times -/

/-- A retryable row has a retry time; a pending or a failed one has none. -/
structure Timed (row : ReceivedRow) : Prop where
  scheduled : row.status = .retryable → row.nextAttemptAt ≠ none
  unscheduled : row.status = .pending ∨ row.status = .failed → row.nextAttemptAt = none

theorem timed_inserted (insert : InsertReceivedRow) (now : Timestamp) : Timed (insert.row now) :=
  ⟨fun hstatus => (nomatch hstatus), fun _ => rfl⟩

theorem timed_processedRow (processedAt : Instant) (row : ReceivedRow) :
    Timed (processedRow processedAt row) := by
  refine ⟨fun hstatus => (nomatch hstatus), fun hstatus => ?_⟩
  rcases hstatus with hstatus | hstatus
  · cases hstatus
  · cases hstatus

theorem timed_failedRow (policy : RetryPolicy) (failure : ReceivedFailureRecord) (backoff : Nanos)
    (row : ReceivedRow) : Timed (failedRow policy failure backoff row) := by
  cases hexhausted : (retryOutcome policy failure.currentAttempts failure.disposition).2 with
  | true => exact ⟨by simp [failedRow, failureSchedule, hexhausted], by simp [failedRow, failureSchedule, hexhausted]⟩
  | false => exact ⟨by simp [failedRow, failureSchedule, hexhausted], by simp [failedRow, failureSchedule, hexhausted]⟩

theorem timed_redrivenRow (clearHistory : Bool) (row : ReceivedRow) :
    Timed (redrivenRow clearHistory row) :=
  ⟨fun hstatus => (nomatch hstatus), fun _ => rfl⟩

end Received
end Kafkaman
