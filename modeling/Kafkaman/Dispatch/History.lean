import Kafkaman.Dispatch.Effects
import Kafkaman.Dispatch.Sessions

/-!
# Dispatch.History — the failure columns of a received row tell one story

Four statements write overlapping parts of status, schedule, attempts, errors and the two
denormalised columns.  `Coherent` says what the columns have to do with each other and with the
failures recorded against the row; each statement keeps it, for every row it touches and for every
row it does not.

* `keepNewest_keepNewest_append` — trimming at every append is trimming once at the end;
* `Coherent.inserted`, `.processed`, `.failed`, `.redriven` — one lemma for each statement;
* `received_history_coherent` — every reachable state.
-/

namespace Kafkaman
namespace Dispatch
namespace Sessions

open Lib Received

/-! ## The trimmed array -/

/-- Trimming at every append keeps what one trim of the whole history would. -/
theorem keepNewest_keepNewest_append {limit : Nat} (hlimit : 1 ≤ limit)
    (history : List ReceivedError) (e : ReceivedError) :
    keepNewest limit (keepNewest limit history ++ [e]) = keepNewest limit (history ++ [e]) := by
  simp only [keepNewest, List.length_append, List.length_drop, List.length_singleton]
  rcases Nat.lt_or_ge history.length limit with hshort | hlong
  · -- Nothing has been trimmed yet.
    have hzero : history.length - limit = 0 := by omega
    rw [hzero, List.drop_zero, Nat.sub_zero]
  · -- The array is full, and the append pushes its oldest entry out.
    have hone : history.length - (history.length - limit) + 1 - limit = 1 := by omega
    have hnext : history.length + 1 - limit = history.length - limit + 1 := by omega
    have hfit : 1 ≤ (history.drop (history.length - limit)).length := by
      rw [List.length_drop]
      omega
    calc
      ((history.drop (history.length - limit)) ++ [e]).drop
            (history.length - (history.length - limit) + 1 - limit)
          = (history.drop (history.length - limit)).drop 1 ++ [e] := by
            rw [hone, List.drop_append_of_le_length hfit]
      _ = history.drop (history.length - limit + 1) ++ [e] := by
            rw [List.drop_drop]
      _ = (history ++ [e]).drop (history.length + 1 - limit) := by
            rw [hnext, List.drop_append_of_le_length (by omega)]

theorem keepNewest_nil (limit : Nat) : keepNewest limit [] = [] :=
  List.drop_nil

theorem keepNewest_suffix (limit : Nat) (history : List ReceivedError) :
    keepNewest limit history <:+ history :=
  List.drop_suffix _ _

theorem length_keepNewest (limit : Nat) (history : List ReceivedError) :
    (keepNewest limit history).length = min limit history.length := by
  rw [keepNewest, List.length_drop]
  omega

theorem getLast?_keepNewest {limit : Nat} (hlimit : 1 ≤ limit) (history : List ReceivedError) :
    (keepNewest limit history).getLast? = history.getLast? := by
  rw [keepNewest, List.getLast?_drop]
  cases history with
  | nil =>
      simp
  | cons e rest =>
      rw [if_neg]
      simp only [List.length_cons]
      omega

/-! ## One row -/

/-- The columns of a row, given the failures recorded since its history was last cleared. -/
structure Coherent (limit : Nat) (history : List ReceivedError) (r : ReceivedRow) : Prop where
  timed : Timed r
  errors : r.errors = keepNewest (max limit 1) history
  attempts : r.attempts = history.length
  lastFailedAt : r.lastFailedAt = history.getLast?.map fun e => e.occurredAt.timestamptz
  lastFailureKind : r.lastFailureKind = history.getLast?.map ReceivedError.kind

theorem Coherent.inserted (limit : Nat) (insert : InsertReceivedRow) (now : Timestamp) :
    Coherent limit [] (insert.row now) :=
  { timed := timed_inserted insert now
    errors := (keepNewest_nil _).symm
    attempts := rfl
    lastFailedAt := rfl
    lastFailureKind := rfl }

section Row

variable {limit : Nat} {history : List ReceivedError} {r : ReceivedRow}

theorem Coherent.processed (h : Coherent limit history r) (processedAt : Instant) :
    Coherent limit history (processedRow processedAt r) :=
  { h with
    timed := timed_processedRow processedAt r }

theorem Coherent.failed (h : Coherent limit history r) {policy : RetryPolicy}
    (hlimit : policy.errorsLimit = limit) (failure : ReceivedFailureRecord) (backoff : Nanos) :
    Coherent limit (history ++ [entry failure]) (failedRow policy failure backoff r) := by
  refine
    { timed := timed_failedRow policy failure backoff r
      errors := ?_
      attempts := ?_
      lastFailedAt := ?_
      lastFailureKind := ?_ }
  · calc
      (failedRow policy failure backoff r).errors
          = keepNewest (max limit 1) (r.errors ++ [entry failure]) := by
            rw [← hlimit]
            rfl
      _ = keepNewest (max limit 1) (keepNewest (max limit 1) history ++ [entry failure]) := by
            rw [h.errors]
      _ = keepNewest (max limit 1) (history ++ [entry failure]) :=
            keepNewest_keepNewest_append (Nat.le_max_right limit 1) _ _
  · rw [List.length_append, ← h.attempts]
    rfl
  · rw [List.getLast?_concat]
    rfl
  · rw [List.getLast?_concat]
    rfl

theorem Coherent.redriven (h : Coherent limit history r) (clearHistory : Bool) :
    Coherent limit (if clearHistory then [] else history) (redrivenRow clearHistory r) := by
  cases clearHistory with
  | true =>
      exact
        { timed := timed_redrivenRow true r
          errors := (keepNewest_nil _).symm
          attempts := rfl
          lastFailedAt := rfl
          lastFailureKind := rfl }
  | false =>
      exact
        { h with
          timed := timed_redrivenRow false r }

end Row

/-! ## What the statements do to the histories -/

theorem note_outcome_updated {s : State} {policy : RetryPolicy}
    {failure : ReceivedFailureRecord} {backoff : Nanos} :
    (recordReceivedFailure policy failure backoff s.received).2 = .updated ↔
      ∃ r ∈ s.received, markable failure.messageId r = true := by
  have hone := Table.rowsAffected_eq_one (t := s.received.toTable)
    fun r (hmark : markable failure.messageId r = true) => (markable_iff.1 hmark).1
  simp only [recordReceivedFailure, markOutcome, markMissOutcome]
  constructor
  · intro h
    split at h
    · rename_i haffected
      exact hone.1 haffected
    · split at h <;> cases h
  · intro h
    rw [if_pos (hone.2 h)]

theorem history_note {s : State} {policy : RetryPolicy} {failure : ReceivedFailureRecord}
    {backoff : Nanos} {r : ReceivedRow} (hr : r ∈ s.received) :
    (s.note policy failure backoff).history r.messageId =
      if markable failure.messageId r then s.history r.messageId ++ [entry failure]
      else s.history r.messageId := by
  simp only [State.note]
  by_cases hmark : markable failure.messageId r = true
  · rw [if_pos (note_outcome_updated.2 ⟨r, hr, hmark⟩), if_pos hmark, (markable_iff.1 hmark).1,
      Function.update_self]
  · rw [if_neg hmark]
    split
    · rename_i hupdated
      rcases note_outcome_updated.1 hupdated with ⟨other, hother, hmark'⟩
      -- The updated row is another one, so it has another id.
      have hne : r.messageId ≠ failure.messageId := by
        intro hid
        have heq : r = other := ReceivedTable.eq_of_messageId_eq hr hother
          (hid.trans (markable_iff.1 hmark').1.symm)
        exact hmark (heq ▸ hmark')
      rw [Function.update_of_ne hne]
    · rfl

theorem history_note_of_absent {s : State} {policy : RetryPolicy}
    {failure : ReceivedFailureRecord} {backoff : Nanos} {messageId : Uuid}
    (habsent : ¬ s.received.toTable.HasKey messageId) :
    (s.note policy failure backoff).history messageId = s.history messageId := by
  simp only [State.note]
  split
  · rename_i hupdated
    rcases note_outcome_updated.1 hupdated with ⟨r, hr, hmark⟩
    refine Function.update_of_ne ?_ _ _
    rintro rfl
    exact habsent ⟨r, hr, (markable_iff.1 hmark).1⟩
  · rfl

theorem clearedHistory_of_mem {replay : Replay} {locked : Uuid → Bool} {t : ReceivedTable}
    {history : Uuid → List ReceivedError} {r : ReceivedRow} (hr : r ∈ t) :
    clearedHistory replay locked t history r.messageId =
      if redriven replay locked t r then
        if replay.clearHistory then [] else history r.messageId
      else history r.messageId := by
  have hany : t.rows.any (fun row => row.messageId = r.messageId && redriven replay locked t row) =
      redriven replay locked t r := by
    rw [Bool.eq_iff_iff, List.any_eq_true]
    constructor
    · rintro ⟨other, hother, hboth⟩
      rw [Bool.and_eq_true, decide_eq_true_eq] at hboth
      have heq : other = r := ReceivedTable.eq_of_messageId_eq hother hr hboth.1
      exact heq ▸ hboth.2
    · intro hredriven
      exact ⟨r, hr, by simp [hredriven]⟩
  rw [clearedHistory, hany]
  cases replay.clearHistory with
  | true =>
      simp
  | false =>
      simp

/-! ## Every reachable state -/

/-- Every row is coherent with its history, and an id without a row has none. -/
structure CoherentState (limit : Nat) (s : State) : Prop where
  rows : ∀ r ∈ s.received, Coherent limit (s.history r.messageId) r
  absent : ∀ messageId, ¬ s.received.toTable.HasKey messageId → s.history messageId = []

/-- Every failure is recorded under this `errors_limit`. -/
def Action.FixedErrorsLimit (limit : Nat) (a : Action) : Prop :=
  ∀ policy ∈ a.policy?, policy.errorsLimit = limit

instance (limit : Nat) (a : Action) : Decidable (a.FixedErrorsLimit limit) :=
  inferInstanceAs (Decidable (∀ policy ∈ a.policy?, policy.errorsLimit = limit))

theorem CoherentState.ingested {limit : Nat} {s : State} (h : CoherentState limit s)
    (insert : InsertReceivedRow) (now : Timestamp) :
    CoherentState limit
      { s with received := (insertReceivedRow now insert s.received).1 } := by
  refine ⟨fun r hr => ?_, fun messageId habsent => ?_⟩
  · rcases mem_of_insertReceivedRow hr with hold | hnew
    · exact h.rows r hold
    · by_cases hkey : s.received.toTable.HasKey r.messageId
      · -- A row that is there already is the one under its id.
        rcases hkey with ⟨old, hold, hid⟩
        have heq : old = r :=
          ReceivedTable.eq_of_messageId_eq (mem_insertReceivedRow_of_mem hold) hr hid
        exact h.rows r (heq ▸ hold)
      · change Coherent limit (s.history r.messageId) r
        rw [h.absent _ hkey, hnew]
        exact Coherent.inserted limit insert now
  · refine h.absent messageId fun hkey => habsent ?_
    rcases hkey with ⟨r, hr, hid⟩
    exact ⟨r, mem_insertReceivedRow_of_mem hr, hid⟩

theorem CoherentState.note {limit : Nat} {s : State} (h : CoherentState limit s)
    {policy : RetryPolicy} (hlimit : policy.errorsLimit = limit)
    (failure : ReceivedFailureRecord) (backoff : Nanos) :
    CoherentState limit (s.note policy failure backoff) := by
  refine ⟨fun r' hr' => ?_, fun messageId habsent => ?_⟩
  · rcases mem_recordReceivedFailure.1 hr' with ⟨r, hr, rfl⟩
    have hhistory := @history_note s policy failure backoff r hr
    by_cases hmark : markable failure.messageId r = true
    · rw [if_pos hmark] at hhistory ⊢
      change Coherent limit ((s.note policy failure backoff).history r.messageId) _
      rw [hhistory]
      exact (h.rows r hr).failed hlimit failure backoff
    · rw [if_neg hmark] at hhistory ⊢
      rw [hhistory]
      exact h.rows r hr
  · have hbefore : ¬ s.received.toTable.HasKey messageId :=
      fun hkey => habsent ((ReceivedTable.hasKey_updateWhere (frozen_failedRow _ _ _)).2 hkey)
    rw [history_note_of_absent hbefore]
    exact h.absent messageId hbefore

theorem CoherentState.settled {limit : Nat} {s : State} (h : CoherentState limit s)
    (messageId : Uuid) (processedAt : Instant) (claims : List ReceivedRow) :
    CoherentState limit
      { s with
        received := (markReceivedProcessed messageId processedAt s.received).1
        claims := claims } := by
  refine ⟨fun r' hr' => ?_, fun id habsent => ?_⟩
  · rcases mem_markReceivedProcessed.1 hr' with ⟨r, hr, rfl⟩
    split
    · exact (h.rows r hr).processed processedAt
    · exact h.rows r hr
  · exact h.absent id fun hkey =>
      habsent ((ReceivedTable.hasKey_updateWhere (frozen_processedRow _)).2 hkey)

theorem CoherentState.redriven {limit : Nat} {s : State} (h : CoherentState limit s)
    (replay : Replay) (locked : Uuid → Bool) :
    CoherentState limit
      { s with
        received := redrive replay locked s.received
        history := clearedHistory replay locked s.received s.history } := by
  refine ⟨fun r' hr' => ?_, fun messageId habsent => ?_⟩
  · rcases mem_redrive.1 hr' with ⟨r, hr, rfl⟩
    have hhistory := @clearedHistory_of_mem replay locked s.received s.history r hr
    by_cases hredriven : Sessions.redriven replay locked s.received r = true
    · rw [if_pos hredriven] at hhistory ⊢
      change Coherent limit (clearedHistory replay locked s.received s.history r.messageId) _
      rw [hhistory]
      exact (h.rows r hr).redriven replay.clearHistory
    · rw [if_neg hredriven] at hhistory ⊢
      change Coherent limit (clearedHistory replay locked s.received s.history r.messageId) _
      rw [hhistory]
      exact h.rows r hr
  · have hbefore : ¬ s.received.toTable.HasKey messageId :=
      fun hkey => habsent ((ReceivedTable.hasKey_updateWhere (frozen_redrivenRow _)).2 hkey)
    change clearedHistory replay locked s.received s.history messageId = []
    rw [clearedHistory, h.absent messageId hbefore]
    exact ite_self _

theorem coherentState_step {limit : Nat} {s s' : State} {a : Action} (h : CoherentState limit s)
    (hlimit : a.FixedErrorsLimit limit) (hstep : Step s a s') : CoherentState limit s' := by
  cases hstep with
  | ingested =>
      exact h.ingested _ _
  | claimedNone =>
      exact h
  | claimed _ =>
      exact ⟨h.rows, h.absent⟩
  | settled _ =>
      exact h.settled _ _ _
  | failed _ =>
      exact ⟨(h.note (hlimit _ rfl) _ _).rows, (h.note (hlimit _ rfl) _ _).absent⟩
  | unwound _ =>
      exact ⟨h.rows, h.absent⟩
  | lost =>
      exact ⟨h.rows, h.absent⟩
  | recorded _ _ =>
      exact ⟨(h.note (hlimit _ rfl) _ _).rows, (h.note (hlimit _ rfl) _ _).absent⟩
  | crashed =>
      exact ⟨h.rows, h.absent⟩
  | redriven =>
      exact h.redriven _ _

theorem reachable_coherentState {limit : Nat} {s : State}
    (h : system.ReachableBy (fun _ a => a.FixedErrorsLimit limit) s) : CoherentState limit s := by
  refine TransitionSystem.ReachableBy.invariant ?_ ?_ h
  · rintro s rfl
    exact ⟨fun r hr => absurd hr ReceivedTable.not_mem_empty, fun _ _ => rfl⟩
  · intro s a s' hs hlimit hnext
    exact coherentState_step hs hlimit (step_of_next hnext)

/-- The history columns of a received row agree with each other and with the failures recorded
against it; a processed row is never written again. -/
theorem received_history_coherent (limit : Nat) {s : State}
    (h : system.ReachableBy (fun _ a => a.FixedErrorsLimit limit) s) {r : ReceivedRow}
    (hr : r ∈ s.received) :
    (r.status = .retryable → r.nextAttemptAt ≠ none) ∧
      (r.status = .pending ∨ r.status = .failed → r.nextAttemptAt = none) ∧
      r.errors <:+ s.history r.messageId ∧
      r.errors.length = min (max 1 limit) (s.history r.messageId).length ∧
      (r.lastFailedAt = none ↔ r.errors = []) ∧
      (r.lastFailureKind = none ↔ r.errors = []) ∧
      (∀ e, r.errors.getLast? = some e →
        r.lastFailedAt = some e.occurredAt.timestamptz ∧ r.lastFailureKind = some e.kind) ∧
      r.errors.length ≤ r.attempts ∧
      r.attempts = (s.history r.messageId).length ∧
      (r.status = .processed → ∀ as s', system.run s as = some s' → r ∈ s'.received) := by
  have hrow := (reachable_coherentState h).rows r hr
  -- `errors` is the tail of the full history, so its last entry is the last failure.
  have hlength : r.errors.length = min (max 1 limit) (s.history r.messageId).length := by
    rw [hrow.errors, length_keepNewest, Nat.max_comm]
  have hlast : r.errors.getLast? = (s.history r.messageId).getLast? := by
    rw [hrow.errors, getLast?_keepNewest (Nat.le_max_right limit 1)]
  refine ⟨hrow.timed.scheduled, hrow.timed.unscheduled, ?_, hlength, ?_, ?_, ?_, ?_, hrow.attempts, ?_⟩
  · rw [hrow.errors]
    exact keepNewest_suffix _ _
  · rw [hrow.lastFailedAt, ← hlast, Option.map_eq_none_iff, List.getLast?_eq_none_iff]
  · rw [hrow.lastFailureKind, ← hlast, Option.map_eq_none_iff, List.getLast?_eq_none_iff]
  · intro e he
    rw [hrow.lastFailedAt, hrow.lastFailureKind, ← hlast, he]
    exact ⟨rfl, rfl⟩
  · rw [hlength, hrow.attempts]
    exact Nat.min_le_right _ _
  · intro hstatus as s' hrun
    exact processed_run hrun hr hstatus

/-! ### A row that keeps failing -/

/-- One claim that fails at the given instant and is due again at once. -/
def failing (limit : Nat) (occurredAt : Instant) (message : String) : List Action :=
  [.claim occurredAt fun _ => false,
    .fail 0 { maxAttempts := 5, errorsLimit := limit }
      { kind := .handler, stage := .handler, terminal := false } message occurredAt 0]

/-- Three failures of one row. -/
def failures (limit : Nat) : List Action :=
  .ingest (Counting.insert "texts" 1) 0 ::
    (failing limit 1500 "first" ++ failing limit 2600 "second" ++ failing limit 3700 "third")

/-- Two of the three failures are kept, the last of them to the microsecond. -/
theorem received_history_coherent_failures :
    ∃ s, system.ReachableBy (fun _ a => a.FixedErrorsLimit 2) s ∧
      ∃ r ∈ s.received, r.attempts = 3 ∧ r.errors.length = min (max 1 2) 3 ∧
        r.lastFailedAt = some 3 ∧ r.nextAttemptAt ≠ none := by
  obtain ⟨s, hreach, r, hr, hattempts, hstatus, hfailed⟩ :
      ∃ s, system.ReachableBy (fun _ a => a.FixedErrorsLimit 2) s ∧
        ∃ r ∈ s.received.rows, r.attempts = 3 ∧ r.status = .retryable ∧
          r.lastFailedAt = some 3 :=
    TransitionSystem.exists_reachableBy_of_run (TransitionSystem.ReachableBy.start rfl)
      (failures 2) (by decide +kernel) (by decide +kernel)
  rcases received_history_coherent 2 hreach hr with
    ⟨hscheduled, _, _, hlength, _, _, _, _, hcount, _⟩
  rw [← hcount, hattempts] at hlength
  exact ⟨s, hreach, r, hr, hattempts, hlength, hfailed, hscheduled hstatus⟩

/-- Under an `errors_limit` of zero one entry is kept all the same. -/
theorem zero_errors_limit_keeps_one :
    ∃ s, system.ReachableBy (fun _ a => a.FixedErrorsLimit 0) s ∧
      ∃ r ∈ s.received, (s.history r.messageId).length = 3 ∧
        r.errors.length ≠ min 0 (s.history r.messageId).length := by
  obtain ⟨s, hreach, r, hr, hhistory, herrors⟩ :
      ∃ s, system.ReachableBy (fun _ a => a.FixedErrorsLimit 0) s ∧
        ∃ r ∈ s.received.rows, (s.history r.messageId).length = 3 ∧
          r.errors.length ≠ min 0 (s.history r.messageId).length :=
    TransitionSystem.exists_reachableBy_of_run (TransitionSystem.ReachableBy.start rfl)
      (failures 0) (by decide +kernel) (by decide +kernel)
  exact ⟨s, hreach, r, hr, hhistory, herrors⟩

end Sessions
end Dispatch
end Kafkaman
