import Kafkaman.Dispatch.Budget
import Kafkaman.Dispatch.Drain
import Kafkaman.Core.Calendar
import Kafkaman.Core.Lifecycle
import Kafkaman.Core.Storable
import Kafkaman.Lib.Paging

/-!
# Dispatch.Stuck — the operator's list of overdue received rows

`received_stuck_rows` is meant to list the unsettled rows that became due at least `stuck_after` ago,
where a row is due at `COALESCE(next_attempt_at, created_at)`.  Its `WHERE` says so status by status,
for the sake of an index, and the two readings differ on a table where a pending row has a retry time
or a retryable row has none.  No statement of the receive side leaves such a row behind.  The cutoff is
computed from the clock and a configured duration, and has to be an instant that PostgreSQL knows.

* `stuckWhere`, `receivedStuckRows` — the query, and what it reports of a row;
* `stuckWhere_iff` — on rows that are timed the two readings agree;
* `stuck_rows_overdue` — on every relation the statements can make, the query is the plain one if and
  only if the cutoff is in range.
-/

namespace Kafkaman
namespace Dispatch
namespace Stuck

open Lib Received

/-! ## The query -/

/-- `COALESCE(next_attempt_at, created_at)`. -/
def dueAt (row : ReceivedRow) : Timestamp :=
  row.nextAttemptAt.getD row.createdAt

/-- `WHERE` of the query. -/
def stuckWhere (cutoff : Instant) (row : ReceivedRow) : Bool :=
  (row.status = .pending &&
      (row.nextAttemptAt = none || sqlLe row.nextAttemptAt cutoff.timestamptz) &&
      row.createdAt ≤ cutoff.timestamptz) ||
    (row.status = .retryable && sqlLe row.nextAttemptAt cutoff.timestamptz)

/-- `ORDER BY due_at, created_at, message_id`. -/
def stuckOrder (row : ReceivedRow) : Int ×ₗ Int ×ₗ Nat :=
  toLex (dueAt row, toLex (row.createdAt, row.messageId.toNat))

/-- `age_ms_since`, for a column of the row. -/
def ageMsSince (now : Instant) (since : Timestamp) : Nat :=
  let delta := now - since * 1000
  if delta < 0 then 0 else min (delta / 1000000).toNat u64Max

structure ReceivedStuckRow where
  messageType : String
  messageId : Uuid
  status : ReceiveStatus
  attempts : Nat
  nextAttemptAt : Option Timestamp
  createdAt : Timestamp
  dueAt : Timestamp
  ageMs : Nat
  /-- The overdue clock; `ageMs` is the row's own. -/
  stuckForMs : Nat

def ReceivedStuckRow.of (messageType : String) (now : Instant) (row : ReceivedRow) :
    ReceivedStuckRow :=
  { messageType := messageType
    messageId := row.messageId
    status := row.status
    attempts := row.attempts
    nextAttemptAt := row.nextAttemptAt
    createdAt := row.createdAt
    dueAt := Stuck.dueAt row
    ageMs := ageMsSince now row.createdAt
    stuckForMs := ageMsSince now (Stuck.dueAt row) }

/-- `received_stuck_rows`; `none` for a panic. -/
def receivedStuckRows (messageType : String) (now : Instant) (stuckAfter : Nanos) (limit : Int)
    (t : ReceivedTable) : Option (Except DatabaseError (List ReceivedStuckRow)) :=
  let cutoff : Instant := now - durationToTime stuckAfter
  -- The subtraction panics before the year -9999, and PostgreSQL refuses a cutoff before its own range.
  if cutoff < firstInstant then none
  else if cutoff.timestamptz < timestamptzStart then some (.error .timestampOutOfRange)
  else
    some (.ok ((orderByLimit stuckOrder (max limit 0).toNat
      (t.rows.filter (stuckWhere cutoff))).map (ReceivedStuckRow.of messageType now)))

/-! ## The plain reading -/

/-- On a timed row the split predicate is the plain one. -/
theorem stuckWhere_iff {row : ReceivedRow} (h : Timed row) (cutoff : Instant) :
    stuckWhere cutoff row = true ↔
      (row.status = .pending ∨ row.status = .retryable) ∧ dueAt row ≤ cutoff.timestamptz := by
  cases hstatus : row.status with
  | pending =>
      simp [stuckWhere, dueAt, hstatus, h.unscheduled (Or.inl hstatus)]
  | retryable =>
      cases hnext : row.nextAttemptAt with
      | none =>
          exact absurd hnext (h.scheduled hstatus)
      | some next =>
          simp [stuckWhere, dueAt, hstatus, hnext]
  | processed =>
      simp [stuckWhere, hstatus]
  | failed =>
      simp [stuckWhere, hstatus]

theorem timestamptz_mono {a b : Instant} (h : a ≤ b) : a.timestamptz ≤ b.timestamptz :=
  Int.tdiv_le_tdiv (by decide) h

theorem due_of_stuckWhere {row : ReceivedRow} {cutoff instant : Instant} (hle : cutoff ≤ instant)
    (h : stuckWhere cutoff row = true) : due instant row = true := by
  have hlater : sqlLe row.nextAttemptAt cutoff.timestamptz = true →
      sqlLe row.nextAttemptAt instant.timestamptz = true := by
    intro hearlier
    rcases sqlLe_iff.1 hearlier with ⟨next, hnext, hbefore⟩
    exact sqlLe_iff.2 ⟨next, hnext, le_trans hbefore (timestamptz_mono hle)⟩
  simp only [stuckWhere, due, Bool.or_eq_true, Bool.and_eq_true, decide_eq_true_eq] at h ⊢
  rcases h with ⟨⟨hpending, hnext⟩, _⟩ | ⟨hretryable, hnext⟩
  · exact Or.inl ⟨hpending, hnext.imp_right hlater⟩
  · exact Or.inr ⟨hretryable, hlater hnext⟩

/-! ## The cutoff -/

section Cutoff

variable {messageType : String} {now : Instant} {stuckAfter : Nanos} {limit : Int} {t : ReceivedTable}

theorem cutoff_range (hnow : now ≤ lastInstant)
    (h : firstInstant ≤ (now - durationToTime stuckAfter : Int) ∨
      firstInstant ≤ (now - stuckAfter : Int)) : durationToTime stuckAfter = stuckAfter := by
  refine durationToTime_of_lt (Nat.lt_of_not_le fun hlong => ?_)
  have hspan : lastInstant - ((i64Max * nanosPerSecond : Nat) : Int) < firstInstant := by decide
  have hcut := Int.ofNat_le.2 (le_durationToTime hlong)
  have hwhole : ((i64Max * nanosPerSecond : Nat) : Int) ≤ stuckAfter :=
    Int.ofNat_le.2 ((Nat.mul_le_mul_right _ (Nat.sub_le (2 ^ 63) 1)).trans hlong)
  have hle : @LE.le Int _ now lastInstant := hnow
  omega

theorem firstInstant_le_of_timestamptz {cutoff : Instant}
    (h : timestamptzStart ≤ cutoff.timestamptz) : firstInstant ≤ cutoff := by
  refine le_of_not_gt fun hlt => ?_
  have hle : cutoff.timestamptz ≤ Instant.timestamptz firstInstant := timestamptz_mono (le_of_lt hlt)
  exact absurd (h.trans hle) (by decide)

theorem receivedStuckRows_eq_ok (hnow : now ≤ lastInstant) {listed : List ReceivedStuckRow} :
    receivedStuckRows messageType now stuckAfter limit t = some (.ok listed) ↔
      timestamptzStart ≤ (now - stuckAfter : Instant).timestamptz ∧
        listed = (orderByLimit stuckOrder (max limit 0).toNat
          (t.rows.filter (stuckWhere (now - stuckAfter)))).map (ReceivedStuckRow.of messageType now) := by
  constructor
  · intro hok
    simp only [receivedStuckRows] at hok
    split at hok
    · cases hok
    · rename_i hfirst
      split at hok
      · cases hok
      · rename_i hstart
        rw [cutoff_range hnow (Or.inl (le_of_not_gt hfirst))] at hok hstart
        exact ⟨le_of_not_gt hstart, (Except.ok.inj (Option.some.inj hok)).symm⟩
  · rintro ⟨hstart, rfl⟩
    have hfirst := firstInstant_le_of_timestamptz hstart
    simp only [receivedStuckRows, cutoff_range hnow (Or.inr hfirst), if_neg (not_lt.2 hfirst),
      if_neg (not_lt.2 hstart)]

end Cutoff

/-! ## What is listed -/

/-- What is reported of a row: its columns, and whole milliseconds on the caller's clock. -/
structure Describes (messageType : String) (now : Instant) (row : ReceivedRow)
    (stuck : ReceivedStuckRow) : Prop where
  messageType : stuck.messageType = messageType
  messageId : stuck.messageId = row.messageId
  status : stuck.status = row.status
  attempts : stuck.attempts = row.attempts
  nextAttemptAt : stuck.nextAttemptAt = row.nextAttemptAt
  createdAt : stuck.createdAt = row.createdAt
  dueAt : stuck.dueAt = row.nextAttemptAt.getD row.createdAt
  ageMs : (stuck.ageMs : Int) = min (max (now - row.createdAt * 1000 : Int) 0 / 1000000) u64Max
  stuckForMs : (stuck.stuckForMs : Int) =
    min (max (now - row.nextAttemptAt.getD row.createdAt * 1000 : Int) 0 / 1000000) u64Max

theorem ageMsSince_eq (now : Instant) (since : Timestamp) :
    (ageMsSince now since : Int) = min (max (now - since * 1000 : Int) 0 / 1000000) u64Max := by
  simp only [ageMsSince]
  generalize (now - since * 1000 : Int) = delta
  split
  · rename_i hneg
    rw [max_eq_right (le_of_lt hneg)]
    rfl
  · rename_i hpos
    have hdelta : @LE.le Int _ 0 delta := le_of_not_gt hpos
    rw [max_eq_left hdelta]
    omega

theorem describes_of (messageType : String) (now : Instant) (row : ReceivedRow) :
    Describes messageType now row (ReceivedStuckRow.of messageType now row) :=
  ⟨rfl, rfl, rfl, rfl, rfl, rfl, rfl, ageMsSince_eq now _, ageMsSince_eq now _⟩

/-- **The stuck query is the plain one.**  On every received relation that ingest, dispatch and
redrive can make, and with a limit that cuts nothing off, the query lists the pending and retryable
rows that became due no later than the cutoff, each once, the most overdue first, and describes each;
and every one of them would be claimed as due at the cutoff or later.  All this if and only if
PostgreSQL has a `timestamptz` for the cutoff. -/
theorem stuck_rows_overdue {s : Sessions.State} (h : Sessions.system.Reachable s)
    (messageType : String) (now : Instant) (hnow : now ≤ lastInstant) (stuckAfter : Nanos)
    (limit : Int) (hlimit : s.received.rows.length ≤ limit) :
    (∃ (rows : List ReceivedRow) (listed : List ReceivedStuckRow),
      receivedStuckRows messageType now stuckAfter limit s.received = some (.ok listed) ∧
        List.Forall₂ (Describes messageType now) rows listed ∧
        (∀ r, r ∈ rows ↔ r ∈ s.received ∧ (r.status = .pending ∨ r.status = .retryable) ∧
          r.nextAttemptAt.getD r.createdAt ≤ (now - stuckAfter : Instant).timestamptz) ∧
        rows.Nodup ∧
        rows.Pairwise (fun a b =>
          toLex (a.nextAttemptAt.getD a.createdAt, toLex (a.createdAt, a.messageId.toNat)) ≤
            toLex (b.nextAttemptAt.getD b.createdAt, toLex (b.createdAt, b.messageId.toNat))) ∧
        ∀ r ∈ rows, ∀ instant : Instant, now - stuckAfter ≤ instant → due instant r = true) ↔
      timestamptzStart ≤ (now - stuckAfter : Instant).timestamptz := by
  refine ⟨fun ⟨_, _, hok, _⟩ => ((receivedStuckRows_eq_ok hnow).1 hok).1, fun hrange => ?_⟩
  have htimed := Sessions.timed_of_reachable h
  let selected := s.received.rows.filter (stuckWhere (now - stuckAfter))
  -- The limit is at least the number of rows, so the order is all that is left of the page.
  have hall : orderByLimit stuckOrder (max limit 0).toNat selected =
      ordered stuckOrder selected := by
    rw [orderByLimit_eq_take]
    refine List.take_of_length_le ?_
    have hle : selected.length ≤ s.received.rows.length := List.length_filter_le _ _
    rw [(ordered_perm selected).length_eq]
    omega
  have hmem : ∀ r, r ∈ ordered stuckOrder selected ↔
      r ∈ s.received ∧ stuckWhere (now - stuckAfter) r = true := by
    intro r
    rw [mem_ordered, List.mem_filter]
    exact Iff.rfl
  refine ⟨ordered stuckOrder selected, _, (receivedStuckRows_eq_ok hnow).2 ⟨hrange, rfl⟩, ?_, ?_, ?_,
    ordered_pairwise stuckOrder selected, ?_⟩
  · rw [hall]
    exact List.forall₂_map_right_iff.2 (List.forall₂_same.2 fun r _ => describes_of messageType now r)
  · intro r
    rw [hmem]
    constructor
    · rintro ⟨hr, hwhere⟩
      exact ⟨hr, (stuckWhere_iff (htimed r hr) _).1 hwhere⟩
    · rintro ⟨hr, hplain⟩
      exact ⟨hr, (stuckWhere_iff (htimed r hr) _).2 hplain⟩
  · exact (ordered_perm selected).nodup_iff.2
      ((List.Nodup.of_map _ s.received.primaryKey).filter _)
  · intro r hr instant hle
    exact due_of_stuckWhere hle ((hmem r).1 hr).2

/-- A row that failed once and waits for its retry, and a younger one that was never tried. -/
def waiting : List Sessions.Action :=
  [.ingest (Counting.insert "texts" 1) 0, .ingest (Counting.insert "texts" 2) 5,
    .claim 10000 (fun _ => false), .fail 0 Sessions.twice Sessions.refusal "refused" 10000 10000]

theorem stuck_rows_overdue_waiting :
    ∃ s, Sessions.system.Reachable s ∧ s.received.rows.length = 2 ∧
      ∃ (rows : List ReceivedRow) (listed : List ReceivedStuckRow),
        receivedStuckRows "text" 100000 80000 2 s.received = some (.ok listed) ∧
          List.Forall₂ (Describes "text" 100000) rows listed ∧
          ∀ r, r ∈ rows ↔ r ∈ s.received ∧ (r.status = .pending ∨ r.status = .retryable) ∧
            r.nextAttemptAt.getD r.createdAt ≤ 20 := by
  obtain ⟨s, hreach, hlength⟩ : ∃ s, Sessions.system.Reachable s ∧ s.received.rows.length = 2 :=
    TransitionSystem.exists_reachable_of_run (TransitionSystem.Reachable.start rfl) waiting
      (by decide +kernel)
  rcases (stuck_rows_overdue hreach "text" 100000 (by decide) 80000 2 (by omega)).2 (by decide) with
    ⟨rows, listed, hok, hdescribes, hmem, _⟩
  exact ⟨s, hreach, hlength, rows, listed, hok, hdescribes, hmem⟩

/-- At the start of 2026, with nothing received yet: `stuck_after` at 6000000 days ends in a panic and
at 3000000 days in an error. -/
theorem stuck_rows_out_of_range :
    ∃ s, Sessions.system.Reachable s ∧ s.received.rows.length ≤ 100 ∧ yearStart 2026 ≤ lastInstant ∧
      receivedStuckRows "text" (yearStart 2026) (6000000 * 86400 * nanosPerSecond) 100 s.received =
        none ∧
      receivedStuckRows "text" (yearStart 2026) (3000000 * 86400 * nanosPerSecond) 100 s.received =
        some (.error .timestampOutOfRange) :=
  ⟨_, TransitionSystem.Reachable.start rfl, by decide, by decide, rfl, rfl⟩

end Stuck
end Dispatch
end Kafkaman
