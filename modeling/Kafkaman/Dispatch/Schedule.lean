import Kafkaman.Config.Retry
import Kafkaman.Received.Rows

/-!
# Dispatch.Schedule — when a failed row is tried again

`received_failure_schedule` adds a jittered backoff to the time of the failure.  The addition is one
that panics past the last instant an `OffsetDateTime` can hold, so how long a policy lets a row wait
decides whether its failures can be recorded at all.

* `scheduleOf` — the schedule under a policy of the configuration, or nothing where it panics;
* `retry_schedule_iff` — which accepted policies are safe for every failure.
-/

namespace Kafkaman
namespace Dispatch

open Received (FailureDisposition FailureSchedule failureSchedule receivedFailureSchedule retryOutcome)
open Config (RetryPolicy RetrySection RetryConfig)

/-! ## The schedule -/

/-- `jittered`; `draw` is what the generator gave, at most half of `base`. -/
def jittered (base draw : Nat) : Nat :=
  let half := base / 2
  if half = 0 then base else half + draw

/-- `clamp_attempts`. -/
def clampAttempts (attempts : Int) : Nat :=
  if 0 ≤ attempts then attempts.toNat else 0

/-- What the marks of a row read of a policy. -/
def received (policy : RetryPolicy) : Received.RetryPolicy :=
  { maxAttempts := policy.maxAttempts
    errorsLimit := policy.errorsLimit }

/-- `received_failure_schedule` with `base` for the backoff and `draw` for the jitter. -/
def scheduleOf (policy : RetryPolicy) (currentAttempts : Int) (occurredAt : Int)
    (disposition : FailureDisposition) (base draw : Nat) : Option FailureSchedule :=
  receivedFailureSchedule (received policy) (clampAttempts currentAttempts) occurredAt disposition
    (durationToTime (jittered base draw))

/-! ## Waits -/

theorem jittered_bounds {base draw : Nat} (hdraw : draw ≤ base / 2) :
    base / 2 ≤ jittered base draw ∧ jittered base draw ≤ base := by
  simp only [jittered]
  split <;> omega

theorem jittered_half {base : Nat} (heven : base % 2 = 0) : jittered base (base / 2) = base := by
  simp only [jittered]
  split <;> omega

/-- The verdict of a policy on a failure. -/
def exhausts (policy : RetryPolicy) (attempts : Int) (disposition : FailureDisposition) : Bool :=
  (retryOutcome (received policy) (clampAttempts attempts) disposition).2

theorem exhausts_eq_false {policy : RetryPolicy} {attempts : Int} {disposition : FailureDisposition}
    (hnonneg : 0 ≤ attempts) :
    exhausts policy attempts disposition = false ↔
      disposition.terminal = false ∧ attempts + 1 < policy.maxAttempts := by
  simp only [exhausts, retryOutcome, received, clampAttempts, if_pos hnonneg, Bool.or_eq_false_iff,
    decide_eq_false_iff_not]
  refine and_congr Iff.rfl ?_
  omega

/-! ## Policies that are safe for every failure -/

/-- From 1970 to 2100, both years included. -/
def InRange (occurredAt : Int) : Prop :=
  yearStart 1970 ≤ occurredAt ∧ occurredAt < yearStart 2101

/-- Every failure in range is scheduled without a panic, as often as the budget allows and at a time
the backoff allows; `d` is the backoff before jitter. -/
def SchedulesFailures (policy : RetryPolicy) : Prop :=
  ∀ (attempts : Int) (occurredAt : Int) (disposition : FailureDisposition) (d draw : Nat),
    0 ≤ attempts → attempts < 2 ^ 31 → InRange occurredAt → 0 < d → d ≤ policy.maxBackoff →
    draw ≤ d / 2 →
    ∃ schedule, scheduleOf policy attempts occurredAt disposition d draw = some schedule ∧
      (schedule.nextAttemptAt.isSome = true ↔
        disposition.terminal = false ∧ attempts + 1 < policy.maxAttempts) ∧
      ∀ next : Int, schedule.nextAttemptAt = some next →
        occurredAt + (d / 2 : Nat) ≤ next ∧ next ≤ occurredAt + d

/-- From the end of 2100 to the last instant: 2885050 days. -/
def longestWait : Nat :=
  2885050 * 86400 * nanosPerSecond

theorem lastInstant_eq : lastInstant = yearStart 2101 - 1 + longestWait := by
  decide +kernel

theorem add_le_lastInstant {occurredAt : Int} {wait : Nat} (hrange : InRange occurredAt)
    (hwait : wait ≤ longestWait) : occurredAt + wait ≤ lastInstant := by
  have hlast := lastInstant_eq
  have hend := hrange.2
  omega

section Schedule

variable {policy : RetryPolicy} {attempts : Int} {occurredAt : Int}
  {disposition : FailureDisposition} {base draw : Nat}

theorem schedule_of_exhausted (h : exhausts policy attempts disposition = true) :
    scheduleOf policy attempts occurredAt disposition base draw =
      some { exhausted := true, nextAttemptAt := none, errorsLimit := max policy.errorsLimit 1 } := by
  rw [exhausts] at h
  simp only [scheduleOf, receivedFailureSchedule, failureSchedule, h, if_true, Option.all_none]
  rfl

theorem schedule_of_not_exhausted (h : exhausts policy attempts disposition = false) :
    scheduleOf policy attempts occurredAt disposition base draw =
      if occurredAt + durationToTime (jittered base draw) ≤ lastInstant then
        some
          { exhausted := false
            nextAttemptAt := some (occurredAt + durationToTime (jittered base draw))
            errorsLimit := max policy.errorsLimit 1 }
      else none := by
  rw [exhausts] at h
  simp only [scheduleOf, receivedFailureSchedule, failureSchedule, h, Bool.false_eq_true, if_false,
    Option.all_some, decide_eq_true_eq]
  rfl

end Schedule

theorem longestWait_lt : longestWait < 2 ^ 63 * nanosPerSecond := by
  decide +kernel

theorem schedulesFailures_of_le {policy : RetryPolicy}
    (hmax : policy.maxAttempts = 1 ∨ policy.maxBackoff ≤ longestWait) :
    SchedulesFailures policy := by
  intro attempts occurredAt disposition d draw hnonneg _ hrange _ hle hdraw
  have hscheduled : exhausts policy attempts disposition = false ↔
      disposition.terminal = false ∧ attempts + 1 < policy.maxAttempts := exhausts_eq_false hnonneg
  cases hexhausted : exhausts policy attempts disposition with
  | true =>
      refine ⟨_, schedule_of_exhausted hexhausted, ?_, fun next hnext => by cases hnext⟩
      rw [hexhausted] at hscheduled
      exact iff_of_false (fun h => by cases h) fun h => by cases hscheduled.2 h
  | false =>
      have hbudget := hscheduled.1 hexhausted
      -- a policy of one attempt never schedules another
      have hbackoff : policy.maxBackoff ≤ longestWait := by
        rcases hmax with hone | hmax
        · rw [hone] at hbudget
          omega
        · exact hmax
      rcases jittered_bounds hdraw with ⟨hlow, hhigh⟩
      have hwait : jittered d draw ≤ longestWait := le_trans hhigh (le_trans hle hbackoff)
      have htime : durationToTime (jittered d draw) = jittered d draw :=
        durationToTime_of_lt (lt_of_le_of_lt hwait longestWait_lt)
      let schedule : FailureSchedule :=
        { exhausted := false
          nextAttemptAt := some (occurredAt + jittered d draw)
          errorsLimit := max policy.errorsLimit 1 }
      refine ⟨schedule, ?_, iff_of_true rfl hbudget, ?_⟩
      · rw [schedule_of_not_exhausted hexhausted, htime, if_pos (add_le_lastInstant hrange hwait)]
      · rintro next hnext
        cases hnext
        omega

theorem schedule_panics {policy : RetryPolicy} (hattempts : 2 ≤ policy.maxAttempts)
    (hmillis : ∃ millis < 2 ^ 64, policy.maxBackoff = Config.fromMillis millis)
    (hlong : longestWait < policy.maxBackoff) {disposition : FailureDisposition}
    (hterminal : disposition.terminal = false) :
    scheduleOf policy 0 (yearStart 2101 - 1) disposition policy.maxBackoff
      (policy.maxBackoff / 2) = none := by
  rcases hmillis with ⟨millis, hmillis, hbackoff⟩
  have hexhausted : exhausts policy 0 disposition = false :=
    (exhausts_eq_false (Int.le_refl 0)).2 ⟨hterminal, by omega⟩
  -- Whole milliseconds halve exactly, so the draw can reach the full backoff.
  have heven : policy.maxBackoff % 2 = 0 := by
    rw [hbackoff, Config.fromMillis, Config.nanosPerMilli]
    omega
  have hsmall : policy.maxBackoff < 2 ^ 63 * nanosPerSecond := by
    rw [hbackoff, Config.fromMillis, Config.nanosPerMilli, nanosPerSecond]
    omega
  have hlast := lastInstant_eq
  rw [schedule_of_not_exhausted hexhausted, jittered_half heven, durationToTime_of_lt hsmall, if_neg]
  omega

/-- For the policy an accepted section gives a message type: its failures can be scheduled, all of
them, exactly when it makes no retry or waits no longer than from the end of 2100 to the last
instant. -/
theorem retry_schedule_iff {retry : RetrySection} {registeredMessages : List String}
    {config : RetryConfig} (htext : retry.FromText)
    (hresolve : retry.resolve registeredMessages = .ok config) (messageType : String) :
    SchedulesFailures (config.policyFor messageType) ↔
      (config.policyFor messageType).maxAttempts = 1 ∨
        (config.policyFor messageType).maxBackoff ≤ longestWait := by
  have hvalid := Config.valid_policyFor hresolve messageType
  have hmillis := (Config.fromText_policyFor htext hresolve messageType).millis
  generalize config.policyFor messageType = policy at hvalid hmillis ⊢
  refine ⟨fun hschedules => ?_, schedulesFailures_of_le⟩
  by_contra hnot
  push Not at hnot
  -- If the policy retries and waits too long, the last instant of 2100 is out of reach.
  have hattempts : 2 ≤ policy.maxAttempts := by
    have hone := hvalid.attempts
    omega
  have hrange : InRange (yearStart 2101 - 1) := by
    constructor
    · decide +kernel
    · omega
  have hpos : 0 < policy.maxBackoff := Nat.lt_of_lt_of_le hvalid.backoff hvalid.ordered
  rcases hschedules 0 (yearStart 2101 - 1) ⟨.handler, .handler, false⟩ policy.maxBackoff
    (policy.maxBackoff / 2) (Int.le_refl 0) (by decide) hrange hpos (Nat.le_refl _)
    (Nat.le_refl _) with ⟨schedule, hschedule, -⟩
  rw [schedule_panics hattempts hmillis hnot.2 rfl] at hschedule
  cases hschedule

/-- The defaults for every type but one, which is tried three times and waits up to two hours. -/
def hurried : RetrySection :=
  { defaults := Config.RetryPolicy.default
    messages := Lib.SortedMap.empty.insert "invoice"
      { maxAttempts := some 3
        initialBackoff := none
        maxBackoff := some (Config.fromSecs 7200)
        multiplier := none
        errorsLimit := none
        dlq := none } }

theorem retry_schedule_iff_overridden :
    ∃ config, hurried.resolve ["invoice", "shipment"] = .ok config ∧
      (config.policyFor "invoice").maxAttempts = 3 ∧
      (SchedulesFailures (config.policyFor "invoice") ↔
        (config.policyFor "invoice").maxAttempts = 1 ∨
          (config.policyFor "invoice").maxBackoff ≤ longestWait) := by
  have htext : hurried.FromText :=
    { defaults := ⟨⟨"1s", by decide +kernel⟩, ⟨"5m", by decide +kernel⟩⟩
      messages := by
        rintro message hmessage
        obtain rfl := List.mem_singleton.1 hmessage
        refine ⟨fun d hd => (nomatch hd), fun d hd => ?_⟩
        cases hd
        exact ⟨"2h", by decide +kernel⟩ }
  have hresolve : hurried.resolve ["invoice", "shipment"] =
      .ok { defaults := hurried.defaults, overrides := hurried.messages } := rfl
  exact ⟨_, hresolve, rfl, retry_schedule_iff htext hresolve "invoice"⟩

/-- Six million days before the first retry, and before every other. -/
def patientPolicy : RetryPolicy :=
  { Config.RetryPolicy.default with
    initialBackoff := 6000000 * 86400 * nanosPerSecond
    maxBackoff := 6000000 * 86400 * nanosPerSecond }

/-- A section with that policy is accepted, and the first failure of a row in 2026 then panics,
whatever is drawn. -/
theorem patient_section_panics :
    Config.parseDuration "6000000d" = some (.ok patientPolicy.maxBackoff) ∧
      (RetrySection.mk patientPolicy Lib.SortedMap.empty).resolve ["invoice"] =
        .ok ⟨patientPolicy, Lib.SortedMap.empty⟩ ∧
      (RetryConfig.mk patientPolicy Lib.SortedMap.empty).policyFor "invoice" = patientPolicy ∧
      InRange (yearStart 2026) ∧
      ∀ draw ≤ patientPolicy.maxBackoff / 2,
        scheduleOf patientPolicy 0 (yearStart 2026) ⟨.handler, .handler, false⟩
          patientPolicy.maxBackoff draw = none := by
  refine ⟨by decide +kernel, rfl, rfl, ⟨by decide +kernel, by decide +kernel⟩, fun draw hdraw => ?_⟩
  rcases jittered_bounds hdraw with ⟨hlow, hhigh⟩
  have hsmall : patientPolicy.maxBackoff < 2 ^ 63 * nanosPerSecond := by decide +kernel
  have hfar : lastInstant < yearStart 2026 + (patientPolicy.maxBackoff / 2 : Nat) := by decide +kernel
  have hexhausted : exhausts patientPolicy 0 ⟨.handler, .handler, false⟩ = false := by decide
  rw [schedule_of_not_exhausted hexhausted, durationToTime_of_lt (lt_of_le_of_lt hhigh hsmall), if_neg]
  omega

end Dispatch
end Kafkaman
