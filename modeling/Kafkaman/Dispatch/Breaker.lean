import Kafkaman.Dispatch.Atomic
import Kafkaman.Lib.StoppingLoop
import Mathlib.Data.Finset.Card
import Mathlib.Data.Finset.Dedup
import Mathlib.Data.List.DropRight

/-!
# Dispatch.Breaker — the dispatcher loop and its panic breaker

`run_dispatcher` runs `dispatch_once` until it is shut down, and carries a set of rows across its
cycles: those that panicked since a cycle last claimed a row and none of it panicked.  Reaching the
limit ends the loop.

* `CycleReport` — the ways a cycle can end, as the loop sees them;
* `exists_report_dispatchOnce` — the cycle of `Dispatch.Cycle` ends in no other way;
* `panickedSince` — the streak, read off the reports alone;
* `panic_breaker_exact` — the loop ends at the first cycle whose streak has `limit` distinct rows.
-/

namespace Kafkaman
namespace Dispatch

open Lib Received

/-! ## What a cycle reports -/

/-- How `dispatch_once` ended. -/
inductive CycleReport where
  /-- No row was due. -/
  | empty
  | processed
  /-- The failure is recorded on the row. -/
  | failed
  /-- Another worker settled the row meanwhile. -/
  | stale
  /-- The handler of a row panicked; `recorded` says whether its failure was. -/
  | panicked (row : Uuid) (recorded : Bool)
  | erred (error : Error)

namespace CycleReport

/-- What the loop is handed. -/
def result : CycleReport → Except Error DispatchStats
  | .empty => .ok DispatchStats.default
  | .processed => .ok { DispatchStats.default with claimed := 1, processed := 1 }
  | .failed => .ok (dispatchFailureStats .updated none)
  | .stale => .ok { DispatchStats.default with claimed := 1 }
  | .panicked row recorded =>
      .ok (dispatchFailureStats (if recorded then .updated else .staleClaim) (some row))
  | .erred error => .error error

/-- The cycle claimed a row and nothing panicked. -/
def claimedCleanly : CycleReport → Bool
  | .processed | .failed | .stale => true
  | _ => false

def panickedRow : CycleReport → Option Uuid
  | .panicked row _ => some row
  | _ => none

end CycleReport

theorem exists_report_failureStats (outcome : MarkOutcome) (panicked : Option Uuid) :
    ∃ report : CycleReport, report.result = .ok (dispatchFailureStats outcome panicked) := by
  cases panicked with
  | none =>
      by_cases h : outcome = .updated
      · exact ⟨.failed, by rw [h]; rfl⟩
      · exact ⟨.stale, by simp [CycleReport.result, dispatchFailureStats, DispatchStats.default, h]⟩
  | some row =>
      refine ⟨.panicked row (outcome = .updated), ?_⟩
      by_cases h : outcome = .updated <;> simp [CycleReport.result, dispatchFailureStats, h]

section Reports

variable {σ ω : Type} (dispatcher : Dispatcher σ ω) (env : CycleEnv ω)

/-- A cycle whose transaction ended it is one of the reports. -/
theorem exists_report_dispatchOnce {db : Database σ} {result : Except Error DispatchStats}
    (h : (dispatchOnce dispatcher env db).ending = .finished result) :
    ∃ report : CycleReport, report.result = result := by
  have hended := ended_dispatchOnce dispatcher env db
  generalize dispatchOnce dispatcher env db = cycle at hended h
  -- Every error is a report of its own, whatever the cycle had got to.
  cases result with
  | error error =>
      exact ⟨.erred error, rfl⟩
  | ok stats =>
      cases hended with
      | gaveUp error =>
          cases h
      | panicked =>
          cases h
      | idle _ =>
          cases h
          exact ⟨.empty, rfl⟩
      | @settled _ converged _ _ _ hstats =>
          cases h
          rw [hstats stats rfl]
          by_cases hmark : converged.mark = .updated
          · exact ⟨.processed, by simp [CycleReport.result, hmark]⟩
          · exact ⟨.stale, by simp [CycleReport.result, DispatchStats.default, hmark]⟩
      | recorded _ hstats =>
          cases h
          rcases hstats stats rfl with ⟨outcome, panicked, rfl⟩
          exact exists_report_failureStats outcome panicked
      | fallback _ =>
          cases h

theorem exists_report_recordOnFreshConnection {pending : Fallback} {db : Database σ}
    {result : Except Error DispatchStats}
    (h : (recordOnFreshConnection dispatcher env pending db).2 = .finished result) :
    ∃ report : CycleReport, report.result = result := by
  cases result with
  | error error =>
      exact ⟨.erred error, rfl⟩
  | ok stats =>
      unfold recordOnFreshConnection at h
      dsimp only at h
      split at h
      · cases h
      · split at h
        · cases h
        · split at h
          · cases h
          · cases h
            exact exists_report_failureStats _ _

end Reports

/-! ## The loop -/

structure DispatcherConfig where
  pollInterval : Nanos
  maxConsecutivePanickingRows : Nat

instance : Inhabited DispatcherConfig where
  default :=
    { pollInterval := 250000000
      maxConsecutivePanickingRows := 10 }

/-- The errors `run_dispatcher` returns. -/
inductive WorkerError where
  | invalidDispatcherConfig (field reason : String)
  | consecutivePanickingRowLimitExceeded (limit : Nat) (messageType : String)
      (messageId : Option Uuid)
  deriving DecidableEq, Repr

def DispatcherConfig.validate (cfg : DispatcherConfig) : Except WorkerError Unit :=
  if cfg.pollInterval = 0 then
    .error (.invalidDispatcherConfig "poll_interval"
      ("must be greater than zero; it is the only thing that yields between " ++
        "empty polls"))
  else if cfg.maxConsecutivePanickingRows = 0 then
    .error (.invalidDispatcherConfig "max_consecutive_panicking_rows"
      ("must be greater than zero; there is no way to spell \"never stop\" here, " ++
        "because a handler that panics on every row is not something to keep " ++
        "retrying in silence"))
  else
    .ok ()

theorem validate_default : (default : DispatcherConfig).validate = .ok () := rfl

/-- A breaker that cannot attribute a panic does not count it. -/
def notePanickingRow (streak : Finset Uuid) (stats : DispatchStats) : Finset Uuid :=
  match stats.panickedMessageId with
  | none => streak
  | some messageId => insert messageId streak

section Loop

variable (cfg : DispatcherConfig) (messageType : String)

/-- One iteration of the loop, from the result of its `dispatch_once`. -/
def dispatcherCycle (streak : Finset Uuid) (report : CycleReport) :
    Cycled (Finset Uuid) CycleReport WorkerError :=
  match report.result with
  | .error _ =>
      { state := streak
        event := report
        error := none }
  | .ok stats =>
      if 0 < stats.panicked then
        let streak := notePanickingRow streak stats
        { state := streak
          event := report
          error :=
            if cfg.maxConsecutivePanickingRows ≤ streak.card then
              some (.consecutivePanickingRowLimitExceeded cfg.maxConsecutivePanickingRows
                messageType stats.panickedMessageId)
            else
              none }
      else if 0 < stats.claimed then
        -- A row that got through ends the streak; an empty poll proves nothing.
        { state := ∅
          event := report
          error := none }
      else
        { state := streak
          event := report
          error := none }

/-- `run_dispatcher`, shut down after the last of the given cycles unless it ended before. -/
def runDispatcher (reports : List CycleReport) : Stopped (Finset Uuid) CycleReport WorkerError :=
  match cfg.validate with
  | .error error =>
      { state := ∅
        events := []
        error := some error }
  | .ok () => runLoop (dispatcherCycle cfg messageType) ∅ reports

end Loop

/-! ## The streak -/

/-- The rows that panicked since a cycle last claimed a row without a panic. -/
def panickedSince (history : List CycleReport) : List Uuid :=
  (history.rtakeWhile fun report => !report.claimedCleanly).filterMap CycleReport.panickedRow

@[simp] theorem panickedSince_nil : panickedSince [] = [] := by
  simp [panickedSince, List.rtakeWhile_nil]

theorem panickedSince_concat (history : List CycleReport) (report : CycleReport) :
    panickedSince (history ++ [report]) =
      if report.claimedCleanly then [] else panickedSince history ++ report.panickedRow.toList := by
  unfold panickedSince
  cases h : report.claimedCleanly with
  | true =>
      simp [h]
  | false =>
      cases hrow : report.panickedRow <;> simp [h, hrow]

theorem mem_panickedSince_append {history recent : List CycleReport}
    (hrecent : ∀ report ∈ recent, report.claimedCleanly = false) {row : Uuid}
    (hrow : row ∈ recent.filterMap CycleReport.panickedRow) :
    row ∈ panickedSince (history ++ recent) := by
  have hsuffix : recent <:+ (history ++ recent).rtakeWhile fun report =>
      !report.claimedCleanly := by
    rw [List.rtakeWhile, List.reverse_append, List.takeWhile_append_of_pos (by simpa using hrecent),
      List.reverse_append, List.reverse_reverse]
    exact List.suffix_append _ _
  rcases List.mem_filterMap.1 hrow with ⟨report, hmem, heq⟩
  exact List.mem_filterMap.2 ⟨report, hsuffix.mem hmem, heq⟩

theorem exists_of_mem_panickedSince {history : List CycleReport} {row : Uuid}
    (h : row ∈ panickedSince history) :
    ∃ report ∈ history, report.panickedRow = some row := by
  rcases List.mem_filterMap.1 h with ⟨report, hmem, heq⟩
  exact ⟨report, (List.rtakeWhile_suffix _ _).mem hmem, heq⟩

/-- The number of distinct rows in the streak has come to the limit. -/
def Trips (limit : Nat) (history : List CycleReport) : Prop :=
  limit ≤ (panickedSince history).toFinset.card

theorem not_trips_nil {limit : Nat} (h : 1 ≤ limit) : ¬ Trips limit [] := by
  simp only [Trips, panickedSince_nil, List.toFinset_nil, Finset.card_empty]
  omega

variable {cfg : DispatcherConfig} {messageType : String}

theorem event_dispatcherCycle {streak : Finset Uuid} {report : CycleReport} :
    (dispatcherCycle cfg messageType streak report).event = report := by
  unfold dispatcherCycle
  split
  · rfl
  · split
    · rfl
    · split <;> rfl

/-- What one cycle does: the loop's set is the streak, and the loop ends when it trips. -/
theorem dispatcherCycle_spec (hlimit : 1 ≤ cfg.maxConsecutivePanickingRows)
    (messageType : String) (history : List CycleReport) (streak : Finset Uuid) (report : CycleReport)
    (hstreak : streak = (panickedSince history).toFinset)
    (htrips : ¬ Trips cfg.maxConsecutivePanickingRows history) :
    (dispatcherCycle cfg messageType streak report).state =
        (panickedSince (history ++ [report])).toFinset ∧
      ((dispatcherCycle cfg messageType streak report).error.isSome = true ↔
        Trips cfg.maxConsecutivePanickingRows (history ++ [report])) ∧
      ∀ error ∈ (dispatcherCycle cfg messageType streak report).error,
        error = .consecutivePanickingRowLimitExceeded cfg.maxConsecutivePanickingRows
          messageType report.panickedRow := by
  have hclean := not_trips_nil hlimit
  unfold Trips at htrips hclean ⊢
  rw [panickedSince_concat]
  subst hstreak
  cases report with
  | empty =>
      simp [dispatcherCycle, CycleReport.result, DispatchStats.default,
        CycleReport.claimedCleanly, CycleReport.panickedRow]
      omega
  | processed =>
      simpa [dispatcherCycle, CycleReport.result, DispatchStats.default,
        CycleReport.claimedCleanly] using hclean
  | failed =>
      simpa [dispatcherCycle, CycleReport.result, dispatchFailureStats,
        CycleReport.claimedCleanly] using hclean
  | stale =>
      simpa [dispatcherCycle, CycleReport.result, DispatchStats.default,
        CycleReport.claimedCleanly] using hclean
  | panicked row recorded =>
      -- A row that panics again does not lengthen the streak: rows are counted, not panics.
      have hinsert : (panickedSince history ++ [row]).toFinset =
          insert row (panickedSince history).toFinset := by
        ext id
        simp
      simp only [dispatcherCycle, CycleReport.result, dispatchFailureStats, notePanickingRow,
        CycleReport.claimedCleanly, CycleReport.panickedRow, Option.isSome_some, Option.toList_some,
        if_true, Nat.zero_lt_one, hinsert, Bool.false_eq_true, if_false, true_and]
      by_cases hfull : cfg.maxConsecutivePanickingRows ≤
          (insert row (panickedSince history).toFinset).card
      · simp [hfull]
      · simp [hfull]
  | erred error =>
      simp [dispatcherCycle, CycleReport.result, CycleReport.claimedCleanly,
        CycleReport.panickedRow]
      omega

theorem endsAtFirst_runDispatcher (hvalid : cfg.validate = .ok ()) (messageType : String)
    (reports : List CycleReport) :
    EndsAtFirst (Trips cfg.maxConsecutivePanickingRows)
      (fun history streak => streak = (panickedSince history).toFinset)
      (fun history _ error => ∃ before report, history = before ++ [report] ∧
        error = .consecutivePanickingRowLimitExceeded cfg.maxConsecutivePanickingRows
          messageType report.panickedRow)
      reports.length [] (runDispatcher cfg messageType reports) := by
  have hlimit : 1 ≤ cfg.maxConsecutivePanickingRows := by
    unfold DispatcherConfig.validate at hvalid
    split at hvalid
    · cases hvalid
    · split at hvalid
      · cases hvalid
      · omega
  have hrun : runDispatcher cfg messageType reports =
      runLoop (dispatcherCycle cfg messageType) ∅ reports := by
    rw [runDispatcher, hvalid]
  rw [hrun]
  refine endsAtFirst_runLoop ?_ reports [] ∅ (by simp) (not_trips_nil hlimit)
  intro history streak report hstreak htrips
  rcases dispatcherCycle_spec hlimit messageType history streak report hstreak htrips with
    ⟨hstate, herror, hspec⟩
  rw [event_dispatcherCycle]
  exact ⟨hstate, herror, fun error he => ⟨history, report, rfl, hspec error he⟩⟩

theorem prefix_events_runDispatcher (cfg : DispatcherConfig) (messageType : String)
    (reports : List CycleReport) :
    (runDispatcher cfg messageType reports).events <+: reports := by
  unfold runDispatcher
  cases cfg.validate with
  | error error =>
      exact List.nil_prefix
  | ok _ =>
      exact prefix_events_runLoop (fun streak report => event_dispatcherCycle) ∅ reports

theorem panickedRow_of_trips {limit : Nat} {history : List CycleReport} {report : CycleReport}
    (hlimit : 1 ≤ limit) (hbefore : ¬ Trips limit history)
    (htrips : Trips limit (history ++ [report])) : ∃ row, report.panickedRow = some row := by
  cases hrow : report.panickedRow with
  | some row =>
      exact ⟨row, rfl⟩
  | none =>
      unfold Trips at htrips hbefore
      rw [panickedSince_concat, hrow] at htrips
      cases hclean : report.claimedCleanly with
      | true =>
          simp only [hclean, if_true, List.toFinset_nil, Finset.card_empty] at htrips
          omega
      | false =>
          simp only [hclean, Bool.false_eq_true, if_false, Option.toList_none,
            List.append_nil] at htrips
          exact absurd htrips hbefore

theorem not_trips_of_one_row {limit : Nat} {history : List CycleReport} {row : Uuid}
    (hlimit : 2 ≤ limit)
    (hrow : ∀ report ∈ history, ∀ id ∈ report.panickedRow, id = row) : ¬ Trips limit history := by
  have hsubset : (panickedSince history).toFinset ⊆ {row} := by
    intro id hid
    rcases exists_of_mem_panickedSince (List.mem_toFinset.1 hid) with ⟨report, hreport, heq⟩
    exact Finset.mem_singleton.2 (hrow report hreport id heq)
  have hcard : (panickedSince history).toFinset.card ≤ 1 := by
    simpa using Finset.card_le_card hsubset
  unfold Trips
  omega

/-- **The panic breaker counts distinct rows.**  The dispatcher ends by its breaker at the first
cycle after which the rows that panicked since the last clean claim are `limit` many, and at no
other; so one row never trips a limit of two, and as many distinct rows as the limit always do. -/
theorem panic_breaker_exact (cfg : DispatcherConfig) (hvalid : cfg.validate = .ok ())
    (messageType : String) (reports : List CycleReport) :
    (∀ k, (runDispatcher cfg messageType reports).error.isSome = true ∧
          (runDispatcher cfg messageType reports).events.length = k + 1 ↔
        k < reports.length ∧
          cfg.maxConsecutivePanickingRows ≤ (panickedSince (reports.take (k + 1))).toFinset.card ∧
          ∀ j ≤ k, ¬ cfg.maxConsecutivePanickingRows ≤
            (panickedSince (reports.take j)).toFinset.card) ∧
      (∀ error ∈ (runDispatcher cfg messageType reports).error, ∃ before report row,
        (runDispatcher cfg messageType reports).events = before ++ [report] ∧
          report.panickedRow = some row ∧
          error = .consecutivePanickingRowLimitExceeded cfg.maxConsecutivePanickingRows
            messageType (some row)) ∧
      ((runDispatcher cfg messageType reports).error = none →
        (runDispatcher cfg messageType reports).events = reports) ∧
      (∀ row, 2 ≤ cfg.maxConsecutivePanickingRows →
        (∀ report ∈ reports, ∀ id ∈ report.panickedRow, id = row) →
        (runDispatcher cfg messageType reports).error = none) ∧
      ∀ before recent after, reports = before ++ recent ++ after →
        (∀ report ∈ recent, report.claimedCleanly = false) →
        cfg.maxConsecutivePanickingRows ≤
          (recent.filterMap CycleReport.panickedRow).toFinset.card →
        (runDispatcher cfg messageType reports).error.isSome = true := by
  have hends := endsAtFirst_runDispatcher hvalid messageType reports
  have hstart := prefix_events_runDispatcher cfg messageType reports
  generalize runDispatcher cfg messageType reports = run at hends hstart
  have hcomplete : run.error = none → run.events = reports :=
    fun hnone => hstart.eq_of_length (hends.complete hnone)
  refine ⟨hends.stops_at_iff hstart rfl, ?_, hcomplete, ?_, ?_⟩
  · intro error herror
    rcases hends.error_spec error herror with ⟨before, report, hevents, rfl⟩
    rw [List.nil_append] at hevents
    have htrips : Trips cfg.maxConsecutivePanickingRows (before ++ [report]) := by
      rw [← hevents]
      simpa using hends.error_iff.1 (Option.isSome_iff_exists.2 ⟨_, herror⟩)
    have hbefore : ¬ Trips cfg.maxConsecutivePanickingRows before := by
      have hshort : before ≠ run.events := by
        intro heq
        simp [← heq] at hevents
      have := hends.earlier before (hevents ▸ List.prefix_append _ _) hshort
      rwa [List.nil_append] at this
    have hlimit : 1 ≤ cfg.maxConsecutivePanickingRows := by
      by_contra hzero
      exact hbefore (by unfold Trips; omega)
    rcases panickedRow_of_trips hlimit hbefore htrips with ⟨row, hrow⟩
    exact ⟨before, report, row, hevents, hrow, by rw [hrow]⟩
  · intro row htwo hone
    by_contra hsome
    have htrips : Trips cfg.maxConsecutivePanickingRows run.events := by
      simpa using hends.error_iff.1 (Option.isSome_iff_ne_none.2 hsome)
    exact not_trips_of_one_row htwo (fun report hreport => hone report (hstart.mem hreport)) htrips
  · rintro before recent after rfl hrecent hmany
    by_contra hnot
    have hnone : run.error = none := by simpa using hnot
    have hevents := hcomplete hnone
    -- Every row that panicked in the stretch is still in the streak at its end.
    have htrips : Trips cfg.maxConsecutivePanickingRows (before ++ recent) := by
      refine Nat.le_trans hmany (Finset.card_le_card ?_)
      intro row hrow
      exact List.mem_toFinset.2 (mem_panickedSince_append hrecent (List.mem_toFinset.1 hrow))
    by_cases hall : before ++ recent = run.events
    · exact hnot (hends.error_iff.2 (by rw [List.nil_append, ← hall]; exact htrips))
    · have hpre : before ++ recent <+: run.events := hevents ▸ List.prefix_append _ _
      exact hends.earlier _ hpre hall (by simpa using htrips)

/-- A poison row retried around an idle poll and a database error, then a second one. -/
def twoPoisonRows : List CycleReport :=
  [.panicked 1 true, .empty, .panicked 1 false, .erred (.sqlx "connection reset"),
    .panicked 2 true, .processed]

theorem panic_breaker_exact_two_rows :
    (runDispatcher { pollInterval := 1, maxConsecutivePanickingRows := 2 } "text"
        twoPoisonRows).error.isSome = true ∧
      (runDispatcher { pollInterval := 1, maxConsecutivePanickingRows := 2 } "text"
        twoPoisonRows).events.length = 5 :=
  ((panic_breaker_exact { pollInterval := 1, maxConsecutivePanickingRows := 2 } rfl "text"
    twoPoisonRows).1 4).2 (by decide +kernel)

end Dispatch
end Kafkaman
