import Kafkaman.Core.Lifecycle
import Kafkaman.Relay.System

/-!
# Relay.Events — the relay's per-message success events

`run` hands its sampler to every cycle, and a cycle asks it once for each row whose mark was
`Updated`.  Both marks come to that place: a publish that was acknowledged, and one that failed and
was put back for a retry.  So the events count rows that were marked, not rows that were published.

* `relayRows`, `relayOnceInner`, `run` — the loop over rows, the cycle and the loop over cycles;
* `events_run` — the events are the sampled ones of the rows marked `Updated`;
* `published_events_exact_iff` — they are the sampled ones of the published rows exactly when no
  failed publish was marked;
* `failed_publish_emits_event` — a run in which one was.
-/

namespace Kafkaman
namespace Relay

open Lib Outbox

/-! ## A cycle -/

/-- What became of one claimed row: the failure its publish reported, if it failed, and the answer
of the mark that followed. -/
structure Relayed where
  claimed : ClaimedOutboxRow
  failure : Option String
  marked : Except String MarkOutcome

namespace Relayed

/-- The mark found its claim, whichever of the two it was. -/
def updated (relayed : Relayed) : Bool :=
  match relayed.marked with
  | .ok .updated => true
  | _ => false

/-- The row is `Published` by this mark. -/
def markedPublished (relayed : Relayed) : Bool :=
  relayed.failure.isNone && relayed.updated

end Relayed

structure CycleEnd where
  sampler : LifecycleSampler
  /-- The rows in whose span an event was emitted. -/
  events : List Relayed
  result : Except String RelayStats

/-- The rows of a batch in turn.  A mark that returns a database error ends the cycle. -/
def relayRows (sampler : LifecycleSampler) (stats : RelayStats) : List Relayed → CycleEnd
  | [] =>
      { sampler := sampler
        events := []
        result := .ok stats }
  | relayed :: rest =>
      match relayed.marked with
      | .error error =>
          { sampler := sampler
            events := []
            result := .error error }
      | .ok .updated =>
          -- Both marks arrive here; the sampler is not told which it was.
          let taken := sampler.take 1
          let after := relayRows taken.1 (stats.record relayed.failure .updated) rest
          { sampler := after.sampler
            events := (if 0 < taken.2 then [relayed] else []) ++ after.events
            result := after.result }
      | .ok outcome =>
          relayRows sampler (stats.record relayed.failure outcome) rest

/-- `relay_once_inner`; the argument is the claimed batch as it went, or the error of the claim. -/
def relayOnceInner (sampler : LifecycleSampler) : Except String (List Relayed) → CycleEnd
  | .error error =>
      { sampler := sampler
        events := []
        result := .error error }
  | .ok batch => relayRows sampler (RelayStats.ofClaimed batch.length) batch

structure LoopEnd where
  events : List Relayed
  results : List (Except String RelayStats)

/-- `run`: a cycle that failed is logged, and the sampler goes on to the next. -/
def run (sampler : LifecycleSampler) : List (Except String (List Relayed)) → LoopEnd
  | [] =>
      { events := []
        results := [] }
  | cycle :: rest =>
      let ended := relayOnceInner sampler cycle
      let after := run ended.sampler rest
      { events := ended.events ++ after.events
        results := ended.result :: after.results }

/-! ## The events of a run -/

/-- No cycle aborts with an error. -/
def Completes (cycles : List (Except String (List Relayed))) : Prop :=
  ∀ cycle ∈ cycles, ∃ batch, cycle = .ok batch ∧
    ∀ relayed ∈ batch, ∃ outcome, relayed.marked = .ok outcome

/-- The rows of a run, in the order they were relayed. -/
def rows (cycles : List (Except String (List Relayed))) : List Relayed :=
  cycles.flatMap fun cycle => cycle.toOption.getD []

/-- The rows whose mark was `Updated`. -/
def updatedRows (cycles : List (Except String (List Relayed))) : List Relayed :=
  (rows cycles).filter Relayed.updated

/-- The number of rows the loop marked `Published`. -/
def publishedCount (cycles : List (Except String (List Relayed))) : Nat :=
  (rows cycles).countP Relayed.markedPublished

section Events

variable {rate : SampleRate}

/-- The rows of one batch: what they emit, and what the sampler knows afterwards. -/
theorem events_relayRows {batch : List Relayed}
    (hcomplete : ∀ relayed ∈ batch, ∃ outcome, relayed.marked = .ok outcome) :
    ∀ (n : Nat) (sampler : LifecycleSampler) (stats : RelayStats), rate.Tracks n sampler →
      (relayRows sampler stats batch).events =
          rate.sampled n (batch.filter Relayed.updated) ∧
        rate.Tracks (n + (batch.filter Relayed.updated).length)
          (relayRows sampler stats batch).sampler := by
  induction batch with
  | nil =>
      intro n sampler stats htracks
      exact ⟨rfl, htracks⟩
  | cons relayed rest ih =>
      intro n sampler stats htracks
      have hrest := ih fun r hr => hcomplete r (List.mem_cons_of_mem _ hr)
      rcases hcomplete relayed List.mem_cons_self with ⟨outcome, hmarked⟩
      by_cases hupdated : outcome = .updated
      · rw [hupdated] at hmarked
        have hfilter : (relayed :: rest).filter Relayed.updated =
            relayed :: rest.filter Relayed.updated :=
          List.filter_cons_of_pos (by simp [Relayed.updated, hmarked])
        rcases rate.take_one htracks with ⟨htracks', hcount⟩
        rcases hrest _ _ (stats.record relayed.failure .updated) htracks' with ⟨hevents, hafter⟩
        have hindex : n + ((rest.filter Relayed.updated).length + 1) =
            n + 1 + (rest.filter Relayed.updated).length := by omega
        rw [hfilter, List.length_cons, hindex]
        simp only [relayRows, hmarked]
        refine ⟨?_, hafter⟩
        rw [SampleRate.sampled, hevents, hcount]
        congr 1
        have hpos : 0 < rate.owed (n + 1) - rate.owed n ↔ rate.owed n < rate.owed (n + 1) := by
          omega
        by_cases hdue : rate.owed n < rate.owed (n + 1)
        · rw [if_pos hdue, if_pos (hpos.2 hdue)]
        · rw [if_neg hdue, if_neg (fun h => hdue (hpos.1 h))]
      · -- A mark that missed leaves the sampler alone.
        have hskip : relayRows sampler stats (relayed :: rest) =
            relayRows sampler (stats.record relayed.failure outcome) rest := by
          rw [relayRows, hmarked]
          cases outcome with
          | updated =>
              exact absurd rfl hupdated
          | staleClaim =>
              rfl
          | missing =>
              rfl
        have hfilter : (relayed :: rest).filter Relayed.updated =
            rest.filter Relayed.updated := by
          refine List.filter_cons_of_neg ?_
          cases outcome <;> simp_all [Relayed.updated]
        rw [hskip, hfilter]
        exact hrest _ _ _ htracks

/-- The sampler's count carries across cycles, so the run is one list of marked rows. -/
theorem events_run_from {cycles : List (Except String (List Relayed))}
    (hcomplete : Completes cycles) :
    ∀ {n : Nat} {sampler : LifecycleSampler}, rate.Tracks n sampler →
      (run sampler cycles).events = rate.sampled n (updatedRows cycles) := by
  induction cycles with
  | nil =>
      intro n sampler _
      rfl
  | cons cycle rest ih =>
      intro n sampler htracks
      rcases hcomplete cycle List.mem_cons_self with ⟨batch, rfl, hbatch⟩
      have hrest : Completes rest := fun c hc => hcomplete c (List.mem_cons_of_mem _ hc)
      rcases events_relayRows hbatch n sampler (RelayStats.ofClaimed batch.length) htracks with
        ⟨hevents, htracks'⟩
      have hrows : updatedRows (.ok batch :: rest) =
          batch.filter Relayed.updated ++ updatedRows rest := by
        simp [updatedRows, rows, Except.toOption]
      have hafter := ih hrest htracks'
      simp only [run, relayOnceInner]
      rw [hrows, rate.sampled_append, hevents, hafter]

theorem events_run {cycles : List (Except String (List Relayed))} (hcomplete : Completes cycles)
    (rate : SampleRate) :
    (run rate.sampler cycles).events = rate.sampled 0 (updatedRows cycles) :=
  events_run_from hcomplete rate.tracks_sampler

end Events

/-! ## Published rows -/

/-- The events of a run at a rate are those of its published rows: as many as the rate owes for
them, each in the span of one. -/
def EventsOfPublished (rate : SampleRate) (cycles : List (Except String (List Relayed))) : Prop :=
  (run rate.sampler cycles).events.length =
      publishedCount cycles * rate.numerator / rateDenominator ∧
    ∀ relayed ∈ (run rate.sampler cycles).events, relayed.markedPublished = true

/-- **Success events count published rows, unless a failed publish is marked.**  At every rate the
events of a run are those of its published rows exactly when, as far as the 64-bit counter reaches,
no row that was marked is one whose publish had failed, and the published rows do not exceed the
counter themselves. -/
theorem published_events_exact_iff (cycles : List (Except String (List Relayed)))
    (hcomplete : Completes cycles) :
    (∀ rate, EventsOfPublished rate cycles) ↔
      (∀ relayed ∈ (updatedRows cycles).take u64Max, relayed.failure = none) ∧
        publishedCount cycles ≤ u64Max := by
  have hupdated : ∀ relayed ∈ updatedRows cycles, relayed.updated = true :=
    fun relayed h => (List.mem_filter.1 h).2
  have hcount : publishedCount cycles = (updatedRows cycles).countP Relayed.markedPublished := by
    rw [publishedCount, updatedRows, List.countP_filter]
    refine List.countP_congr fun relayed _ => ?_
    simp [Relayed.markedPublished]
  constructor
  · intro hall
    -- The full rate shows every marked row the counter has room for.
    rcases hall SampleRate.all with ⟨hlength, hspan⟩
    rw [events_run hcomplete, SampleRate.sampled_all, Nat.sub_zero] at hlength hspan
    refine ⟨?_, ?_⟩
    · intro relayed hmem
      have := hspan relayed hmem
      simp only [Relayed.markedPublished, Bool.and_eq_true, Option.isNone_iff_eq_none] at this
      exact this.1
    · have hfull : publishedCount cycles * SampleRate.all.numerator / rateDenominator =
          publishedCount cycles := Nat.mul_div_cancel _ (by decide)
      rw [hfull, List.length_take] at hlength
      omega
  · rintro ⟨hnone, hroom⟩ rate
    have hpublished : ∀ relayed ∈ (updatedRows cycles).take u64Max,
        relayed.markedPublished = true := by
      intro relayed hmem
      simp [Relayed.markedPublished, hnone relayed hmem, hupdated relayed (List.mem_of_mem_take hmem)]
    refine ⟨?_, ?_⟩
    · have howed : min (updatedRows cycles).length u64Max = publishedCount cycles := by
        have htake : ((updatedRows cycles).take u64Max).countP Relayed.markedPublished =
            min u64Max (updatedRows cycles).length := by
          rw [List.countP_eq_length.2 hpublished, List.length_take]
        have hle : ((updatedRows cycles).take u64Max).countP Relayed.markedPublished ≤
            publishedCount cycles := by
          rw [hcount]
          exact (List.take_sublist _ _).countP_le
        have hge : publishedCount cycles ≤ (updatedRows cycles).length := by
          rw [hcount]
          exact List.countP_le_length
        omega
      rw [events_run hcomplete, rate.length_sampled, Nat.zero_add, rate.owed_zero, Nat.sub_zero,
        SampleRate.owed, howed]
    · intro relayed hmem
      rw [events_run hcomplete] at hmem
      exact hpublished relayed (by simpa using rate.mem_take_of_mem_sampled hmem)

/-! ### A publish that failed -/

/-- A claimed row, as far as the events are concerned. -/
def claimedText : ClaimedOutboxRow :=
  { row :=
      { messageId := 1
        idempotencyKey := none
        idempotencySource := none
        status := .publishing
        attempts := 1
        nextAttemptAt := 0
        lastError := none
        claimId := some 7
        claimedBy := some "relay"
        claimExpiresAt := some 30
        topic := "texts"
        partitionKey := none
        entityKey := none
        correlationId := 1
        causationId := none
        trace := none
        headers := SortedMap.empty
        payload := .string "x"
        occurredAt := 0
        createdAt := 0
        publishedAt := none
        enqueueOrder := 1 }
    claimId := 7 }

/-- Cycles that relay the row, given by what each publish reported and each mark answered. -/
def relayedTexts (batches : List (List (Option String × MarkOutcome))) :
    List (Except String (List Relayed)) :=
  batches.map fun batch => .ok (batch.map fun row =>
    { claimed := claimedText
      failure := row.1
      marked := .ok row.2 })

theorem completes_relayedTexts (batches : List (List (Option String × MarkOutcome))) :
    Completes (relayedTexts batches) := by
  intro cycle hcycle
  rcases List.mem_map.1 hcycle with ⟨batch, -, rfl⟩
  refine ⟨_, rfl, fun relayed hrelayed => ?_⟩
  rcases List.mem_map.1 hrelayed with ⟨row, -, rfl⟩
  exact ⟨row.2, rfl⟩

/-- An acknowledged publish finds its claim gone, a cycle has nothing to do, and a publish fails
whose row another worker has taken by then. -/
def staleCycles : List (Except String (List Relayed)) :=
  relayedTexts
    [[(none, .updated), (none, .staleClaim), (none, .updated)], [],
      [(some "broker down", .staleClaim), (none, .updated), (none, .updated)]]

/-- One event for every two successes. -/
def half : SampleRate :=
  { numerator := 500000
    le_denominator := by decide }

theorem published_events_exact_iff_published :
    publishedCount staleCycles = 4 ∧ (run half.sampler staleCycles).events.length = 2 ∧
      EventsOfPublished half staleCycles :=
  ⟨by decide +kernel, by decide +kernel,
    (published_events_exact_iff staleCycles (completes_relayedTexts _)).2
      ⟨by decide +kernel, by decide +kernel⟩ half⟩

/-- The broker refuses the row, the retry is recorded, and the relay reports the message as
published. -/
theorem failed_publish_emits_event :
    let cycles := relayedTexts [[(some "broker down", .updated)]]
    Completes cycles ∧ publishedCount cycles = 0 ∧
      (run SampleRate.all.sampler cycles).events.length = 1 ∧
      ¬ EventsOfPublished SampleRate.all cycles := by
  intro cycles
  have hevents : (run SampleRate.all.sampler cycles).events.length = 1 := by decide +kernel
  have hcount : publishedCount cycles = 0 := by decide +kernel
  refine ⟨completes_relayedTexts _, hcount, hevents, ?_⟩
  rintro ⟨hlength, _⟩
  rw [hevents, hcount] at hlength
  simp at hlength

end Relay
end Kafkaman
