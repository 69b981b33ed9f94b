import Kafkaman.Ingest.Fate
import Kafkaman.Lib.StoppingLoop
import Mathlib.Data.List.DropRight

/-!
# Ingest.Breaker — the ingest loop and its poison breaker

The breaker counts records that were refused and kept in quarantine, whichever of the two paths
refused them, and starts over at a record that was stored or recognised.  Its counter moves after the
record's transaction and before the offset, so errors on either side of it are told apart here.

* `CycleCounted`, `counted_ingestOnce` — what one cycle does to the counter, whatever stops it;
* `refusalsSince` — the streak, read off the cycles alone;
* `skip_breaker_exact` — the loop ends by its breaker at the refusal that makes the streak as long as
  the limit, with the record in quarantine and its offset where it was.
-/

namespace Kafkaman
namespace Ingest

open Lib Broker Received

/-! ## The counter in one cycle -/

section Cycle

variable {P : Type} {consumer : Consumer P} {env : CycleEnv} {record : KafkaRecord}
  {store : Store}

/-- What a cycle does to the breaker: nothing before its transaction is seen to commit; after that it
counts a refused record and starts over at any other. -/
structure CycleCounted (consumer : Consumer P) (record : KafkaRecord) (refused : Bool)
    (store : Store) (result : CycleResult) : Prop where
  skips : result.store.skips =
    if result.written then (if refused then store.skips + 1 else 0) else store.skips
  trips_iff : result.trips = true ↔
    result.written = true ∧ refused = true ∧ consumer.maxConsecutiveSkips ≤ store.skips + 1
  error : result.trips = true → result.outcome = .error
    (.consecutiveSkipLimitExceeded consumer.maxConsecutiveSkips record.partition record.offset)
  committed : result.trips = true → result.store.committed = store.committed
  quarantined : result.written = true → refused = true →
    result.store.quarantine.HasKey (record.topic, record.partition, record.offset)

theorem counted_abandon {refused : Bool} {after : Store} {error : IngestError}
    (hskips : after.skips = store.skips)
    (herror : ∀ limit partition offset,
      error ≠ .consecutiveSkipLimitExceeded limit partition offset) :
    CycleCounted consumer record refused store (abandon after error) := by
  have htrips : (abandon after error).trips = false := by
    unfold CycleResult.trips abandon
    split
    · rename_i limit partition offset heq
      exact absurd (Except.error.inj heq) (herror limit partition offset)
    · rfl
  have hwritten : (abandon after error).written = false := rfl
  exact
    { skips := hskips
      trips_iff := by simp [htrips, hwritten]
      error := fun h => by simp [htrips] at h
      committed := fun h => by simp [htrips] at h
      quarantined := fun h => by simp [hwritten] at h }

/-- Once the transaction has committed, the breaker has had its say; an offset that fails to commit
changes nothing about that. -/
theorem counted_commitRecord {refused : Bool} {after : Store} {stats : IngestStats}
    (hskips : after.skips = if refused then store.skips + 1 else 0)
    (hbelow : refused = true → store.skips + 1 < consumer.maxConsecutiveSkips)
    (hkey : refused = true →
      after.quarantine.HasKey (record.topic, record.partition, record.offset)) :
    CycleCounted consumer record refused store (commitRecord env record stats after) := by
  -- All three hold whether or not the offset is committed.
  have hwritten : (commitRecord env record stats after).written = true := by
    unfold commitRecord
    split <;> rfl
  have htrips : (commitRecord env record stats after).trips = false := by
    unfold commitRecord CycleResult.trips
    cases env.fails .commitRecord <;> rfl
  have hkept : (commitRecord env record stats after).store.skips = after.skips ∧
      (commitRecord env record stats after).store.quarantine = after.quarantine := by
    unfold commitRecord
    split <;> exact ⟨rfl, rfl⟩
  refine
    { skips := by rw [hkept.1, hwritten, if_pos rfl, hskips]
      trips_iff := ?_
      error := fun h => by simp [htrips] at h
      committed := fun h => by simp [htrips] at h
      quarantined := fun _ hrefused => by rw [hkept.2]; exact hkey hrefused }
  constructor
  · intro h
    simp [htrips] at h
  · rintro ⟨_, hrefused, hfull⟩
    have := hbelow hrefused
    omega

theorem counted_countSkip {before : Store} {kind : ReceivedIngestFailureKind} {error : String}
    (hskips : before.skips = store.skips) (hcommitted : before.committed = store.committed) :
    CycleCounted consumer record true store
      (countSkip consumer env record (Store.refuse consumer record before kind error)) := by
  have hkey : (Store.refuse consumer record before kind error).quarantine.HasKey
      (record.topic, record.partition, record.offset) :=
    hasKey_refuse before kind error
  have hafter : (Store.refuse consumer record before kind error).skips = store.skips := hskips
  unfold countSkip
  rw [hafter]
  by_cases hfull : consumer.maxConsecutiveSkips ≤ store.skips + 1
  · rw [if_pos hfull]
    exact
      { skips := rfl
        trips_iff := by simp [CycleResult.trips, hfull]
        error := fun _ => rfl
        committed := fun _ => hcommitted
        quarantined := fun _ _ => hkey }
  · rw [if_neg hfull]
    exact counted_commitRecord rfl (fun _ => by omega) (fun _ => hkey)

/-- A `COMMIT` that fails at the client is not counted, whether or not it took effect. -/
theorem counted_commitTransaction {refused : Bool} {point : Point} {after : Store}
    {andThen : Store → CycleResult} (hskips : after.skips = store.skips)
    (hthen : CycleCounted consumer record refused store (andThen after)) :
    CycleCounted consumer record refused store
      (commitTransaction env point store after andThen) := by
  unfold commitTransaction
  cases env.fails point with
  | some text =>
      refine counted_abandon ?_ (fun _ _ _ h => (nomatch h))
      cases env.lands with
      | false => rfl
      | true => exact hskips
  | none =>
      exact hthen

theorem counted_quarantine {kind : ReceivedIngestFailureKind} {error : String} :
    CycleCounted consumer record true store
      (quarantine consumer env record kind error store) := by
  unfold quarantine
  cases env.fails .beginQuarantine with
  | some text =>
      exact counted_abandon rfl (fun _ _ _ h => (nomatch h))
  | none =>
      cases env.fails .insertQuarantine with
      | some text =>
          exact counted_abandon rfl (fun _ _ _ h => (nomatch h))
      | none =>
          exact counted_commitTransaction rfl (counted_countSkip rfl rfl)

theorem counted_storeRow {insert : InsertReceivedRow} :
    CycleCounted consumer record
      (decide ((insertReceivedRow env.now insert store.received).2 = .messageIdConflict)) store
      (storeRow consumer env record insert store) := by
  unfold storeRow
  cases env.fails .insertReceived with
  | some text =>
      exact counted_abandon rfl (fun _ _ _ h => (nomatch h))
  | none =>
      by_cases hconflict :
          (insertReceivedRow env.now insert store.received).2 = .messageIdConflict
      · simp only [hconflict, if_true, decide_true]
        cases env.fails .insertFailure with
        | some text =>
            exact counted_abandon rfl (fun _ _ _ h => (nomatch h))
        | none =>
            exact counted_commitTransaction rfl (counted_countSkip rfl rfl)
      · simp only [hconflict, if_false, decide_false]
        refine counted_commitTransaction rfl (counted_commitRecord rfl ?_ ?_)
        · exact fun h => (nomatch h)
        · exact fun h => (nomatch h)

/-- The step lemma, for a record on any of its paths. -/
theorem counted_ingestOnce (consumer : Consumer P) (env : CycleEnv) (record : KafkaRecord)
    (store : Store) :
    CycleCounted consumer record (refusal consumer env record store).isSome store
      (ingestOnce consumer env record store) := by
  cases branch_ingestOnce consumer env record store with
  | unopened text _ hresult =>
      rw [hresult]
      exact counted_abandon rfl (fun _ _ _ h => (nomatch h))
  | refused kind error hrefusal _ _ hresult =>
      rw [hresult, hrefusal]
      exact counted_quarantine
  | unserializable d text _ _ hresult =>
      rw [hresult]
      exact counted_abandon rfl (fun _ _ _ h => (nomatch h))
  | stored d insert hdecoded hprepared hresult =>
      rw [hresult]
      have hrefused : (refusal consumer env record store).isSome =
          decide ((insertReceivedRow env.now insert store.received).2 = .messageIdConflict) := by
        rw [refusal, hdecoded]
        by_cases hconflict :
            (insertReceivedRow env.now insert store.received).2 = .messageIdConflict
        · simp only [hprepared, hconflict, if_true, Option.isSome_some, decide_true]
        · simp only [hprepared, hconflict, if_false, Option.isSome_none, decide_false]
      rw [hrefused]
      exact counted_storeRow

end Cycle

/-! ## The loop -/

/-- What one iteration meets; `recv` is the first of its points. -/
structure Poll where
  env : CycleEnv
  record : KafkaRecord

/-- One iteration, as it went. -/
inductive IngestEvent where
  /-- The broker gave no record. -/
  | unreceived (text : String)
  | cycle (poll : Poll) (before : Store) (result : CycleResult)

section Loop

variable {P : Type} (consumer : Consumer P)

/-- The record was refused, and its quarantine transaction was seen to commit. -/
def IngestEvent.refused : IngestEvent → Bool
  | .unreceived _ => false
  | .cycle poll before result =>
      result.written && (refusal consumer poll.env poll.record before).isSome

/-- The record was stored, or was a duplicate. -/
def IngestEvent.stored : IngestEvent → Bool
  | .unreceived _ => false
  | .cycle poll before result =>
      result.written && (refusal consumer poll.env poll.record before).isNone

/-- The error an iteration ends the loop with: every other one is logged and retried. -/
def CycleResult.breakerError (result : CycleResult) : Option IngestError :=
  match result.outcome with
  | .error (.consecutiveSkipLimitExceeded limit partition offset) =>
      some (.consecutiveSkipLimitExceeded limit partition offset)
  | _ => none

/-- One iteration of `run_ingester`. -/
def ingesterCycle (store : Store) (poll : Poll) : Cycled Store IngestEvent IngestError :=
  match poll.env.fails .recv with
  | some text =>
      { state := store
        event := .unreceived text
        error := none }
  | none =>
      let result := ingestOnce consumer poll.env poll.record store
      { state := result.store
        event := .cycle poll store result
        error := result.breakerError }

/-- `run_ingester` on a consumer just built, whose counter is at zero; it is shut down after the
last of the given iterations unless it ended before. -/
def runIngester (store : Store) (polls : List Poll) : Stopped Store IngestEvent IngestError :=
  runLoop (ingesterCycle consumer) { store with skips := 0 } polls

theorem store_iterate (partition : Int) (log : Nat → KafkaRecord) (env : CycleEnv) (s : State) :
    (iterate consumer partition log env s).store =
      (ingesterCycle consumer s.store
        { env := env
          record := recordAt partition log s.position }).state := by
  unfold iterate ingesterCycle
  cases env.fails .recv <;> rfl

/-! ## The streak -/

/-- The refusals kept in quarantine since a record was last stored or recognised. -/
def refusalsSince (history : List IngestEvent) : Nat :=
  (history.rtakeWhile fun event => !event.stored consumer).countP (IngestEvent.refused consumer)

variable {consumer}

@[simp] theorem refusalsSince_nil : refusalsSince consumer [] = 0 := by
  simp [refusalsSince, List.rtakeWhile_nil]

theorem refusalsSince_concat (history : List IngestEvent) (event : IngestEvent) :
    refusalsSince consumer (history ++ [event]) =
      if event.stored consumer then 0
      else refusalsSince consumer history + if event.refused consumer then 1 else 0 := by
  unfold refusalsSince
  cases hstored : event.stored consumer with
  | true =>
      simp [hstored]
  | false =>
      cases hrefused : event.refused consumer <;> simp [hstored, hrefused]

theorem breakerError_isSome {result : CycleResult} :
    result.breakerError.isSome = true ↔ result.trips = true := by
  unfold CycleResult.breakerError CycleResult.trips
  split
  · simp_all
  · simp_all

/-- What the breaker error says about the iteration that returned it. -/
def TrippedAt (consumer : Consumer P) (history : List IngestEvent) (store : Store)
    (error : IngestError) : Prop :=
  ∃ earlier poll before result,
    history = earlier ++ [.cycle poll before result] ∧
      (refusal consumer poll.env poll.record before).isSome = true ∧ result.written = true ∧
      store = result.store ∧
      error = .consecutiveSkipLimitExceeded consumer.maxConsecutiveSkips poll.record.partition
        poll.record.offset ∧
      result.store.quarantine.HasKey
        (poll.record.topic, poll.record.partition, poll.record.offset) ∧
      result.store.committed = before.committed

/-- The step of the loop: the counter is the streak, and the loop ends when it is as long as the
limit. -/
theorem ingesterCycle_spec (hlimit : 1 ≤ consumer.maxConsecutiveSkips)
    (history : List IngestEvent) (store : Store) (poll : Poll)
    (hskips : store.skips = refusalsSince consumer history)
    (hbelow : refusalsSince consumer history < consumer.maxConsecutiveSkips) :
    (ingesterCycle consumer store poll).state.skips =
        refusalsSince consumer (history ++ [(ingesterCycle consumer store poll).event]) ∧
      ((ingesterCycle consumer store poll).error.isSome = true ↔
        consumer.maxConsecutiveSkips ≤
          refusalsSince consumer (history ++ [(ingesterCycle consumer store poll).event])) ∧
      ∀ error ∈ (ingesterCycle consumer store poll).error,
        TrippedAt consumer (history ++ [(ingesterCycle consumer store poll).event])
          (ingesterCycle consumer store poll).state error := by
  unfold ingesterCycle
  cases hrecv : poll.env.fails .recv with
  | some text =>
      have hsame : refusalsSince consumer (history ++ [.unreceived text]) =
          refusalsSince consumer history := by
        simp [refusalsSince_concat, IngestEvent.stored, IngestEvent.refused]
      refine ⟨by rw [hsame]; exact hskips, ?_, fun error h => (nomatch h)⟩
      rw [hsame]
      constructor
      · exact fun h => (nomatch h)
      · intro h
        omega
  | none =>
      have hcounted := counted_ingestOnce consumer poll.env poll.record store
      dsimp only
      -- From here on only what `hcounted` says of the cycle is used.
      generalize ingestOnce consumer poll.env poll.record store = result at hcounted
      have hevent : refusalsSince consumer (history ++ [.cycle poll store result]) =
          result.store.skips := by
        rw [refusalsSince_concat, hcounted.skips, ← hskips]
        cases hwritten : result.written with
        | false =>
            simp [IngestEvent.stored, IngestEvent.refused, hwritten]
        | true =>
            cases hrefusal : refusal consumer poll.env poll.record store <;>
              simp [IngestEvent.stored, IngestEvent.refused, hwritten, hrefusal]
      refine ⟨hevent.symm, ?_, ?_⟩
      · rw [hevent, breakerError_isSome, hcounted.trips_iff, hcounted.skips]
        cases result.written with
        | false =>
            simp only [Bool.false_eq_true, false_and, if_false, false_iff]
            omega
        | true =>
            cases (refusal consumer poll.env poll.record store).isSome with
            | false =>
                simp only [Bool.false_eq_true, false_and, and_false, if_true, if_false, false_iff]
                omega
            | true =>
                simp
      · intro error herror
        have htrips : result.trips = true :=
          breakerError_isSome.1 (Option.isSome_iff_exists.2 ⟨error, herror⟩)
        rcases hcounted.trips_iff.1 htrips with ⟨hwritten, hrefused, _⟩
        have houtcome := hcounted.error htrips
        have heq : error = .consecutiveSkipLimitExceeded consumer.maxConsecutiveSkips
            poll.record.partition poll.record.offset := by
          unfold CycleResult.breakerError at herror
          rw [houtcome] at herror
          exact (Option.some.inj herror).symm
        exact ⟨history, poll, store, result, rfl, hrefused, hwritten, rfl, heq,
          hcounted.quarantined hwritten hrefused, hcounted.committed htrips⟩

/-- **The poison breaker trips exactly and safely.**  The loop ends by its breaker when, and only
when, a refusal kept in quarantine is the `limit`-th since a record was last stored or recognised; no
shorter run has come to that many.  The refused record is then in quarantine, the offset is where the
cycle found it, and a loop that did not end that way has run all its iterations. -/
theorem skip_breaker_exact {P : Type} (consumer : Consumer P)
    (hlimit : 1 ≤ consumer.maxConsecutiveSkips) (store : Store) (polls : List Poll) :
    ((runIngester consumer store polls).error.isSome = true ↔
        refusalsSince consumer (runIngester consumer store polls).events =
          consumer.maxConsecutiveSkips) ∧
      (∀ events, events <+: (runIngester consumer store polls).events →
        events ≠ (runIngester consumer store polls).events →
        refusalsSince consumer events < consumer.maxConsecutiveSkips) ∧
      (∀ error ∈ (runIngester consumer store polls).error,
        TrippedAt consumer (runIngester consumer store polls).events
          (runIngester consumer store polls).state error) ∧
      ((runIngester consumer store polls).error = none →
        (runIngester consumer store polls).events.length = polls.length) := by
  have hends : EndsAtFirst
      (fun history => consumer.maxConsecutiveSkips ≤ refusalsSince consumer history)
      (fun history store => store.skips = refusalsSince consumer history)
      (TrippedAt consumer) polls.length [] (runIngester consumer store polls) := by
    refine endsAtFirst_runLoop ?_ polls [] _ (by simp) (by simp; omega)
    intro history store poll hskips hbelow
    exact ingesterCycle_spec hlimit history store poll hskips (by omega)
  generalize runIngester consumer store polls = run at hends
  have hearlier : ∀ events, events <+: run.events → events ≠ run.events →
      refusalsSince consumer events < consumer.maxConsecutiveSkips := by
    intro events hstart hne
    have := hends.earlier events hstart hne
    rw [List.nil_append] at this
    omega
  refine ⟨?_, hearlier, by simpa using hends.error_spec, hends.complete⟩
  constructor
  · intro herror
    have hfull := hends.error_iff.1 herror
    rw [List.nil_append] at hfull
    -- One event adds at most one refusal to a streak that was below the limit.
    rcases Option.isSome_iff_exists.1 herror with ⟨error, hsome⟩
    rcases hends.error_spec error hsome with ⟨earlier, poll, before, result, hevents, _⟩
    rw [List.nil_append] at hevents
    have hbelow : refusalsSince consumer earlier < consumer.maxConsecutiveSkips := by
      refine hearlier earlier (hevents ▸ List.prefix_append _ _) ?_
      intro heq
      simp [← heq] at hevents
    rw [hevents, refusalsSince_concat] at hfull ⊢
    split at hfull
    · omega
    · rename_i hstored
      rw [if_neg hstored]
      split at hfull
      · rename_i hrefused
        rw [if_pos hrefused]
        omega
      · omega
  · intro heq
    exact hends.error_iff.2 (by rw [List.nil_append, heq])

/-- A record without an idempotency key, in a cycle that may be stopped at one point. -/
def poisonPoll (offset : Nat) (stopped : Option Point) : Poll :=
  { env :=
      { arrival := { messageId := 1, correlationId := 1, now := 0 }
        trace := none
        now := 0
        fails := fun point => if some point = stopped then some "connection reset" else none
        lands := false
        cancelled := false }
    record := { textLog offset with headers := [] } }

/-- Two refusals make the limit, across a broker error and a quarantine that was not written. -/
theorem skip_breaker_exact_two :
    (runIngester { textConsumer with maxConsecutiveSkips := 2 } emptyState.store
      [poisonPoll 0 none, poisonPoll 1 (some .recv), poisonPoll 1 (some .commitQuarantine),
        poisonPoll 2 none, poisonPoll 3 none]).error.isSome = true :=
  (skip_breaker_exact { textConsumer with maxConsecutiveSkips := 2 } (by decide) emptyState.store
    [poisonPoll 0 none, poisonPoll 1 (some .recv), poisonPoll 1 (some .commitQuarantine),
      poisonPoll 2 none, poisonPoll 3 none]).1.2 (by decide +kernel)

end Loop

end Ingest
end Kafkaman
