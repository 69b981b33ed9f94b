import Kafkaman.Broker.Spelling
import Kafkaman.Dispatch.System
import Mathlib.Logic.Basic

/-!
# Dispatch.Effects — handler effects commit with the mark, and at most once

`handler_effects_atomic` collects what the previous modules say about a cycle and about whole runs:
a cycle that returns normally has settled its row with everything its handlers wrote, or has changed
nothing but the row's failure history; and no row's effects are committed twice.
-/

namespace Kafkaman
namespace Dispatch

open Lib Received

section Effects

variable {σ ω : Type}

/-- The row with this id has been processed. -/
def Processed (messageId : Uuid) (t : ReceivedTable) : Prop :=
  ∃ r ∈ t, r.messageId = messageId ∧ r.status = .processed

/-- Cache and application state as before; at most one failure more on the row. -/
structure Unwound (policy : RetryPolicy) (messageId : Uuid) (db db' : Database σ) : Prop where
  cache : db'.cache = db.cache
  app : db'.app = db.app
  received : FailureAppended policy messageId db.received db'.received

theorem Unwound.not_processed {policy : RetryPolicy} {row : ReceivedRow} {db db' : Database σ}
    (h : Unwound policy row.messageId db db') (hrow : row ∈ db.received)
    (hopen : unsettled row = true) : ¬ Processed row.messageId db'.received := by
  rintro ⟨r, hr, hid, hstatus⟩
  rcases h.received.appended row hrow rfl hopen with ⟨r', hr', hfrozen, _, _, hfailed⟩
  have hid' : r.messageId = r'.messageId := hid.trans (messageId_of_frozen hfrozen).symm
  have heq : r = r' := ReceivedTable.eq_of_messageId_eq hr hr' hid'
  rw [heq] at hstatus
  rcases hfailed with hfailed | hfailed
  · rw [hfailed] at hstatus
    cases hstatus
  · rw [hfailed] at hstatus
    cases hstatus

variable {dispatcher : Dispatcher σ ω} {env : CycleEnv ω} {db : Database σ} {row : ReceivedRow}

theorem cycle_settles_or_unwinds {stats : DispatchStats}
    (hclaim : claimReceivedRow env.dueAt env.locked db.received = some row)
    (hend : (dispatchOnce dispatcher env db).ending = .finished (.ok stats)) :
    Xor
      (Processed row.messageId (dispatchOnce dispatcher env db).db.received ∧
        ∃ x, (dispatchOnce dispatcher env db).execution = some x ∧
          CommittedTogether dispatcher env row db (dispatchOnce dispatcher env db).db x)
      (Unwound dispatcher.retry row.messageId db (dispatchOnce dispatcher env db).db) := by
  rcases claimReceivedRow_spec hclaim with ⟨hrow, hopen⟩
  have houtcome := outcome_dispatchOnce dispatcher env db
  generalize dispatchOnce dispatcher env db = result at houtcome hend
  cases houtcome with
  | nothing hending =>
      rcases hending with ⟨error, rfl⟩ | rfl | ⟨hnone, _⟩
      · cases hend
      · cases hend
      · rw [hclaim] at hnone
        cases hnone
  | @settled row' db' x _ hclaim' htogether =>
      obtain rfl : row = row' := Option.some.inj (hclaim.symm.trans hclaim')
      have hprocessed : Processed row.messageId db'.received :=
        ⟨processedRow env.dueAt row,
          (htogether.processed_iff hrow hopen rfl).2 (Or.inr rfl), rfl, rfl⟩
      exact Or.inl ⟨⟨hprocessed, x, rfl, htogether⟩,
        fun hunwound => hunwound.not_processed hrow hopen hprocessed⟩
  | @recorded row' failure _ hclaim' hid =>
      obtain rfl : row = row' := Option.some.inj (hclaim.symm.trans hclaim')
      have hunwound : Unwound dispatcher.retry row.messageId db
          { db with
            received := (recordReceivedFailure dispatcher.retry failure env.backoff
              db.received).1 } :=
        { cache := rfl
          app := rfl
          received := hid ▸ failureAppended_recordReceivedFailure _ failure _ _ }
      exact Or.inr ⟨hunwound, fun hsettled => hunwound.not_processed hrow hopen hsettled.1⟩
  -- A cycle that leaves its failure to a fresh connection has not returned yet.
  | fallback _ _ =>
      cases hend

theorem cycle_fallback {pending : Fallback}
    (hend : (dispatchOnce dispatcher env db).ending = .fallback pending) :
    (dispatchOnce dispatcher env db).db = db ∧
      (dispatchOnce dispatcher env db).execution = none ∧
      ∃ row, claimReceivedRow env.dueAt env.locked db.received = some row ∧
        pending.failure.messageId = row.messageId := by
  have houtcome := outcome_dispatchOnce dispatcher env db
  generalize dispatchOnce dispatcher env db = result at houtcome hend
  cases houtcome with
  | nothing hending =>
      rcases hending with ⟨error, rfl⟩ | rfl | ⟨_, rfl⟩
      · cases hend
      · cases hend
      · cases hend
  | settled _ _ =>
      cases hend
  | recorded _ _ =>
      cases hend
  | @fallback row pending' hclaim hid =>
      cases hend
      exact ⟨rfl, rfl, row, hclaim, hid⟩

theorem fallback_unwinds {pending : Fallback} {stats : DispatchStats}
    (hend : (recordOnFreshConnection dispatcher env pending db).2 = .finished (.ok stats)) :
    Unwound dispatcher.retry pending.failure.messageId db
      (recordOnFreshConnection dispatcher env pending db).1 := by
  unfold recordOnFreshConnection at hend ⊢
  cases hacquire : env.fails .acquire with
  | some text =>
      simp [hacquire] at hend
  | none =>
      simp only [hacquire] at hend ⊢
      split at hend
      · cases hend
      · rename_i hreturns
        rw [if_neg hreturns]
        cases hrecord : env.fails .recordFailure with
        | some text =>
            simp [hrecord] at hend
        | none =>
            exact
              { cache := rfl
                app := rfl
                received := failureAppended_recordReceivedFailure _ _ _ _ }

end Effects

/-- **Handler effects are atomic with the processed mark and happen at most once.** -/
theorem handler_effects_atomic {σ ω : Type} (dispatcher : Dispatcher σ ω) {w : World σ}
    (h : (system dispatcher).Reachable w) :
    -- A cycle that claims a row and returns from its own transaction.
    (∀ (env : CycleEnv ω) (row : ReceivedRow) (stats : DispatchStats),
      claimReceivedRow env.dueAt env.locked w.db.received = some row →
      (dispatchOnce dispatcher env w.db).ending = .finished (.ok stats) →
      Xor
        (Processed row.messageId (dispatchOnce dispatcher env w.db).db.received ∧
          ∃ x, (dispatchOnce dispatcher env w.db).execution = some x ∧
            CommittedTogether dispatcher env row w.db (dispatchOnce dispatcher env w.db).db x)
        (Unwound dispatcher.retry row.messageId w.db (dispatchOnce dispatcher env w.db).db)) ∧
    -- A cycle whose savepoint rollback fails, and its record on the fresh connection.
    (∀ (env : CycleEnv ω) (pending : Fallback),
      (dispatchOnce dispatcher env w.db).ending = .fallback pending →
      (dispatchOnce dispatcher env w.db).db = w.db ∧
        (dispatchOnce dispatcher env w.db).execution = none ∧
        ∃ row, claimReceivedRow env.dueAt env.locked w.db.received = some row ∧
          pending.failure.messageId = row.messageId) ∧
    (∀ (env : CycleEnv ω), ∀ pending ∈ w.fallbacks, ∀ stats : DispatchStats,
      (recordOnFreshConnection dispatcher env pending w.db).2 = .finished (.ok stats) →
      Unwound dispatcher.retry pending.failure.messageId w.db
        (recordOnFreshConnection dispatcher env pending w.db).1) ∧
    -- The run so far.
    (w.executions.map fun x => x.row.messageId).Nodup ∧
    (∀ x ∈ w.executions, Processed x.row.messageId w.db.received ∧
      HooksFollow dispatcher.router x) ∧
    ∀ r ∈ w.db.received, r.status = .processed →
      ∃ x ∈ w.executions, x.row.messageId = r.messageId ∧
        ((dispatcher.router.handlerFor x.row.messageType).isSome = true → x.afterRan = false →
          x.flow = .skipHandler ∨ x.applied = .ignored) := by
  have hsettled := reachable_settlement h
  refine ⟨?_, ?_, ?_, hsettled.once, ?_, ?_⟩
  · intro env row stats hclaim hend
    exact cycle_settles_or_unwinds hclaim hend
  · intro env pending hend
    exact cycle_fallback hend
  · intro env pending _ stats hend
    exact fallback_unwinds hend
  · intro x hx
    exact ⟨hsettled.processed x hx, hsettled.hooks x hx⟩
  · intro r hr hstatus
    rcases hsettled.executed r hr hstatus with ⟨x, hx, hid⟩
    refine ⟨x, hx, hid, ?_⟩
    intro hregistered hnot
    cases hflow : x.flow with
    | skipHandler =>
        exact Or.inl rfl
    | proceed =>
        right
        by_contra happlied
        have hran : x.afterRan = true :=
          (hsettled.hooks x hx).2.2 ⟨hregistered, hflow, happlied⟩
        rw [hnot] at hran
        cases hran

/-! ### A counting handler -/

namespace Counting

/-- Counts the snapshots of entity `a`; fails when told to. -/
def handler : Handler Nat Bool Unit :=
  fun refuses _ _ db =>
    { result := .returned (if refuses then .error (.handler "refused") else .ok ())
      app := db.app + 1
      aborted := false }

def dispatcher : Dispatcher Nat Bool :=
  { router :=
      { handlers := SortedMap.empty.insert "text" handler
        beforeHandlers := SortedMap.empty }
    descriptor := { messageType := "text", topic := "texts" }
    retry := { maxAttempts := 3, errorsLimit := 5 }
    codec := Broker.Spelling.codec }

/-- The record at an offset of partition 0 of a topic. -/
def insert (topic : String) (n : Nat) : InsertReceivedRow :=
  { messageId := BitVec.ofNat 128 n
    idempotencyKey := IdempotencyKey.ofByte (UInt8.ofNat n)
    idempotencySource := none
    topic := topic
    partition := 0
    offset := n
    key := none
    entityKey := "a"
    messageType := "text"
    headers := SortedMap.empty
    payload := .null
    correlationId := 0
    causationId := none
    trace := none
    occurredAt := 0 }

/-- A cycle whose handler refuses or not, stopped at the points given. -/
def env (now : Timestamp) (refuses : Bool) (stopped : List Point) : CycleEnv Bool :=
  { dueAt := 1000 * now
    now := now
    locked := fun _ => false
    beforeSees := refuses
    afterSees := refuses
    fails := fun point => if point ∈ stopped then some "connection reset" else none
    lands := false
    backoff := 10000 }

def initial : World Nat :=
  { db :=
      { received := ReceivedTable.empty
        cache := Table.empty
        app := 0 }
    fallbacks := []
    executions := [] }

theorem initial_init : (system dispatcher).init initial :=
  ⟨rfl, by simp [initial], rfl, rfl⟩

end Counting

open Counting in
/-- The handler refuses, the savepoint rollback fails, the failure is recorded on a fresh
connection, and the retry counts the row once. -/
theorem handler_effects_atomic_after_fallback :
    ∃ w, (system dispatcher).Reachable w ∧ w.db.app = 1 ∧
      ∃ r ∈ w.db.received, r.attempts = 1 ∧ r.status = .processed ∧
        ∃ x ∈ w.executions, x.row.messageId = r.messageId ∧ x.afterRan = true := by
  obtain ⟨w, hrun, happ, hexec, r, hr, hattempts, hstatus⟩ :
      ∃ w, (system dispatcher).run initial
        [.ingest (insert "texts" 1) 0, .cycle (env 5 true [.rollbackToSavepoint]),
          .fallback 0 (env 5 true []), .cycle (env 20 false [])] = some w ∧
        w.db.app = 1 ∧ (∀ x ∈ w.executions, x.afterRan = true) ∧
        ∃ r ∈ w.db.received, r.attempts = 1 ∧ r.status = .processed :=
    ⟨_, rfl, rfl, List.forall_mem_singleton.2 rfl, _, List.mem_singleton.2 rfl, rfl, rfl⟩
  have hstart : (system dispatcher).Reachable initial :=
    TransitionSystem.Reachable.start initial_init
  have hreach := TransitionSystem.reachable_of_run hstart hrun
  rcases (handler_effects_atomic dispatcher hreach).2.2.2.2.2 r hr hstatus with ⟨x, hx, hid, _⟩
  exact ⟨w, hreach, happ, r, hr, hattempts, hstatus, x, hx, hid, hexec x hx⟩

end Dispatch
end Kafkaman
