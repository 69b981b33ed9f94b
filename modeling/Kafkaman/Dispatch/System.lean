import Kafkaman.Dispatch.Atomic
import Kafkaman.Lib.TransitionSystem

/-!
# Dispatch.System — a received relation under ingest, dispatch and redrive

The transactions of the receive side as one system.  A cycle that has to record its failure on a
fresh connection leaves a `Fallback` behind; that record is written in some later state, or never if
the process dies first.

* `Step`, `step_of_next` — everything a step can do to rows, cache and history;
* `Step.persists`, `Step.origin` — rows are only ever added, and only by an ingest;
* `Settlement` — a row is processed exactly when one execution of it was committed.
-/

namespace Kafkaman
namespace Dispatch

open Lib Received

structure World (σ : Type) where
  db : Database σ
  /-- Failures of cycles that are about to record them on a fresh connection. -/
  fallbacks : List Fallback
  /-- History: the committed executions, newest first. -/
  executions : List Execution

inductive Action (ω σ : Type) where
  | ingest (insert : InsertReceivedRow) (now : Timestamp)
  | cycle (env : CycleEnv ω)
  | fallback (index : Nat) (env : CycleEnv ω)
  | crash (index : Nat)
  | redrive (replay : Replay) (locked : Uuid → Bool)
  /-- The application writes its own relations outside any handler. -/
  | application (app : σ)

section System

variable {σ ω : Type} (dispatcher : Dispatcher σ ω)

/-- The fallback a cycle leaves behind, if it does. -/
def CycleEnd.pending : CycleEnd → List Fallback
  | .finished _ | .panicked => []
  | .fallback pending => [pending]

def next (w : World σ) : Action ω σ → Option (World σ)
  | .ingest insert now =>
      some { w with
        db := { w.db with received := (insertReceivedRow now insert w.db.received).1 } }
  | .cycle env =>
      let result := dispatchOnce dispatcher env w.db
      some
        { db := result.db
          fallbacks := result.ending.pending ++ w.fallbacks
          executions := result.execution.toList ++ w.executions }
  | .fallback index env =>
      match w.fallbacks[index]? with
      | none => none
      | some pending =>
          some { w with
            db := (recordOnFreshConnection dispatcher env pending w.db).1
            fallbacks := w.fallbacks.eraseIdx index }
  | .crash index =>
      if index < w.fallbacks.length then
        some { w with fallbacks := w.fallbacks.eraseIdx index }
      else
        none
  | .redrive replay locked =>
      some { w with db := { w.db with received := redrive replay locked w.db.received } }
  | .application app => some { w with db := { w.db with app := app } }

def system : TransitionSystem (World σ) (Action ω σ) :=
  { init := fun w =>
      w.db.cache = Table.empty ∧ (∀ r ∈ w.db.received, r.status ≠ .processed) ∧
        w.fallbacks = [] ∧ w.executions = []
    next := next dispatcher }

/-! ## What a step can do -/

/-- No row is settled or lost, and none is new. -/
structure Kept (t t' : ReceivedTable) : Prop where
  processed : ∀ r, r.status = .processed → (r ∈ t' ↔ r ∈ t)
  origin : ∀ r' ∈ t', ∃ r ∈ t, r'.frozen = r.frozen
  persists : t.Persists t'

theorem Kept.refl (t : ReceivedTable) : Kept t t :=
  { processed := fun _ _ => Iff.rfl
    origin := fun r hr => ⟨r, hr, rfl⟩
    persists := ReceivedTable.Persists.refl t }

theorem kept_updateWhere {t : ReceivedTable} {p : ReceivedRow → Bool}
    {f : ReceivedRow → ReceivedRow} (hf : ∀ r, (f r).frozen = r.frozen)
    (htakes : ∀ r, p r = true → r.status ≠ .processed)
    (hleaves : ∀ r, (f r).status ≠ .processed) : Kept t (t.updateWhere p f hf) := by
  refine
    { processed := ?_
      origin := ?_
      persists := ReceivedTable.persists_updateWhere hf }
  · intro r hstatus
    rw [ReceivedTable.mem_updateWhere]
    constructor
    · rintro ⟨r₀, hr₀, rfl⟩
      by_cases hp : p r₀ = true
      · simp only [hp, if_true] at hstatus
        exact absurd hstatus (hleaves r₀)
      · simpa [hp] using hr₀
    · intro hr
      have hp : ¬ p r = true := fun h => htakes r h hstatus
      exact ⟨r, hr, by simp [hp]⟩
  · intro r' hr'
    rcases ReceivedTable.mem_updateWhere.1 hr' with ⟨r, hr, rfl⟩
    refine ⟨r, hr, ?_⟩
    split
    · exact hf r
    · rfl

theorem ne_processed_of_unsettled {r : ReceivedRow} (h : unsettled r = true) :
    r.status ≠ .processed := by
  intro hstatus
  simp [unsettled, hstatus] at h

theorem kept_recordReceivedFailure (policy : RetryPolicy) (failure : ReceivedFailureRecord)
    (backoff : Nanos) (t : ReceivedTable) :
    Kept t (recordReceivedFailure policy failure backoff t).1 := by
  refine kept_updateWhere (frozen_failedRow policy failure backoff) ?_ ?_
  · intro r hp
    exact ne_processed_of_unsettled (markable_iff.1 hp).2
  · intro r
    simp only [failedRow]
    split <;> simp

theorem kept_redrive (replay : Replay) (locked : Uuid → Bool) (t : ReceivedTable) :
    Kept t (redrive replay locked t) := by
  refine kept_updateWhere (frozen_redrivenRow replay.clearHistory) ?_ ?_
  · intro r hp hstatus
    simp [replayFilter, hstatus] at hp
  · intro r
    simp [redrivenRow]

/-- Everything a step can do. -/
inductive Step (w : World σ) (a : Action ω σ) (w' : World σ) : Prop where
  | ingested (insert : InsertReceivedRow) (now : Timestamp) :
      a = .ingest insert now →
      w'.db = { w.db with received := (insertReceivedRow now insert w.db.received).1 } →
      w'.executions = w.executions → Step w a w'
  | kept :
      Kept w.db.received w'.db.received → w'.db.cache = w.db.cache →
      w'.executions = w.executions → Step w a w'
  | settled (env : CycleEnv ω) (row : ReceivedRow) (x : Execution) :
      claimReceivedRow env.dueAt env.locked w.db.received = some row →
      CommittedTogether dispatcher env row w.db w'.db x →
      w'.executions = x :: w.executions → Step w a w'

variable {dispatcher}

theorem recordOnFreshConnection_cases (dispatcher : Dispatcher σ ω) (env : CycleEnv ω)
    (pending : Fallback) (db : Database σ) :
    (recordOnFreshConnection dispatcher env pending db).1 = db ∨
      (recordOnFreshConnection dispatcher env pending db).1 =
        { db with
          received := (recordReceivedFailure dispatcher.retry pending.failure env.backoff
            db.received).1 } := by
  unfold recordOnFreshConnection
  cases env.fails .acquire with
  | some text =>
      exact Or.inl rfl
  | none =>
      dsimp only
      split
      · exact Or.inl rfl
      · cases env.fails .recordFailure with
        | some text =>
            cases env.lands with
            | false =>
                exact Or.inl rfl
            | true =>
                exact Or.inr rfl
        | none =>
            exact Or.inr rfl

theorem step_cycle (env : CycleEnv ω) (w : World σ) :
    Step dispatcher w (.cycle env)
      { db := (dispatchOnce dispatcher env w.db).db
        fallbacks := (dispatchOnce dispatcher env w.db).ending.pending ++ w.fallbacks
        executions := (dispatchOnce dispatcher env w.db).execution.toList ++ w.executions } := by
  have houtcome := outcome_dispatchOnce dispatcher env w.db
  generalize dispatchOnce dispatcher env w.db = result at houtcome
  cases houtcome with
  | nothing _ =>
      exact Step.kept (Kept.refl _) rfl rfl
  | settled hclaim htogether =>
      exact Step.settled env _ _ hclaim htogether rfl
  | recorded _ _ =>
      exact Step.kept (kept_recordReceivedFailure _ _ _ _) rfl rfl
  | fallback _ _ =>
      exact Step.kept (Kept.refl _) rfl rfl

theorem step_of_next {w w' : World σ} {a : Action ω σ}
    (h : (system dispatcher).next w a = some w') : Step dispatcher w a w' := by
  cases a with
  | ingest insert now =>
      cases h
      exact Step.ingested insert now rfl rfl rfl
  | cycle env =>
      cases h
      exact step_cycle env w
  | fallback index env =>
      simp only [system, next] at h
      split at h
      · cases h
      · rename_i pending _
        cases h
        rcases recordOnFreshConnection_cases dispatcher env pending w.db with
          heq | heq
        · exact Step.kept (by rw [heq]; exact Kept.refl _) (by rw [heq]) rfl
        · exact Step.kept (by rw [heq]; exact kept_recordReceivedFailure _ _ _ _) (by rw [heq]) rfl
  | crash index =>
      simp only [system, next] at h
      split at h
      · cases h
        exact Step.kept (Kept.refl _) rfl rfl
      · cases h
  | redrive replay locked =>
      cases h
      exact Step.kept (kept_redrive replay locked _) rfl rfl
  | application app =>
      cases h
      exact Step.kept (Kept.refl _) rfl rfl

/-- Every row is still there after a settled cycle. -/
theorem CommittedTogether.persists {env : CycleEnv ω} {row : ReceivedRow} {db db' : Database σ}
    {x : Execution} (h : CommittedTogether dispatcher env row db db' x) :
    db.received.Persists db'.received := by
  intro r hr
  refine ⟨_, (h.received _).2 ⟨r, hr, rfl⟩, ?_⟩
  split
  · exact frozen_processedRow env.dueAt r
  · rfl

/-- No step loses a row. -/
theorem Step.persists {w w' : World σ} {a : Action ω σ} (h : Step dispatcher w a w') :
    w.db.received.Persists w'.db.received := by
  cases h with
  | ingested insert now _ hdb _ =>
      rw [hdb]
      exact persists_insertReceivedRow
  | kept hkept _ _ =>
      exact hkept.persists
  | settled env row x _ htogether _ =>
      exact htogether.persists

/-- Only an ingest adds a row. -/
theorem Step.origin {w w' : World σ} {a : Action ω σ} (h : Step dispatcher w a w')
    {r' : ReceivedRow} (hr' : r' ∈ w'.db.received) :
    (∃ r ∈ w.db.received, r'.frozen = r.frozen) ∨
      ∃ insert now, a = .ingest insert now ∧ r' = insert.row now := by
  cases h with
  | ingested insert now ha hdb _ =>
      rw [hdb] at hr'
      rcases mem_of_insertReceivedRow hr' with hold | hnew
      · exact Or.inl ⟨r', hold, rfl⟩
      · exact Or.inr ⟨insert, now, ha, hnew⟩
  | kept hkept _ _ =>
      exact Or.inl (hkept.origin r' hr')
  | settled env row x _ htogether _ =>
      rcases (htogether.received r').1 hr' with ⟨r, hr, rfl⟩
      refine Or.inl ⟨r, hr, ?_⟩
      split
      · exact frozen_processedRow env.dueAt r
      · rfl

/-! ## Rows and their executions -/

theorem processed_insertReceivedRow {insert : InsertReceivedRow} {now : Timestamp}
    {t : ReceivedTable} {r : ReceivedRow} (hstatus : r.status = .processed) :
    r ∈ (insertReceivedRow now insert t).1 ↔ r ∈ t := by
  unfold insertReceivedRow
  split
  · rename_i t' hins
    rw [ReceivedTable.mem_of_insertOrIgnore hins]
    constructor
    · rintro (h | rfl)
      · exact h
      · cases hstatus
    · exact Or.inl
  · exact Iff.rfl

theorem CommittedTogether.processed_iff {env : CycleEnv ω} {row : ReceivedRow}
    {db db' : Database σ} {x : Execution} (h : CommittedTogether dispatcher env row db db' x)
    (hrow : row ∈ db.received) (hopen : unsettled row = true) {r : ReceivedRow}
    (hstatus : r.status = .processed) :
    r ∈ db'.received ↔ r ∈ db.received ∨ r = processedRow env.dueAt row := by
  rw [h.received]
  constructor
  · rintro ⟨r₀, hr₀, rfl⟩
    by_cases hmark : markable row.messageId r₀ = true
    · have heq : r₀ = row :=
        ReceivedTable.eq_of_messageId_eq hr₀ hrow (markable_iff.1 hmark).1
      rw [if_pos hmark, heq]
      exact Or.inr rfl
    · rw [if_neg hmark]
      exact Or.inl hr₀
  · rintro (hr | rfl)
    · have hmark : ¬ markable row.messageId r = true :=
        fun hm => ne_processed_of_unsettled (markable_iff.1 hm).2 hstatus
      exact ⟨r, hr, if_neg hmark⟩
    · exact ⟨row, hrow, if_pos (markable_iff.2 ⟨rfl, hopen⟩)⟩

/-- What the hooks of an execution came to, given what is registered for its type. -/
def HooksFollow (router : MessageRouter σ ω) (x : Execution) : Prop :=
  (router.beforeHandlerFor x.row.messageType = none → x.flow = .proceed) ∧
    (x.afterRan = true ↔ (router.handlerFor x.row.messageType).isSome = true ∧
      x.flow = .proceed ∧ x.applied ≠ .ignored)

/-- Processed rows and committed executions correspond one to one. -/
structure Settlement (dispatcher : Dispatcher σ ω) (w : World σ) : Prop where
  once : (w.executions.map fun x => x.row.messageId).Nodup
  processed : ∀ x ∈ w.executions,
    ∃ r ∈ w.db.received, r.messageId = x.row.messageId ∧ r.status = .processed
  executed : ∀ r ∈ w.db.received, r.status = .processed →
    ∃ x ∈ w.executions, x.row.messageId = r.messageId
  hooks : ∀ x ∈ w.executions, HooksFollow dispatcher.router x

theorem Settlement.of_processed_iff {w w' : World σ} (h : Settlement dispatcher w)
    (hrows : ∀ r, r.status = .processed → (r ∈ w'.db.received ↔ r ∈ w.db.received))
    (hexec : w'.executions = w.executions) : Settlement dispatcher w' := by
  refine
    { once := by rw [hexec]; exact h.once
      processed := ?_
      executed := ?_
      hooks := by rw [hexec]; exact h.hooks }
  · intro x hx
    rcases h.processed x (hexec ▸ hx) with ⟨r, hr, hid, hstatus⟩
    exact ⟨r, (hrows r hstatus).2 hr, hid, hstatus⟩
  · intro r hr hstatus
    rw [hexec]
    exact h.executed r ((hrows r hstatus).1 hr) hstatus

theorem CommittedTogether.hooksFollow {env : CycleEnv ω} {row : ReceivedRow}
    {db db' : Database σ} {x : Execution} (h : CommittedTogether dispatcher env row db db' x) :
    HooksFollow dispatcher.router x := by
  rw [HooksFollow, h.claimed]
  refine ⟨?_, h.afterRan⟩
  intro hnone
  have hflow := h.flow
  rw [hnone] at hflow
  exact hflow

/-- The new execution's row was unsettled, so it is none of the executed ones. -/
theorem Settlement.settled {w w' : World σ} {env : CycleEnv ω} {row : ReceivedRow}
    {x : Execution} (h : Settlement dispatcher w)
    (hclaim : claimReceivedRow env.dueAt env.locked w.db.received = some row)
    (htogether : CommittedTogether dispatcher env row w.db w'.db x)
    (hexec : w'.executions = x :: w.executions) : Settlement dispatcher w' := by
  rcases claimReceivedRow_spec hclaim with ⟨hrow, hopen⟩
  have hiff : ∀ r, r.status = .processed →
      (r ∈ w'.db.received ↔ r ∈ w.db.received ∨ r = processedRow env.dueAt row) :=
    fun r hstatus => htogether.processed_iff hrow hopen hstatus
  -- An executed row is processed, and a claimed one is not.
  have hfresh : x.row.messageId ∉ w.executions.map fun x => x.row.messageId := by
    intro hmem
    rcases List.mem_map.1 hmem with ⟨y, hy, hid⟩
    rcases h.processed y hy with ⟨r, hr, hrid, hstatus⟩
    rw [htogether.claimed] at hid
    have heq : r = row := ReceivedTable.eq_of_messageId_eq hr hrow (hrid.trans hid)
    exact ne_processed_of_unsettled hopen (heq ▸ hstatus)
  refine
    { once := ?_
      processed := ?_
      executed := ?_
      hooks := ?_ }
  · rw [hexec, List.map_cons, List.nodup_cons]
    exact ⟨hfresh, h.once⟩
  · intro y hy
    rw [hexec] at hy
    rcases List.mem_cons.1 hy with rfl | hy
    · refine ⟨processedRow env.dueAt row, (hiff _ rfl).2 (Or.inr rfl), ?_, rfl⟩
      rw [htogether.claimed]
      rfl
    · rcases h.processed y hy with ⟨r, hr, hid, hstatus⟩
      exact ⟨r, (hiff r hstatus).2 (Or.inl hr), hid, hstatus⟩
  · intro r hr hstatus
    rw [hexec]
    rcases (hiff r hstatus).1 hr with hr | rfl
    · rcases h.executed r hr hstatus with ⟨y, hy, hid⟩
      exact ⟨y, List.mem_cons_of_mem x hy, hid⟩
    · refine ⟨x, List.mem_cons_self, ?_⟩
      rw [htogether.claimed]
      rfl
  · intro y hy
    rw [hexec] at hy
    rcases List.mem_cons.1 hy with rfl | hy
    · exact htogether.hooksFollow
    · exact h.hooks y hy

theorem reachable_settlement {w : World σ} (h : (system dispatcher).Reachable w) :
    Settlement dispatcher w := by
  refine TransitionSystem.Reachable.invariant ?_ ?_ h
  · rintro w ⟨_, hrows, _, hexec⟩
    exact
      { once := by simp [hexec]
        processed := by simp [hexec]
        executed := fun r hr hstatus => absurd hstatus (hrows r hr)
        hooks := by simp [hexec] }
  · intro w a w' hw hnext
    cases step_of_next hnext with
    | ingested insert now _ hdb hexec =>
        refine hw.of_processed_iff (fun r hstatus => ?_) hexec
        rw [hdb]
        exact processed_insertReceivedRow hstatus
    | kept hkept _ hexec =>
        exact hw.of_processed_iff hkept.processed hexec
    | settled env row x hclaim htogether hexec =>
        exact hw.settled hclaim htogether hexec

theorem reachable_executed {w : World σ} (h : (system dispatcher).Reachable w) :
    ∀ x ∈ w.executions, ∃ r ∈ w.db.received, r.frozen = x.row.frozen := by
  refine TransitionSystem.Reachable.invariant
    (I := fun w => ∀ x ∈ w.executions, ∃ r ∈ w.db.received, r.frozen = x.row.frozen) ?_ ?_ h
  · rintro w ⟨_, _, _, hexec⟩ x hx
    rw [hexec] at hx
    cases hx
  · intro w a w' hw hnext x hx
    have hstep := step_of_next hnext
    have hkept : ∀ r ∈ w.db.received, r.frozen = x.row.frozen →
        ∃ r' ∈ w'.db.received, r'.frozen = x.row.frozen := by
      intro r hr hfrozen
      rcases hstep.persists r hr with ⟨r', hr', hsame⟩
      exact ⟨r', hr', hsame.trans hfrozen⟩
    have hold : x ∈ w.executions → ∃ r' ∈ w'.db.received, r'.frozen = x.row.frozen := by
      intro hmem
      rcases hw x hmem with ⟨r, hr, hfrozen⟩
      exact hkept r hr hfrozen
    cases hstep with
    | ingested _ _ _ _ hexec => exact hold (hexec ▸ hx)
    | kept _ _ hexec => exact hold (hexec ▸ hx)
    | settled env row y hclaim htogether hexec =>
        rw [hexec] at hx
        rcases List.mem_cons.1 hx with rfl | hmem
        · exact hkept row (claimReceivedRow_spec hclaim).1 (by rw [htogether.claimed])
        · exact hold hmem

end System

end Dispatch
end Kafkaman
