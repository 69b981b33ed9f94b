import Kafkaman.Dispatch.Concurrent

/-!
# Dispatch.HandlerOrder — after-handlers of one entity commit in snapshot order

The cache row lock is taken before the after-handler and released after the commit, and the handler
runs only if the record outranks the committed cache row.  So the committed runs of an entity's
after-handler have increasing positions, however the dispatchers interleave.

* `Step`, `step_of_next` — a step advances one session, touches only received rows, or commits;
* `Locking` — the invariant of the locks and of the uncommitted writes;
* `Ordered` — the invariant of the history;
* `after_handlers_in_order` — the law.
-/

namespace Kafkaman
namespace Dispatch
namespace Concurrent

open Lib Received

section Steps

variable {σ ω : Type} (dispatcher : Dispatcher σ ω) {n : Nat}

/-! ## What a step can do -/

/-- What a session may rely on: its pending write is what `cacheApply` makes of the committed row,
or the statements still to come will make it so. -/
def Sound (cache : CacheTable) : Phase → Prop
  | .idle | .claimed _ | .converging _ _ | .unwinding _ => True
  | .skipped work =>
      receivedEntityKey work.row = .ok work.entity ∧
        guardedUpsert work.now work.entity work.row (cache.lookup work.entity) = none
  | .migrating work =>
      receivedEntityKey work.row = .ok work.entity ∧
        cacheApply work.now work.entity work.row dispatcher.descriptor.topic
          (cache.lookup work.entity) =
          .ok (migrateCacheOrigin work.now work.row (cache.lookup work.entity))
  | .adopting work written outcome =>
      receivedEntityKey work.row = .ok work.entity ∧
        cacheApply work.now work.entity work.row dispatcher.descriptor.topic
          (cache.lookup work.entity) = .ok (some written, outcome)
  | .upserted work written outcome =>
      receivedEntityKey work.row = .ok work.entity ∧
        cacheApply work.now work.entity work.row dispatcher.descriptor.topic
          (cache.lookup work.entity) = .ok (written, outcome)
  | .handled work written outcome ran | .marked work written outcome ran =>
      receivedEntityKey work.row = .ok work.entity ∧
        cacheApply work.now work.entity work.row dispatcher.descriptor.topic
          (cache.lookup work.entity) = .ok (written, outcome) ∧
        (ran = true → outcome ≠ .ignored)

/-- The rows a session may move to hold: its own, or one it claims now. -/
structure Advance (s : State n) (i : Fin n) (p : Phase) : Prop where
  lock : ∀ entity, p.cacheLock = some entity →
    (s.sessions i).cacheLock = some entity ∨ cacheLocked s i entity = false
  sound : Sound dispatcher s.cache (s.sessions i) → Sound dispatcher s.cache p
  row : ∀ row, p.row? = some row → (s.sessions i).row? = some row ∨ row ∈ s.received

/-- Everything a step can do. -/
inductive Step (s s' : State n) : Prop where
  | advance (i : Fin n) (p : Phase) :
      Advance dispatcher s i p → s'.sessions = Function.update s.sessions i p →
      s'.cache = s.cache → s'.executions = s.executions → s.received.Persists s'.received →
      Step s s'
  | outside :
      s'.sessions = s.sessions → s'.cache = s.cache → s'.executions = s.executions →
      s.received.Persists s'.received → Step s s'
  | commit (i : Fin n) (work : Work) (written : Option CacheRow) (outcome : CacheApplyOutcome)
      (ran : Bool) :
      s.sessions i = .marked work written outcome ran →
      s'.sessions = Function.update s.sessions i .idle →
      s'.cache = writeBack s.cache written →
      s'.executions = s.executions ++
        [{ row := work.row, flow := work.flow, applied := outcome, afterRan := ran }] →
      s.received.Persists s'.received → Step s s'

variable {dispatcher} {s : State n} {i : Fin n}

theorem Step.persists {s' : State n} (h : Step dispatcher s s') :
    s.received.Persists s'.received := by
  cases h with
  | advance _ _ _ _ _ _ hpersists | outside _ _ _ hpersists
  | commit _ _ _ _ _ _ _ _ _ hpersists =>
      exact hpersists

theorem step_advance {p : Phase} (h : Advance dispatcher s i p) :
    Step dispatcher s (s.advance i p) :=
  Step.advance i p h rfl rfl rfl (ReceivedTable.Persists.refl _)

theorem advance_unlocked {p : Phase} (hwork : p.work? = none)
    (hrow : ∀ row, p.row? = some row → (s.sessions i).row? = some row ∨ row ∈ s.received) :
    Advance dispatcher s i p := by
  refine
    { lock := ?_
      sound := ?_
      row := hrow }
  · intro entity hlock
    simp [Phase.cacheLock, hwork] at hlock
  · intro _
    cases p with
    | idle => trivial
    | claimed row => trivial
    | converging row flow => trivial
    | unwinding row => trivial
    | skipped work => cases hwork
    | migrating work => cases hwork
    | adopting work written outcome => cases hwork
    | upserted work written outcome => cases hwork
    | handled work written outcome ran => cases hwork
    | marked work written outcome ran => cases hwork

theorem advance_working {p : Phase} (work : Work) (hbefore : (s.sessions i).work? = some work)
    (hrow : (s.sessions i).row? = some work.row) (hwork : p.work? = some work)
    (hprow : p.row? = some work.row)
    (hsound : Sound dispatcher s.cache (s.sessions i) → Sound dispatcher s.cache p) :
    Advance dispatcher s i p := by
  refine
    { lock := ?_
      sound := hsound
      row := ?_ }
  · intro entity hlock
    left
    rw [Phase.cacheLock, hbefore]
    rwa [Phase.cacheLock, hwork] at hlock
  · intro row hp
    left
    rw [hrow, ← hprow, hp]

theorem advance_before {row : ReceivedRow} {result : Except Error HandlerFlow}
    (hphase : s.sessions i = .claimed row) :
    Advance dispatcher s i (afterBefore dispatcher row result) := by
  have hrow : (s.sessions i).row? = some row := by rw [hphase]; rfl
  have hcases : (∃ flow, afterBefore dispatcher row result = .converging row flow) ∨
      afterBefore dispatcher row result = .unwinding row := by
    unfold afterBefore
    split
    · split
      · exact Or.inl ⟨_, rfl⟩
      · exact Or.inl ⟨_, rfl⟩
      · exact Or.inr rfl
    · exact Or.inr rfl
  rcases hcases with ⟨flow, heq⟩ | heq <;> rw [heq] <;>
    exact advance_unlocked rfl fun row' h => Or.inl (hrow.trans h)

theorem advance_upsert {row : ReceivedRow} {flow : HandlerFlow} {entity : String}
    {now : Timestamp} (hphase : s.sessions i = .converging row flow)
    (hkey : receivedEntityKey row = .ok entity)
    (hfree : cacheLocked s i entity = false) :
    Advance dispatcher s i
      (afterUpsert { row := row, flow := flow, entity := entity, now := now }
        (s.cache.lookup entity)) := by
  have hrow : (s.sessions i).row? = some row := by rw [hphase]; rfl
  unfold afterUpsert
  cases hguard : guardedUpsert now entity row (s.cache.lookup entity) with
  | some written =>
      simp only
      exact
        { lock := fun e he => Or.inr (Option.some.inj he ▸ hfree)
          sound := fun _ => ⟨hkey, by simp [cacheApply, hguard]⟩
          row := fun row' h => Or.inl (hrow.trans h) }
  | none =>
      simp only
      exact
        { lock := fun e he => Or.inr (Option.some.inj he ▸ hfree)
          sound := fun _ => ⟨hkey, hguard⟩
          row := fun row' h => Or.inl (hrow.trans h) }

theorem advance_classify {work : Work} (hphase : s.sessions i = .skipped work) :
    Advance dispatcher s i (afterClassify dispatcher work (s.cache.lookup work.entity)) := by
  have hwork : (s.sessions i).work? = some work := by rw [hphase]; rfl
  have hrow : (s.sessions i).row? = some work.row := by rw [hphase]; rfl
  unfold afterClassify
  cases hskipped : classifySkippedCacheApply work.entity work.row dispatcher.descriptor.topic
      (s.cache.lookup work.entity) with
  | ignored =>
      refine advance_working work hwork hrow rfl rfl ?_
      rw [hphase]
      rintro ⟨hkey, hguard⟩
      exact ⟨hkey, by simp [cacheApply, hguard, hskipped]⟩
  | mismatch error =>
      exact advance_unlocked rfl fun row' h => Or.inl (hrow.trans h)
  | migrate =>
      refine advance_working work hwork hrow rfl rfl ?_
      rw [hphase]
      rintro ⟨hkey, hguard⟩
      exact ⟨hkey, by simp [cacheApply, hguard, hskipped]⟩

theorem advance_lockOrigin {work : Work} (hphase : s.sessions i = .migrating work) :
    Advance dispatcher s i (afterLockOrigin work (s.cache.lookup work.entity)) := by
  have hwork : (s.sessions i).work? = some work := by rw [hphase]; rfl
  have hrow : (s.sessions i).row? = some work.row := by rw [hphase]; rfl
  unfold afterLockOrigin
  rcases hmigrate : migrateCacheOrigin work.now work.row (s.cache.lookup work.entity) with
    ⟨_ | written, outcome⟩
  · refine advance_working work hwork hrow rfl rfl ?_
    rw [hphase]
    rintro ⟨hkey, happly⟩
    exact ⟨hkey, happly.trans (by rw [hmigrate])⟩
  · refine advance_working work hwork hrow rfl rfl ?_
    rw [hphase]
    rintro ⟨hkey, happly⟩
    exact ⟨hkey, happly.trans (by rw [hmigrate])⟩

theorem advance_after {work : Work} {written : Option CacheRow} {outcome : CacheApplyOutcome}
    {result : Except Error Unit} (hphase : s.sessions i = .upserted work written outcome) :
    Advance dispatcher s i (afterAfter dispatcher work written outcome result) := by
  have hwork : (s.sessions i).work? = some work := by rw [hphase]; rfl
  have hrow : (s.sessions i).row? = some work.row := by rw [hphase]; rfl
  have hhandled : ∀ ran, (ran = true → outcome ≠ .ignored) →
      Advance dispatcher s i (.handled work written outcome ran) := by
    intro ran hran
    refine advance_working work hwork hrow rfl rfl ?_
    rw [hphase]
    rintro ⟨hkey, happly⟩
    exact ⟨hkey, happly, hran⟩
  unfold afterAfter
  split
  · rename_i hcond
    split
    · exact hhandled false (by simp)
    · exact hhandled true fun _ => hcond.2
    · exact advance_unlocked rfl fun row' h => Or.inl (hrow.trans h)
  · exact hhandled false (by simp)

theorem step_of_next {s' : State n} {a : Action n}
    (h : (system dispatcher n).next s a = some s') : Step dispatcher s s' := by
  cases a with
  | claim i dueAt held =>
      simp only [system, next] at h
      split at h
      · split at h
        · rename_i row hclaim
          cases h
          -- A claim takes a row of the table and no cache lock yet.
          refine step_advance (advance_unlocked rfl fun row' hrow' => Or.inr ?_)
          cases hrow'
          exact (claimReceivedRow_spec hclaim).1
        · cases h
          exact Step.outside rfl rfl rfl (ReceivedTable.Persists.refl _)
      · cases h
  | before i result =>
      simp only [system, next] at h
      split at h
      · rename_i row hphase
        cases h
        exact step_advance (advance_before hphase)
      · cases h
  | upsert i now =>
      simp only [system, next] at h
      split at h
      · rename_i row flow hphase
        split at h
        · cases h
          have hrow : (s.sessions i).row? = some row := by rw [hphase]; rfl
          exact step_advance (advance_unlocked rfl fun row' h => Or.inl (hrow.trans h))
        · rename_i entity hkey
          split at h
          · cases h
          · rename_i hfree
            cases h
            exact step_advance (advance_upsert hphase hkey (by simpa using hfree))
      · cases h
  | classify i =>
      simp only [system, next] at h
      split at h
      · rename_i work hphase
        cases h
        exact step_advance (advance_classify hphase)
      · cases h
  | lockOrigin i =>
      simp only [system, next] at h
      split at h
      · rename_i work hphase
        cases h
        exact step_advance (advance_lockOrigin hphase)
      · cases h
  | migrate i =>
      simp only [system, next] at h
      split at h
      · rename_i work written outcome hphase
        cases h
        refine step_advance (advance_working work ?_ ?_ rfl rfl ?_)
        · rw [hphase]; rfl
        · rw [hphase]; rfl
        · rw [hphase]; exact id
      · cases h
  | after i result =>
      simp only [system, next] at h
      split at h
      · rename_i work written outcome hphase
        cases h
        exact step_advance (advance_after hphase)
      · cases h
  | mark i =>
      simp only [system, next] at h
      split at h
      · rename_i work written outcome ran hphase
        cases h
        refine step_advance (advance_working work ?_ ?_ rfl rfl ?_)
        · rw [hphase]; rfl
        · rw [hphase]; rfl
        · rw [hphase]; exact id
      · cases h
  | commit i processedAt =>
      simp only [system, next] at h
      split at h
      · rename_i work written outcome ran hphase
        cases h
        exact Step.commit i work written outcome ran hphase rfl rfl rfl
          persists_markReceivedProcessed
      · cases h
  | fail i =>
      simp only [system, next] at h
      split at h
      · rename_i row hrow
        cases h
        exact step_advance (advance_unlocked rfl fun row' h => Or.inl (hrow.trans h))
      · cases h
  | recordFailure i failure backoff =>
      simp only [system, next] at h
      split at h
      · split at h
        · cases h
          exact Step.advance i .idle (advance_unlocked rfl fun _ h => by cases h) rfl rfl rfl
            persists_recordReceivedFailure
        · cases h
      · cases h
  | lose i =>
      cases h
      exact step_advance (advance_unlocked rfl fun _ h => by cases h)
  | recordOnFreshConnection failure backoff =>
      simp only [system, next] at h
      split at h
      · cases h
      · cases h
        exact Step.outside rfl rfl rfl persists_recordReceivedFailure
  | ingest insert now =>
      cases h
      exact Step.outside rfl rfl rfl persists_insertReceivedRow
  | redrive replay held =>
      cases h
      exact Step.outside rfl rfl rfl persists_redrive

end Steps

/-! ## Locks and pending writes -/

section Locking

variable {σ ω : Type} {dispatcher : Dispatcher σ ω} {n : Nat}

theorem Sound.congr {cache cache' : CacheTable} {phase : Phase}
    (h : Sound dispatcher cache phase)
    (hlookup : ∀ entity, phase.cacheLock = some entity →
      cache'.lookup entity = cache.lookup entity) : Sound dispatcher cache' phase := by
  cases phase with
  | idle => trivial
  | claimed row => trivial
  | converging row flow => trivial
  | unwinding row => trivial
  | skipped work => simpa only [Sound, hlookup work.entity rfl] using h
  | migrating work => simpa only [Sound, hlookup work.entity rfl] using h
  | adopting work written outcome => simpa only [Sound, hlookup work.entity rfl] using h
  | upserted work written outcome => simpa only [Sound, hlookup work.entity rfl] using h
  | handled work written outcome ran => simpa only [Sound, hlookup work.entity rfl] using h
  | marked work written outcome ran => simpa only [Sound, hlookup work.entity rfl] using h

/-- One session per cache row; pending writes are sound; claimed rows are stored. -/
structure Locking (dispatcher : Dispatcher σ ω) (s : State n) : Prop where
  exclusive : ∀ i j entity, i ≠ j → (s.sessions i).cacheLock = some entity →
    (s.sessions j).cacheLock ≠ some entity
  sound : ∀ i, Sound dispatcher s.cache (s.sessions i)
  stored : ∀ i row, (s.sessions i).row? = some row → ∃ r ∈ s.received, r.frozen = row.frozen

theorem not_cacheLocked {s : State n} {i : Fin n} {entity : String}
    (h : cacheLocked s i entity = false) :
    ∀ j, j ≠ i → (s.sessions j).cacheLock ≠ some entity := by
  intro j hne hlock
  have : cacheLocked s i entity = true := decide_eq_true ⟨j, hne, hlock⟩
  rw [h] at this
  cases this

theorem exclusive_advance {s : State n} {i : Fin n} {p : Phase} (h : Locking dispatcher s)
    (hadv : Advance dispatcher s i p) :
    ∀ j entity, j ≠ i → p.cacheLock = some entity →
      (s.sessions j).cacheLock ≠ some entity := by
  intro j entity hne hlock
  rcases hadv.lock entity hlock with hmine | hfree
  · exact h.exclusive i j entity hne.symm hmine
  · exact not_cacheLocked hfree j hne

theorem Locking.advance {s s' : State n} {i : Fin n} {p : Phase} (h : Locking dispatcher s)
    (hadv : Advance dispatcher s i p) (hsessions : s'.sessions = Function.update s.sessions i p)
    (hcache : s'.cache = s.cache) (hpersists : s.received.Persists s'.received) :
    Locking dispatcher s' := by
  have hself : s'.sessions i = p := by rw [hsessions, Function.update_self]
  have hother : ∀ j, j ≠ i → s'.sessions j = s.sessions j := by
    intro j hne
    rw [hsessions, Function.update_of_ne hne]
  refine
    { exclusive := ?_
      sound := ?_
      stored := ?_ }
  · intro j k entity hne hj hk
    -- Only session `i` has moved: it is one of the two, or nothing is new.
    by_cases hji : j = i
    · rw [hji, hself] at hj
      have hki : k ≠ i := fun h => hne (hji.trans h.symm)
      rw [hother k hki] at hk
      exact exclusive_advance h hadv k entity hki hj hk
    · rw [hother j hji] at hj
      by_cases hki : k = i
      · rw [hki, hself] at hk
        exact exclusive_advance h hadv j entity hji hk hj
      · rw [hother k hki] at hk
        exact h.exclusive j k entity hne hj hk
  · intro j
    rw [hcache]
    by_cases hji : j = i
    · rw [hji, hself]
      exact hadv.sound (h.sound i)
    · rw [hother j hji]
      exact h.sound j
  · intro j row hrow
    have hstored : ∃ r ∈ s.received, r.frozen = row.frozen := by
      by_cases hji : j = i
      · rw [hji, hself] at hrow
        rcases hadv.row row hrow with hmine | hmem
        · exact h.stored i row hmine
        · exact ⟨row, hmem, rfl⟩
      · rw [hother j hji] at hrow
        exact h.stored j row hrow
    rcases hstored with ⟨r, hr, hfrozen⟩
    rcases hpersists r hr with ⟨r', hr', hfrozen'⟩
    exact ⟨r', hr', hfrozen'.trans hfrozen⟩

theorem lookup_commit {s : State n} {i : Fin n} {work : Work} {written : Option CacheRow}
    {outcome : CacheApplyOutcome} {ran : Bool} (h : Locking dispatcher s)
    (hphase : s.sessions i = .marked work written outcome ran) (entity : String) :
    (writeBack s.cache written).lookup entity =
      if entity = work.entity then written <|> s.cache.lookup work.entity
      else s.cache.lookup entity := by
  have hsound := h.sound i
  rw [hphase] at hsound
  refine lookup_writeBack (entityKey_of_cacheApply ?_ hsound.2.1) entity
  intro c hc
  exact (Table.lookup_eq_some.1 hc).2

theorem Locking.commit {s s' : State n} {i : Fin n} {work : Work} {written : Option CacheRow}
    {outcome : CacheApplyOutcome} {ran : Bool} (h : Locking dispatcher s)
    (hphase : s.sessions i = .marked work written outcome ran)
    (hsessions : s'.sessions = Function.update s.sessions i .idle)
    (hcache : s'.cache = writeBack s.cache written)
    (hpersists : s.received.Persists s'.received) : Locking dispatcher s' := by
  -- First the session lets go of the row, then the cache changes under nobody's lock.
  have hidle : Advance dispatcher s i .idle := advance_unlocked rfl fun _ h => by cases h
  have hreleased : Locking dispatcher { s' with cache := s.cache } :=
    h.advance hidle hsessions rfl hpersists
  refine
    { exclusive := hreleased.exclusive
      sound := ?_
      stored := hreleased.stored }
  intro j
  refine (hreleased.sound j).congr ?_
  intro entity hlock
  rw [hcache, lookup_commit h hphase]
  by_cases hji : j = i
  · have hself : s'.sessions i = .idle := by rw [hsessions, Function.update_self]
    rw [hji] at hlock
    simp only [hself] at hlock
    cases hlock
  · have hother : s'.sessions j = s.sessions j := by
      rw [hsessions, Function.update_of_ne hji]
    have hne : entity ≠ work.entity := by
      rintro rfl
      refine h.exclusive i j work.entity (Ne.symm hji) ?_ (hother ▸ hlock)
      rw [hphase]
      rfl
    rw [if_neg hne]

theorem Locking.step {s s' : State n} (h : Locking dispatcher s)
    (hstep : Step dispatcher s s') : Locking dispatcher s' := by
  cases hstep with
  | advance i p hadv hsessions hcache _ hpersists =>
      exact h.advance hadv hsessions hcache hpersists
  | outside hsessions hcache _ hpersists =>
      refine
        { exclusive := by rw [hsessions]; exact h.exclusive
          sound := by rw [hsessions, hcache]; exact h.sound
          stored := ?_ }
      intro i row hrow
      rw [hsessions] at hrow
      rcases h.stored i row hrow with ⟨r, hr, hfrozen⟩
      rcases hpersists r hr with ⟨r', hr', hfrozen'⟩
      exact ⟨r', hr', hfrozen'.trans hfrozen⟩
  | commit i work written outcome ran hphase hsessions hcache _ hpersists =>
      exact h.commit hphase hsessions hcache hpersists

theorem reachable_locking {s : State n} (h : (system dispatcher n).Reachable s) :
    Locking dispatcher s := by
  refine TransitionSystem.Reachable.invariant ?_ ?_ h
  · rintro s ⟨_, hidle, _⟩
    exact
      { exclusive := fun i _ _ _ hlock => by
          rw [hidle i] at hlock
          cases hlock
        sound := fun i => by
          rw [hidle i]
          trivial
        stored := fun i _ hrow => by
          rw [hidle i] at hrow
          cases hrow }
  · intro s a s' hs hnext
    exact hs.step (step_of_next hnext)

end Locking

/-! ## The order of committed after-handlers -/

section Order

variable {σ ω : Type} {dispatcher : Dispatcher σ ω} {n : Nat} {retiredTopic : String}
  {place : String → String → Int}

/-- `x`'s after-handler run precedes `y`'s, if both are runs for one entity. -/
def Precedes (dispatcher : Dispatcher σ ω) (x y : Execution) : Prop :=
  ∀ entity, x.afterRan = true → y.afterRan = true →
    receivedEntityKey x.row = .ok entity →
    receivedEntityKey y.row = .ok entity →
    position dispatcher.descriptor.topic (rowOrigin x.row) <
      position dispatcher.descriptor.topic (rowOrigin y.row)

/-- The cache is at or past every committed after-handler run, and the runs are in order. -/
structure Ordered (dispatcher : Dispatcher σ ω) (retiredTopic : String)
    (place : String → String → Int) (s : State n) : Prop where
  placed : ∀ entity c, s.cache.lookup entity = some c →
    Placed dispatcher.descriptor.topic retiredTopic place entity (cacheOrigin c)
  covered : ∀ x ∈ s.executions, x.afterRan = true →
    ∀ entity, receivedEntityKey x.row = .ok entity →
      ∃ c, s.cache.lookup entity = some c ∧
        position dispatcher.descriptor.topic (rowOrigin x.row) ≤
          position dispatcher.descriptor.topic (cacheOrigin c)
  increasing : s.executions.Pairwise (Precedes dispatcher)

/-- What a commit does to the cache row of its entity, and when its after-handler may have run. -/
theorem commit_absorbs {s : State n} {i : Fin n} {work : Work} {written : Option CacheRow}
    {outcome : CacheApplyOutcome} {ran : Bool} (hlocking : Locking dispatcher s)
    (hordered : Ordered dispatcher retiredTopic place s)
    (hplaced : OnePartition dispatcher.descriptor.topic retiredTopic place s.received)
    (hphase : s.sessions i = .marked work written outcome ran) :
    receivedEntityKey work.row = .ok work.entity ∧
      Placed dispatcher.descriptor.topic retiredTopic place work.entity (rowOrigin work.row) ∧
      (written <|> s.cache.lookup work.entity).map cacheOrigin =
        absorb (position dispatcher.descriptor.topic)
          ((s.cache.lookup work.entity).map cacheOrigin) (rowOrigin work.row) ∧
      (ran = true → ∀ c, s.cache.lookup work.entity = some c →
        position dispatcher.descriptor.topic (cacheOrigin c) <
          position dispatcher.descriptor.topic (rowOrigin work.row)) := by
  have hsound := hlocking.sound i
  rw [hphase] at hsound
  rcases hsound with ⟨hkey, happly, hran⟩
  have hrow : Placed dispatcher.descriptor.topic retiredTopic place work.entity
      (rowOrigin work.row) := by
    rcases hlocking.stored i work.row (by rw [hphase]; rfl) with ⟨r, hr, hfrozen⟩
    rw [← rowOrigin_of_frozen hfrozen]
    exact hplaced r hr work.entity ((receivedEntityKey_of_frozen hfrozen).trans hkey)
  rcases cacheApply_placed work.now (hordered.placed work.entity) hrow with
    ⟨written', outcome', happly', habsorb, hignored⟩
  -- The lock has kept the cache row as the upsert saw it, so the commit applies what was computed.
  obtain ⟨rfl, rfl⟩ : written' = written ∧ outcome' = outcome := by
    rw [happly] at happly'
    cases happly'
    exact ⟨rfl, rfl⟩
  refine ⟨hkey, hrow, habsorb, ?_⟩
  intro hr c hc
  by_contra hnot
  exact hran hr (hignored.2 ⟨c, hc, hnot⟩)

theorem Ordered.commit {s s' : State n} {i : Fin n} {work : Work} {written : Option CacheRow}
    {outcome : CacheApplyOutcome} {ran : Bool} (h : Ordered dispatcher retiredTopic place s)
    (hlocking : Locking dispatcher s)
    (hplaced : OnePartition dispatcher.descriptor.topic retiredTopic place s.received)
    (hphase : s.sessions i = .marked work written outcome ran)
    (hcache : s'.cache = writeBack s.cache written)
    (hexec : s'.executions = s.executions ++
      [{ row := work.row, flow := work.flow, applied := outcome, afterRan := ran }]) :
    Ordered dispatcher retiredTopic place s' := by
  rcases commit_absorbs hlocking h hplaced hphase with ⟨hkey, hrow, habsorb, hran⟩
  rcases absorb_spec (position dispatcher.descriptor.topic)
    ((s.cache.lookup work.entity).map cacheOrigin) (rowOrigin work.row) with
    ⟨origin, horigin, hfrom, hrowLe, hcacheLe⟩
  -- The committed row of the entity afterwards.
  obtain ⟨c', hc', horigin'⟩ : ∃ c', (written <|> s.cache.lookup work.entity) = some c' ∧
      cacheOrigin c' = origin := by
    rw [horigin] at habsorb
    exact Option.map_eq_some_iff.1 habsorb
  have hlookup : ∀ entity, s'.cache.lookup entity =
      if entity = work.entity then some c' else s.cache.lookup entity := by
    intro entity
    rw [hcache, lookup_commit hlocking hphase, hc']
  refine
    { placed := ?_
      covered := ?_
      increasing := ?_ }
  · intro entity c hc
    rw [hlookup] at hc
    by_cases he : entity = work.entity
    · rw [if_pos he] at hc
      cases hc
      rw [horigin', he]
      rcases hfrom with hfrom | hfrom
      · exact hfrom ▸ hrow
      · rcases Option.map_eq_some_iff.1 hfrom with ⟨c, hc, heq⟩
        exact heq ▸ h.placed work.entity c hc
    · rw [if_neg he] at hc
      exact h.placed entity c hc
  · intro x hx hafter entity hxkey
    rw [hlookup]
    by_cases he : entity = work.entity
    · rw [if_pos he]
      refine ⟨c', rfl, ?_⟩
      rw [horigin']
      rw [hexec] at hx
      rcases List.mem_append.1 hx with hx | hx
      · rcases h.covered x hx hafter entity hxkey with ⟨c, hc, hle⟩
        exact hle.trans (hcacheLe _ (by rw [← he, hc]; rfl))
      · rw [List.mem_singleton.1 hx]
        exact hrowLe
    · rw [if_neg he]
      rw [hexec] at hx
      rcases List.mem_append.1 hx with hx | hx
      · exact h.covered x hx hafter entity hxkey
      · rw [List.mem_singleton.1 hx] at hxkey
        exact absurd (Except.ok.inj (hxkey.symm.trans hkey)) he
  · rw [hexec, List.pairwise_append]
    refine ⟨h.increasing, List.pairwise_singleton _ _, ?_⟩
    intro x hx y hy entity hxran hyran hxkey hykey
    rw [List.mem_singleton.1 hy] at hyran hykey ⊢
    have he : entity = work.entity := Except.ok.inj (hykey.symm.trans hkey)
    rcases h.covered x hx hxran entity hxkey with ⟨c, hc, hle⟩
    exact hle.trans_lt (hran hyran c (he ▸ hc))

theorem Ordered.of_unchanged {s s' : State n} (h : Ordered dispatcher retiredTopic place s)
    (hcache : s'.cache = s.cache) (hexec : s'.executions = s.executions) :
    Ordered dispatcher retiredTopic place s' :=
  { placed := by rw [hcache]; exact h.placed
    covered := by rw [hcache, hexec]; exact h.covered
    increasing := by rw [hexec]; exact h.increasing }

theorem ordered_initial {s : State n} (h : (system dispatcher n).init s) :
    Ordered dispatcher retiredTopic place s := by
  rcases h with ⟨hcache, _, hexec⟩
  refine
    { placed := ?_
      covered := by simp [hexec]
      increasing := by simp [hexec] }
  intro entity c hc
  rw [hcache] at hc
  cases hc

theorem ordered_of_reachable {s : State n} (h : (system dispatcher n).Reachable s)
    (hplaced : OnePartition dispatcher.descriptor.topic retiredTopic place s.received) : Ordered dispatcher retiredTopic place s := by
  refine TransitionSystem.ReachableBy.invariant_of_inherited
    (P := fun s => OnePartition dispatcher.descriptor.topic retiredTopic place s.received) ?_ ?_ ?_ h hplaced
  · intro s a s' _ hnext hafter
    exact hafter.of_persists (step_of_next hnext).persists
  · intro s h0
    exact ordered_initial h0
  · intro s a s' hreach hordered hbefore _ _ hnext
    cases step_of_next hnext with
    | advance i p _ _ hcache hexec _ =>
        exact hordered.of_unchanged hcache hexec
    | outside _ hcache hexec _ =>
        exact hordered.of_unchanged hcache hexec
    | commit i work written outcome ran hphase _ hcache hexec _ =>
        exact hordered.commit (reachable_locking hreach) hbefore hphase hcache hexec

end Order

/-- **After-handlers of one entity commit in snapshot order**: in the order of their commits, the
positions (retired topic before declared, then offset) of their records increase strictly. -/
theorem after_handlers_in_order {σ ω : Type} (dispatcher : Dispatcher σ ω) (n : Nat)
    (retiredTopic : String) (place : String → String → Int) {s : State n}
    (h : (system dispatcher n).Reachable s)
    (hplaced : OnePartition dispatcher.descriptor.topic retiredTopic place s.received) :
    s.executions.Pairwise fun x y =>
      ∀ entity, x.afterRan = true → y.afterRan = true →
        receivedEntityKey x.row = .ok entity →
        receivedEntityKey y.row = .ok entity →
        position dispatcher.descriptor.topic (rowOrigin x.row) <
          position dispatcher.descriptor.topic (rowOrigin y.row) :=
  (ordered_of_reachable h hplaced).increasing

/-- Dispatchers `i` and `j`, each with a row of entity `a`; `j` waits for `i`. -/
def twoDispatchers {n : Nat} (i j : Fin n) : List (Action n) :=
  [.ingest (Counting.insert "texts" 1) 0, .ingest (Counting.insert "texts" 2) 1,
    .claim i 5 (fun _ => false), .claim j 5 (fun _ => false),
    .before j (.ok .proceed), .before i (.ok .proceed), .upsert i 5, .after i (.ok ()), .mark i,
    .commit i 5, .upsert j 5, .after j (.ok ()), .mark j, .commit j 5]

def noDispatch : State 2 :=
  { received := ReceivedTable.empty
    cache := Table.empty
    sessions := fun _ => .idle
    executions := [] }

theorem after_handlers_in_order_of_two :
    ∃ s, (system Counting.dispatcher 2).Reachable s ∧
      ∃ x y, s.executions = [x, y] ∧
        position "texts" (rowOrigin x.row) < position "texts" (rowOrigin y.row) := by
  obtain ⟨s, hrun, hplace, x, y, hexec, hx, hy, hxkey, hykey⟩ :
      ∃ s, (system Counting.dispatcher 2).run noDispatch (twoDispatchers 0 1) = some s ∧
        (∀ r ∈ s.received.rows, r.sourceTopic = "texts" ∧ r.sourcePartition = 0) ∧
        ∃ x y, s.executions = [x, y] ∧ x.afterRan = true ∧ y.afterRan = true ∧
          x.row.entityKey = some "a" ∧ y.row.entityKey = some "a" :=
    ⟨_, rfl, by decide, _, _, rfl, rfl, rfl, rfl, rfl⟩
  have hstart : (system Counting.dispatcher 2).Reachable noDispatch :=
    TransitionSystem.Reachable.start ⟨rfl, fun _ => rfl, rfl⟩
  have hreach := TransitionSystem.reachable_of_run hstart hrun
  have hplaced : OnePartition Counting.dispatcher.descriptor.topic "old" (fun _ _ => 0) s.received :=
    fun r hr _ _ => ⟨Or.inl (hplace r hr).1, (hplace r hr).2⟩
  have horder := after_handlers_in_order Counting.dispatcher 2 "old" (fun _ _ => 0) hreach hplaced
  rw [hexec] at horder
  exact ⟨s, hreach, x, y, hexec,
    (List.pairwise_pair.1 horder) "a" hx hy (by simp [receivedEntityKey, hxkey])
      (by simp [receivedEntityKey, hykey])⟩

end Concurrent
end Dispatch
end Kafkaman
