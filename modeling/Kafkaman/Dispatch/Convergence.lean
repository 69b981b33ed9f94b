import Kafkaman.Dispatch.Effects

/-!
# Dispatch.Convergence — the cache is a function of the processed rows

The declared topic and at most one retired topic, one partition per entity on each, distinct offsets
per partition (`WellPlaced`).  Then an entity's cache row is a register over positions: it shows the
processed row of greatest position, whatever the order of the cycles (`ShowsLatest`).

* `ShowsLatest.settled` — a settled cycle absorbs its record;
* `cache_converges` — the law, in every reachable state.
-/

namespace Kafkaman
namespace Dispatch

open Lib Received

section Convergence

variable {σ ω : Type}

/-! ## Placement -/

/-- Each entity on one partition per topic. -/
def OnePartition (declaredTopic retiredTopic : String) (place : String → String → Int)
    (t : ReceivedTable) : Prop :=
  ∀ r ∈ t, ∀ entity, receivedEntityKey r = .ok entity →
    Placed declaredTopic retiredTopic place entity (rowOrigin r)

/-- Each entity on one partition per topic, and no offset twice. -/
structure WellPlaced (declaredTopic retiredTopic : String)
    (place : String → String → Int) (t : ReceivedTable) : Prop where
  placed : OnePartition declaredTopic retiredTopic place t
  distinct : ∀ r ∈ t, ∀ r' ∈ t, r.sourceTopic = r'.sourceTopic →
    r.sourcePartition = r'.sourcePartition → r.sourceOffset = r'.sourceOffset → r = r'

theorem rowOrigin_frozen (r : ReceivedRow) : rowOrigin r.frozen = rowOrigin r :=
  rfl

theorem receivedEntityKey_frozen (r : ReceivedRow) :
    receivedEntityKey r.frozen = receivedEntityKey r :=
  rfl

theorem rowOrigin_of_frozen {a b : ReceivedRow} (h : a.frozen = b.frozen) :
    rowOrigin a = rowOrigin b := by
  rw [← rowOrigin_frozen a, h, rowOrigin_frozen]

theorem receivedEntityKey_of_frozen {a b : ReceivedRow}
    (h : a.frozen = b.frozen) : receivedEntityKey a = receivedEntityKey b := by
  rw [← receivedEntityKey_frozen a, h, receivedEntityKey_frozen]

section Persists

variable {declaredTopic retiredTopic : String} {place : String → String → Int}
  {t t' : ReceivedTable}

/-- Rows keep their placement columns, so what is placed now was so before. -/
theorem OnePartition.of_persists (h : OnePartition declaredTopic retiredTopic place t')
    (hpersists : t.Persists t') : OnePartition declaredTopic retiredTopic place t := by
  intro r hr entity hentity
  rcases hpersists r hr with ⟨r', hr', hfrozen⟩
  rw [← rowOrigin_of_frozen hfrozen]
  exact h r' hr' entity ((receivedEntityKey_of_frozen hfrozen).trans hentity)

theorem WellPlaced.of_persists (h : WellPlaced declaredTopic retiredTopic place t')
    (hpersists : t.Persists t') : WellPlaced declaredTopic retiredTopic place t := by
  refine ⟨h.placed.of_persists hpersists, ?_⟩
  intro a ha b hb htopic hpartition hoffset
  rcases hpersists a ha with ⟨a', ha', hfa⟩
  rcases hpersists b hb with ⟨b', hb', hfb⟩
  have hoa := rowOrigin_of_frozen hfa
  have hob := rowOrigin_of_frozen hfb
  have heq : a' = b' := by
    refine h.distinct a' ha' b' hb' ?_ ?_ ?_
    · exact (congrArg Origin.topic hoa).trans (htopic.trans (congrArg Origin.topic hob).symm)
    · exact (congrArg Origin.partition hoa).trans
        (hpartition.trans (congrArg Origin.partition hob).symm)
    · exact (congrArg Origin.offset hoa).trans
        (hoffset.trans (congrArg Origin.offset hob).symm)
  -- One version each, so the present rows share their message id.
  refine ReceivedTable.eq_of_messageId_eq ha hb ?_
  rw [← messageId_of_frozen hfa, ← messageId_of_frozen hfb, heq]

end Persists

/-! ## The register of an entity -/

/-- A processed row of the entity. -/
def ProcessedOf (entity : String) (r : ReceivedRow) : Prop :=
  r.status = .processed ∧ receivedEntityKey r = .ok entity

/-- What the processed rows of an entity say. -/
def processedOrigins (t : ReceivedTable) (entity : String) : Set Origin :=
  { origin | ∃ r ∈ t, ProcessedOf entity r ∧ rowOrigin r = origin }

/-- What the cache says about an entity. -/
def cached (w : World σ) (entity : String) : Option Origin :=
  (w.db.cache.lookup entity).map cacheOrigin

/-- The cache shows each entity's processed row of greatest position. -/
def ShowsLatest (dispatcher : Dispatcher σ ω) (w : World σ) : Prop :=
  ∀ entity, Greatest (position dispatcher.descriptor.topic)
    (processedOrigins w.db.received entity) (cached w entity)

variable {dispatcher : Dispatcher σ ω} {retiredTopic : String} {place : String → String → Int}

theorem processedOrigins_congr {t t' : ReceivedTable} {entity : String}
    (h : ∀ r, r.status = .processed → (r ∈ t' ↔ r ∈ t)) :
    processedOrigins t' entity = processedOrigins t entity := by
  ext origin
  constructor
  · rintro ⟨r, hr, hof, rfl⟩
    exact ⟨r, (h r hof.1).1 hr, hof, rfl⟩
  · rintro ⟨r, hr, hof, rfl⟩
    exact ⟨r, (h r hof.1).2 hr, hof, rfl⟩

theorem ShowsLatest.of_processed_iff {w w' : World σ} (h : ShowsLatest dispatcher w)
    (hrows : ∀ r, r.status = .processed → (r ∈ w'.db.received ↔ r ∈ w.db.received))
    (hcache : w'.db.cache = w.db.cache) : ShowsLatest dispatcher w' := by
  intro entity
  rw [processedOrigins_congr hrows, cached, hcache]
  exact h entity

theorem ShowsLatest.placed {w : World σ} (h : ShowsLatest dispatcher w)
    (hplaced : WellPlaced dispatcher.descriptor.topic retiredTopic place
      w.db.received)
    {entity : String} {c : CacheRow} (hc : w.db.cache.lookup entity = some c) :
    Placed dispatcher.descriptor.topic retiredTopic place entity (cacheOrigin c) := by
  have hgreatest := h entity
  rw [cached, hc] at hgreatest
  rcases hgreatest.1 with ⟨r, hr, hof, horigin⟩
  rw [← horigin]
  exact hplaced.placed r hr entity hof.2

theorem processedOrigins_settled {env : CycleEnv ω} {row : ReceivedRow} {db db' : Database σ}
    {x : Execution} {entity : String}
    (htogether : CommittedTogether dispatcher env row db db' x) (hrow : row ∈ db.received)
    (hopen : unsettled row = true)
    (hentity : receivedEntityKey row = .ok entity) (other : String) :
    processedOrigins db'.received other =
      if other = entity then
        insert (rowOrigin row) (processedOrigins db.received entity)
      else
        processedOrigins db.received other := by
  have hkey : ∀ e, receivedEntityKey (processedRow env.dueAt row) = .ok e ↔
      entity = e := by
    intro e
    rw [receivedEntityKey_of_frozen (frozen_processedRow env.dueAt row), hentity]
    simp
  -- Processed rows after the cycle are those before it and the claimed one.
  have hmem : ∀ origin, origin ∈ processedOrigins db'.received other ↔
      origin ∈ processedOrigins db.received other ∨
        entity = other ∧ rowOrigin row = origin := by
    intro origin
    constructor
    · rintro ⟨r, hr, hof, rfl⟩
      rcases (htogether.processed_iff hrow hopen hof.1).1 hr with hr | rfl
      · exact Or.inl ⟨r, hr, hof, rfl⟩
      · exact Or.inr ⟨(hkey other).1 hof.2, rfl⟩
    · rintro (⟨r, hr, hof, rfl⟩ | ⟨heq, rfl⟩)
      · exact ⟨r, (htogether.processed_iff hrow hopen hof.1).2 (Or.inl hr), hof, rfl⟩
      · exact ⟨processedRow env.dueAt row,
          (htogether.processed_iff hrow hopen rfl).2 (Or.inr rfl), ⟨rfl, (hkey other).2 heq⟩,
          rfl⟩
  ext origin
  rw [hmem]
  split
  · rename_i heq
    subst heq
    simp [Set.mem_insert_iff, or_comm, eq_comm]
  · rename_i hne
    have : entity ≠ other := fun h => hne h.symm
    simp [this]

/-- A settled cycle absorbs its record into its entity's register. -/
theorem ShowsLatest.settled {w w' : World σ} {env : CycleEnv ω} {row : ReceivedRow}
    {x : Execution} (h : ShowsLatest dispatcher w)
    (hplaced : WellPlaced dispatcher.descriptor.topic retiredTopic place
      w.db.received)
    (hclaim : claimReceivedRow env.dueAt env.locked w.db.received = some row)
    (htogether : CommittedTogether dispatcher env row w.db w'.db x) :
    ShowsLatest dispatcher w' := by
  rcases claimReceivedRow_spec hclaim with ⟨hrow, hopen⟩
  rcases htogether.cache with ⟨entity, written, hentity, happly, hcache⟩
  have hkey := entityKey_of_cacheApply
    (fun c hc => (Table.lookup_eq_some.1 hc).2) happly
  rcases cacheApply_placed env.now (fun c hc => h.placed hplaced hc)
    (hplaced.placed row hrow entity hentity) with ⟨written', outcome, happly', habsorb, _⟩
  have hsame : written' = written := by
    rw [happly] at happly'
    cases happly'
    rfl
  intro other
  rw [processedOrigins_settled htogether hrow hopen hentity, cached, hcache,
    lookup_writeBack hkey]
  split
  · rw [← hsame, habsorb]
    exact (h entity).absorb (rowOrigin row)
  · exact h other

theorem showsLatest_initial {w : World σ} (h : (system dispatcher).init w) :
    ShowsLatest dispatcher w := by
  rcases h with ⟨hcache, hrows, _, _⟩
  intro entity
  have hnone : (Table.empty : CacheTable).lookup entity = none := rfl
  rw [cached, hcache, hnone]
  refine Set.eq_empty_of_forall_notMem ?_
  rintro origin ⟨r, hr, hof, _⟩
  exact hrows r hr hof.1

theorem showsLatest_of_reachable {w : World σ} (h : (system dispatcher).Reachable w)
    (hplaced : WellPlaced dispatcher.descriptor.topic retiredTopic place
      w.db.received) : ShowsLatest dispatcher w := by
  -- Rows are never moved, so the placement of the last state holds all along the run.
  refine TransitionSystem.ReachableBy.invariant_of_inherited
    (P := fun w => WellPlaced dispatcher.descriptor.topic retiredTopic place
      w.db.received) ?_ ?_ ?_ h hplaced
  · intro w a w' _ hnext hafter
    exact hafter.of_persists (step_of_next hnext).persists
  · intro w h0
    exact showsLatest_initial h0
  · intro w a w' _ hlatest hbefore _ _ hnext
    cases step_of_next hnext with
    | ingested insert now _ hdb _ =>
        have hcache := congrArg Database.cache hdb
        refine hlatest.of_processed_iff (fun r hstatus => ?_) hcache
        rw [hdb]
        exact processed_insertReceivedRow hstatus
    | kept hkept hcache _ =>
        exact hlatest.of_processed_iff hkept.processed hcache
    | settled env row x hclaim htogether _ =>
        exact hlatest.settled hbefore hclaim htogether

theorem injOn_position {declaredTopic : String} {t : ReceivedTable}
    (hplaced : WellPlaced declaredTopic retiredTopic place t) (entity : String) :
    Set.InjOn (position declaredTopic) (processedOrigins t entity) := by
  rintro _ ⟨a, ha, hofa, rfl⟩ _ ⟨b, hb, hofb, rfl⟩ heq
  have hpa := hplaced.placed a ha entity hofa.2
  have hpb := hplaced.placed b hb entity hofb.2
  have hpair := Prod.ext_iff.1 (toLex.injective heq)
  have hon : a.sourceTopic = declaredTopic ↔ b.sourceTopic = declaredTopic := by
    exact decide_eq_decide.1 hpair.1
  have htopic : a.sourceTopic = b.sourceTopic := by
    rcases hpa.topic with hta | hta
    · exact hta.trans (hon.1 hta).symm
    · rcases hpb.topic with htb | htb
      · exact (hon.2 htb).trans htb.symm
      · exact hta.trans htb.symm
  have hpartition : a.sourcePartition = b.sourcePartition := by
    have h₁ : a.sourcePartition = place entity a.sourceTopic := hpa.partition
    have h₂ : b.sourcePartition = place entity b.sourceTopic := hpb.partition
    rw [h₁, h₂, htopic]
  rw [hplaced.distinct a ha b hb htopic hpartition hpair.2]

theorem ShowsLatest.cached_eq {w : World σ} (h : ShowsLatest dispatcher w)
    (hplaced : WellPlaced dispatcher.descriptor.topic retiredTopic place
      w.db.received)
    {entity : String} {r : ReceivedRow} (hr : r ∈ w.db.received)
    (hof : ProcessedOf entity r)
    (hmax : ∀ r' ∈ w.db.received, ProcessedOf entity r' →
      position dispatcher.descriptor.topic (rowOrigin r') ≤
        position dispatcher.descriptor.topic (rowOrigin r)) :
    cached w entity = some (rowOrigin r) := by
  refine Greatest.unique (injOn_position hplaced entity) (h entity) ⟨⟨r, hr, hof, rfl⟩, ?_⟩
  rintro _ ⟨r', hr', hof', rfl⟩
  exact hmax r' hr' hof'

end Convergence

/-- **Cache convergence does not depend on dispatch order.**  The cache row of an entity is its
processed row of greatest offset on the declared topic, else on the retired one, else there is none;
and it is determined by the processed rows. -/
theorem cache_converges {σ ω : Type} (dispatcher : Dispatcher σ ω) (retiredTopic : String)
    (place : String → String → Int) {w : World σ} (h : (system dispatcher).Reachable w)
    (hplaced : WellPlaced dispatcher.descriptor.topic retiredTopic place
      w.db.received) (entity : String) :
    (∀ r ∈ w.db.received, ProcessedOf entity r →
      r.sourceTopic = dispatcher.descriptor.topic →
      (∀ r' ∈ w.db.received, ProcessedOf entity r' →
        r'.sourceTopic = dispatcher.descriptor.topic → r'.sourceOffset ≤ r.sourceOffset) →
      cached w entity = some (rowOrigin r)) ∧
    ((∀ r ∈ w.db.received, ProcessedOf entity r →
        r.sourceTopic ≠ dispatcher.descriptor.topic) →
      ∀ r ∈ w.db.received, ProcessedOf entity r →
        (∀ r' ∈ w.db.received, ProcessedOf entity r' →
          r'.sourceOffset ≤ r.sourceOffset) →
        cached w entity = some (rowOrigin r)) ∧
    ((∀ r ∈ w.db.received, ¬ ProcessedOf entity r) → cached w entity = none) ∧
    ∀ w' : World σ, (system dispatcher).Reachable w' →
      processedOrigins w'.db.received entity =
        processedOrigins w.db.received entity →
      WellPlaced dispatcher.descriptor.topic retiredTopic place w'.db.received →
      cached w' entity = cached w entity := by
  have hlatest := showsLatest_of_reachable h hplaced
  refine ⟨?_, ?_, ?_, ?_⟩
  · intro r hr hof hdeclared hmax
    refine hlatest.cached_eq hplaced hr hof ?_
    intro r' hr' hof'
    -- A row of the retired topic is behind every row of the declared one, whatever its offset.
    rw [← not_lt, position_lt_iff]
    by_cases hr'declared : r'.sourceTopic = dispatcher.descriptor.topic
    · simpa [rowOrigin, hdeclared, hr'declared] using hmax r' hr' hof' hr'declared
    · simp [rowOrigin, hdeclared, hr'declared]
  · intro hretired r hr hof hmax
    refine hlatest.cached_eq hplaced hr hof ?_
    intro r' hr' hof'
    rw [← not_lt, position_lt_iff]
    simpa [rowOrigin, hretired r hr hof, hretired r' hr' hof'] using hmax r' hr' hof'
  · intro hnone
    have hempty : processedOrigins w.db.received entity = ∅ := by
      refine Set.eq_empty_of_forall_notMem ?_
      rintro origin ⟨r, hr, hof, _⟩
      exact hnone r hr hof
    have hgreatest := hlatest entity
    rw [hempty] at hgreatest
    exact Greatest.unique (Set.injOn_empty _) hgreatest rfl
  · intro w' h' heq hplaced'
    have hgreatest := showsLatest_of_reachable h' hplaced' entity
    rw [heq] at hgreatest
    exact Greatest.unique (injOn_position hplaced entity) hgreatest (hlatest entity)

open Counting in
/-- A record of the declared topic is processed before a straggler of the retired one. -/
theorem cache_converges_past_straggler :
    ∃ w, (system dispatcher).Reachable w ∧ w.executions.length = 2 ∧
      ∃ r ∈ w.db.received, r.sourceTopic = "texts" ∧ cached w "a" = some (rowOrigin r) := by
  obtain ⟨w, hrun, hexec, hplace, hdistinct, r, hr, hstatus, hentity, htopic, honly⟩ :
      ∃ w, (system dispatcher).run initial
        [.ingest (insert "texts" 1) 0, .ingest (insert "old" 2) 1, .cycle (env 5 false []),
          .cycle (env 6 false [])] = some w ∧ w.executions.length = 2 ∧
        (∀ r ∈ w.db.received.rows,
          (r.sourceTopic = "texts" ∨ r.sourceTopic = "old") ∧ r.sourcePartition = 0) ∧
        (∀ r ∈ w.db.received.rows, ∀ r' ∈ w.db.received.rows,
          r.sourceOffset = r'.sourceOffset → r.messageId = r'.messageId) ∧
        ∃ r ∈ w.db.received.rows, r.status = .processed ∧ r.entityKey = some "a" ∧
          r.sourceTopic = "texts" ∧
          ∀ r' ∈ w.db.received.rows, r'.sourceTopic = "texts" →
            r'.sourceOffset ≤ r.sourceOffset :=
    ⟨_, rfl, rfl, by decide, by decide, _, List.mem_cons_self, rfl, rfl, rfl, by decide⟩
  have hstart : (system dispatcher).Reachable initial :=
    TransitionSystem.Reachable.start initial_init
  have hreach := TransitionSystem.reachable_of_run hstart hrun
  have hplaced : WellPlaced dispatcher.descriptor.topic "old" (fun _ _ => 0)
      w.db.received :=
    { placed := fun r hr _ _ => ⟨(hplace r hr).1, (hplace r hr).2⟩
      distinct := fun r hr r' hr' _ _ hoffset =>
        ReceivedTable.eq_of_messageId_eq hr hr' (hdistinct r hr r' hr' hoffset) }
  have hof : ProcessedOf "a" r := ⟨hstatus, by simp [receivedEntityKey, hentity]⟩
  exact ⟨w, hreach, hexec, r, hr, htopic,
    (cache_converges dispatcher "old" (fun _ _ => 0) hreach hplaced "a").1 r hr hof htopic
      fun r' hr' _ htopic' => honly r' hr' htopic'⟩

end Dispatch
end Kafkaman
