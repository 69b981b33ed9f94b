import Kafkaman.Dispatch.HandlerOrder
import Kafkaman.Outbox.Contents

/-!
# Dispatch.Announce — consume, derive, produce

An after-handler that enqueues what it derives from its payload, on the connection of the dispatch
transaction.  The outbox row takes its ordinal at the `INSERT` and is seen by others with the commit;
a transaction that is unwound or lost has drawn an ordinal and leaves nothing.

The sessions are those of `Dispatch.Concurrent`, so dispatchers interleave statement by statement.
The entity's cache row is locked from the upsert to the end of the transaction, and the ordinal is
drawn in between.

* `announceSystem` — the sessions, the rows they have inserted and the rows that are committed;
* `Diligent` — without pre-upsert handlers, a record that advances the cache reaches its handler;
* `Announcing` — the invariant: what is pending is newer than what is committed of its entity;
* `announced_is_cached` — the newest committed announcement of an entity is derived from its cache
  row, and announcements and committed handler runs correspond one to one.
-/

namespace Kafkaman
namespace Dispatch
namespace Concurrent

open Lib Received Outbox

/-- A handler that announces what it derives. -/
structure Producer (Q : Type) where
  message : KafkaMessage Q
  descriptor : MessageDescriptor
  derive : Json → Q

/-- `Envelope::new` and its builders: metadata around a payload. -/
def carrying {Q : Type} (stamp : Envelope Unit) (payload : Q) : Envelope Q :=
  { messageId := stamp.messageId
    idempotencyKey := stamp.idempotencyKey
    correlationId := stamp.correlationId
    causationId := stamp.causationId
    headers := stamp.headers
    payload := payload
    occurredAt := stamp.occurredAt }

/-- A committed outbox row, and the received row whose handler enqueued it. -/
structure Announcement where
  source : ReceivedRow
  row : OutboxRow

structure AnnounceState (n : Nat) where
  base : State n
  /-- The sequence behind `enqueue_order`. -/
  sequence : Nat
  /-- The rows inserted by open transactions. -/
  pending : Fin n → Option OutboxRow
  announced : List Announcement

/-- A statement of a session, and what an enqueue in it is given. -/
structure AnnounceAction (n : Nat) where
  base : Action n
  stamp : Envelope Unit
  trace : Option TraceContext
  now : Timestamp
  /-- Ordinals drawn by others, or by inserts that are rolled back. -/
  drawn : Nat

/-- The handler has run and its transaction is still open. -/
def Phase.ranAfter : Phase → Option Work
  | .handled work _ _ true | .marked work _ _ true => some work
  | _ => none

section Semantics

variable {σ ω Q : Type} (dispatcher : Dispatcher σ ω) (producer : Producer Q) {n : Nat}

/-- Rows of transactions that are over are gone from the pending ones. -/
def stillPending (base : State n) (pending : Fin n → Option OutboxRow) : Fin n → Option OutboxRow :=
  fun i => if (base.sessions i).ranAfter.isSome then pending i else none

/-- `HandlerCtx::enqueue` by a handler that returns `Ok`, so that the enqueue was accepted. -/
def announce (a : AnnounceAction n) (work : Work) (sequence : Nat) : Option OutboxRow :=
  match prepareInsert producer.message producer.descriptor
      (carrying a.stamp (producer.derive work.row.payload)) a.trace with
  | .error _ => none
  | .ok insert =>
      if insert.idempotencyKey.isSome then some (insert.inserted a.now sequence) else none

/-- The session has just run its handler. -/
def justRan (a : Action n) (base : State n) : Option (Fin n × Work) :=
  match a with
  | .after i _ => (base.sessions i).ranAfter.map fun work => (i, work)
  | _ => none

/-- What a commit adds. -/
def committedBy (s : AnnounceState n) : Action n → List Announcement
  | .commit i _ =>
      match (s.base.sessions i).ranAfter, s.pending i with
      | some work, some row => [{ source := work.row, row := row }]
      | _, _ => []
  | _ => []

def nextAnnounce (s : AnnounceState n) (a : AnnounceAction n) : Option (AnnounceState n) :=
  (next dispatcher s.base a.base).bind fun base =>
    match justRan a.base base with
    | some (i, work) =>
        (announce producer a work s.sequence).map fun row =>
          { base := base
            sequence := s.sequence + 1
            pending := Function.update s.pending i (some row)
            announced := s.announced }
    | none =>
        some
          { base := base
            sequence := s.sequence + a.drawn
            pending := stillPending base s.pending
            announced := s.announced ++ committedBy s a.base }

def announceSystem (n : Nat) : TransitionSystem (AnnounceState n) (AnnounceAction n) :=
  { init := fun s =>
      (system dispatcher n).init s.base ∧ s.announced = [] ∧ ∀ i, s.pending i = none
    next := nextAnnounce dispatcher producer }

end Semantics

/-! ## How a session moves -/

section Turns

variable {σ ω : Type} (dispatcher : Dispatcher σ ω) {n : Nat}

/-- Where a statement takes its session. -/
inductive Turn : Action n → Fin n → Phase → Phase → Prop where
  | claimed {i dueAt held row} : Turn (.claim i dueAt held) i .idle (.claimed row)
  | before {i row result} :
      Turn (.before i result) i (.claimed row) (afterBefore dispatcher row result)
  | upserted {i now row flow entity current} :
      Turn (.upsert i now) i (.converging row flow)
        (afterUpsert { row := row, flow := flow, entity := entity, now := now } current)
  | classified {i work current} :
      Turn (.classify i) i (.skipped work) (afterClassify dispatcher work current)
  | lockedOrigin {i work current} :
      Turn (.lockOrigin i) i (.migrating work) (afterLockOrigin work current)
  | migrated {i work written outcome} :
      Turn (.migrate i) i (.adopting work written outcome) (.upserted work (some written) outcome)
  | ran {i work written outcome result} :
      Turn (.after i result) i (.upserted work written outcome)
        (afterAfter dispatcher work written outcome result)
  | marked {i work written outcome ran} :
      Turn (.mark i) i (.handled work written outcome ran) (.marked work written outcome ran)
  | ended {a i phase} : Turn a i phase .idle
  | unwound {a i phase row} : Turn a i phase (.unwinding row)

def Commits (a : Action n) : Prop :=
  ∃ i processedAt, a = .commit i processedAt

/-- A statement moves one session or none, and commits or leaves what is committed alone. -/
inductive Moved (s : State n) (a : Action n) (s' : State n) : Prop where
  | turn (i : Fin n) (p : Phase) :
      s'.sessions = Function.update s.sessions i p → Turn dispatcher a i (s.sessions i) p →
      ¬ Commits a → s'.cache = s.cache → s'.executions = s.executions → Moved s a s'
  | rest :
      s'.sessions = s.sessions → ¬ Commits a → s'.cache = s.cache →
      s'.executions = s.executions → Moved s a s'
  | commit (i : Fin n) (processedAt : Instant) (work : Work) (written : Option CacheRow)
      (outcome : CacheApplyOutcome) (ran : Bool) :
      a = .commit i processedAt → s.sessions i = .marked work written outcome ran →
      s'.sessions = Function.update s.sessions i .idle →
      s'.cache = writeBack s.cache written →
      s'.executions = s.executions ++
        [{ row := work.row, flow := work.flow, applied := outcome, afterRan := ran }] →
      Moved s a s'

variable {dispatcher} {s s' : State n} {a : Action n}

theorem moved_of_next (h : next dispatcher s a = some s') : Moved dispatcher s a s' := by
  have hturn : ∀ {i : Fin n} {p phase : Phase}, s.sessions i = phase →
      Turn dispatcher a i phase p → ¬ Commits a →
      s'.sessions = Function.update s.sessions i p → s'.cache = s.cache →
      s'.executions = s.executions → Moved dispatcher s a s' := by
    intro i p phase hphase hturn hno hsessions hcache hexec
    exact .turn i p hsessions (hphase ▸ hturn) hno hcache hexec
  cases a with
  | claim i dueAt held =>
      have hno : ¬ Commits (.claim i dueAt held) := by simp [Commits]
      simp only [next] at h
      split at h
      · rename_i hphase
        split at h
        · cases h
          exact hturn hphase .claimed hno rfl rfl rfl
        · cases h
          exact .rest rfl hno rfl rfl
      · cases h
  | before i result =>
      simp only [next] at h
      split at h
      · rename_i row hphase
        cases h
        exact hturn hphase .before (by simp [Commits]) rfl rfl rfl
      · cases h
  | upsert i now =>
      have hno : ¬ Commits (.upsert i now) := by simp [Commits]
      simp only [next] at h
      split at h
      · rename_i row flow hphase
        split at h
        · cases h
          exact hturn hphase .unwound hno rfl rfl rfl
        · split at h
          · cases h
          · cases h
            exact hturn hphase .upserted hno rfl rfl rfl
      · cases h
  | classify i =>
      simp only [next] at h
      split at h
      · rename_i work hphase
        cases h
        exact hturn hphase .classified (by simp [Commits]) rfl rfl rfl
      · cases h
  | lockOrigin i =>
      simp only [next] at h
      split at h
      · rename_i work hphase
        cases h
        exact hturn hphase .lockedOrigin (by simp [Commits]) rfl rfl rfl
      · cases h
  | migrate i =>
      simp only [next] at h
      split at h
      · rename_i work written outcome hphase
        cases h
        exact hturn hphase .migrated (by simp [Commits]) rfl rfl rfl
      · cases h
  | after i result =>
      simp only [next] at h
      split at h
      · rename_i work written outcome hphase
        cases h
        exact hturn hphase .ran (by simp [Commits]) rfl rfl rfl
      · cases h
  | mark i =>
      simp only [next] at h
      split at h
      · rename_i work written outcome ran hphase
        cases h
        exact hturn hphase .marked (by simp [Commits]) rfl rfl rfl
      · cases h
  | commit i processedAt =>
      simp only [next] at h
      split at h
      · rename_i work written outcome ran hphase
        cases h
        exact .commit i processedAt work written outcome ran rfl hphase rfl rfl rfl
      · cases h
  | fail i =>
      simp only [next] at h
      split at h
      · cases h
        exact hturn rfl .unwound (by simp [Commits]) rfl rfl rfl
      · cases h
  | recordFailure i failure backoff =>
      simp only [next] at h
      split at h
      · split at h
        · cases h
          exact hturn rfl .ended (by simp [Commits]) rfl rfl rfl
        · cases h
      · cases h
  | lose i =>
      cases h
      exact hturn rfl .ended (by simp [Commits]) rfl rfl rfl
  | recordOnFreshConnection failure backoff =>
      simp only [next] at h
      split at h
      · cases h
      · cases h
        exact .rest rfl (by simp [Commits]) rfl rfl
  | ingest insert now =>
      cases h
      exact .rest rfl (by simp [Commits]) rfl rfl
  | redrive replay held =>
      cases h
      exact .rest rfl (by simp [Commits]) rfl rfl

/-! ## Without pre-upsert handlers -/

/-- The record is on its way to the after-handler, or will advance nothing. -/
def Diligent (dispatcher : Dispatcher σ ω) : Phase → Prop
  | .idle | .claimed _ | .unwinding _ => True
  | .converging row flow =>
      flow = .proceed ∧ (dispatcher.router.handlerFor row.messageType).isSome = true
  | .skipped work | .migrating work | .adopting work _ _ | .upserted work _ _ =>
      work.flow = .proceed ∧ (dispatcher.router.handlerFor work.row.messageType).isSome = true
  | .handled _ _ outcome ran | .marked _ _ outcome ran => ran = true ∨ outcome = .ignored

theorem diligent_before (hbefore : ∀ t, dispatcher.router.beforeHandlerFor t = none)
    (row : ReceivedRow) (result : Except Error HandlerFlow) :
    Diligent dispatcher (afterBefore dispatcher row result) := by
  unfold afterBefore
  by_cases hroutes : dispatcher.router.routes row.messageType = true
  · rw [if_pos hroutes, hbefore]
    have hhandler : (dispatcher.router.handlerFor row.messageType).isSome = true := by
      simpa [MessageRouter.routes, hbefore] using hroutes
    exact ⟨rfl, hhandler⟩
  · rw [if_neg hroutes]
    trivial

theorem diligent_after {work : Work} {written : Option CacheRow} {outcome : CacheApplyOutcome}
    (h : Diligent dispatcher (.upserted work written outcome)) (result : Except Error Unit) :
    Diligent dispatcher (afterAfter dispatcher work written outcome result) := by
  rcases h with ⟨hflow, hhandler⟩
  rcases Option.isSome_iff_exists.1 hhandler with ⟨handler, hsome⟩
  unfold afterAfter
  by_cases hignored : outcome = .ignored
  · rw [if_neg (by simp [hignored])]
    exact Or.inr hignored
  · rw [if_pos ⟨hflow, hignored⟩, hsome]
    cases result with
    | ok u => exact Or.inl rfl
    | error error => trivial

theorem Turn.diligent (hbefore : ∀ t, dispatcher.router.beforeHandlerFor t = none) {i : Fin n}
    {phase phase' : Phase} (h : Turn dispatcher a i phase phase')
    (hphase : Diligent dispatcher phase) : Diligent dispatcher phase' := by
  cases h with
  | claimed => trivial
  | before => exact diligent_before hbefore _ _
  | upserted =>
      unfold afterUpsert
      split <;> exact hphase
  | classified =>
      unfold afterClassify
      split
      · exact hphase
      · trivial
      · exact hphase
  | lockedOrigin =>
      unfold afterLockOrigin
      split <;> exact hphase
  | migrated => exact hphase
  | ran => exact diligent_after hphase _
  | marked => exact hphase
  | ended => trivial
  | unwound => trivial

theorem Moved.diligent (hbefore : ∀ t, dispatcher.router.beforeHandlerFor t = none)
    (h : Moved dispatcher s a s') (hs : ∀ i, Diligent dispatcher (s.sessions i)) :
    ∀ i, Diligent dispatcher (s'.sessions i) := by
  have hupdate : ∀ {i : Fin n} {p : Phase}, Diligent dispatcher p →
      ∀ j, Diligent dispatcher (Function.update s.sessions i p j) := by
    intro i p hp j
    by_cases hj : j = i
    · subst hj
      rwa [Function.update_self]
    · rw [Function.update_of_ne hj]
      exact hs j
  cases h with
  | turn i p hsessions hturn =>
      rw [hsessions]
      exact hupdate (hturn.diligent hbefore (hs i))
  | rest hsessions =>
      rw [hsessions]
      exact hs
  | commit i processedAt work written outcome ran ha hphase hsessions =>
      rw [hsessions]
      exact hupdate (p := .idle) trivial

/-! ## Handlers that have run -/

theorem Turn.ranAfter {i : Fin n} {phase phase' : Phase} {work : Work}
    (h : Turn dispatcher a i phase phase') (hran : phase'.ranAfter = some work) :
    phase.ranAfter = some work ∨ ∃ result, a = .after i result := by
  cases h with
  | ran => exact Or.inr ⟨_, rfl⟩
  | @marked _ _ _ _ ran =>
      cases ran with
      | false => cases hran
      | true => exact Or.inl hran
  | before =>
      unfold afterBefore at hran
      split at hran
      · split at hran <;> cases hran
      · cases hran
  | upserted =>
      unfold afterUpsert at hran
      split at hran <;> cases hran
  | classified =>
      unfold afterClassify at hran
      split at hran <;> cases hran
  | lockedOrigin =>
      unfold afterLockOrigin at hran
      split at hran <;> cases hran
  | claimed => cases hran
  | migrated => cases hran
  | ended => cases hran
  | unwound => cases hran

theorem Moved.ranAfter (h : Moved dispatcher s a s') {i : Fin n} {work : Work}
    (hran : (s'.sessions i).ranAfter = some work) :
    (s.sessions i).ranAfter = some work ∨ justRan a s' = some (i, work) := by
  cases h with
  | turn j p hsessions hturn =>
      by_cases hi : i = j
      · subst hi
        have hp : p.ranAfter = some work := by rwa [hsessions, Function.update_self] at hran
        rcases hturn.ranAfter hp with hbefore | ⟨result, rfl⟩
        · exact Or.inl hbefore
        · exact Or.inr (by simp [justRan, hran])
      · rw [hsessions, Function.update_of_ne hi] at hran
        exact Or.inl hran
  | rest hsessions =>
      rw [hsessions] at hran
      exact Or.inl hran
  | commit j processedAt w written outcome ran ha hphase hsessions =>
      by_cases hi : i = j
      · subst hi
        rw [hsessions, Function.update_self] at hran
        cases hran
      · rw [hsessions, Function.update_of_ne hi] at hran
        exact Or.inl hran

theorem ranAfter_of_justRan {i : Fin n} {work : Work} (h : justRan a s = some (i, work)) :
    (s.sessions i).ranAfter = some work ∧ ¬ Commits a := by
  cases a with
  | after j result =>
      simp only [justRan, Option.map_eq_some_iff, Prod.mk.injEq] at h
      rcases h with ⟨w, hran, rfl, rfl⟩
      exact ⟨hran, by simp [Commits]⟩
  | _ => cases h

theorem cacheLock_of_ranAfter {phase : Phase} {work : Work} (h : phase.ranAfter = some work) :
    phase.cacheLock = some work.entity := by
  cases phase with
  | handled w written outcome ran =>
      cases ran with
      | false => cases h
      | true =>
          cases h
          rfl
  | marked w written outcome ran =>
      cases ran with
      | false => cases h
      | true =>
          cases h
          rfl
  | _ => cases h

end Turns

/-! ## What the cache apply leaves -/

theorem written_of_cacheApply {now : Timestamp} {entity declaredTopic : String}
    {row : ReceivedRow} {current written : Option CacheRow} {outcome : CacheApplyOutcome}
    (h : cacheApply now entity row declaredTopic current = .ok (written, outcome)) :
    (outcome = .ignored ∧ written = none) ∨
      outcome ≠ .ignored ∧ ∃ c, written = some c ∧ c.payload = row.payload := by
  unfold cacheApply at h
  split at h
  · rename_i c hguard
    cases h
    refine Or.inr ⟨by simp, c, rfl, ?_⟩
    unfold guardedUpsert at hguard
    split at hguard
    · cases hguard
      rfl
    · split at hguard
      · cases hguard
        rfl
      · cases hguard
  · split at h
    · cases h
      exact Or.inl ⟨rfl, rfl⟩
    · cases h
    · unfold migrateCacheOrigin at h
      split at h
      · cases h
        exact Or.inl ⟨rfl, rfl⟩
      · simp only [Except.ok.injEq] at h
        split at h
        · cases h
          exact Or.inl ⟨rfl, rfl⟩
        · cases h
          refine Or.inr ⟨?_, _, rfl, rfl⟩
          split <;> simp

/-! ## Announcements -/

section Announcements

variable {σ ω Q : Type} (dispatcher : Dispatcher σ ω) (producer : Producer Q) {n : Nat}

/-- The row a handler enqueues for a payload. -/
structure Derived (row : OutboxRow) (payload : Json) : Prop where
  pending : row.status = .pending
  written : ∃ entity,
    Written producer.message producer.descriptor row (producer.derive payload) entity

def sourcedBy (entity : String) (x : Announcement) : Bool :=
  match receivedEntityKey x.source with
  | .ok key => key == entity
  | .error _ => false

/-- The announcements of an entity's records, in the order of their commits. -/
def announcementsOf (entity : String) (announced : List Announcement) : List Announcement :=
  announced.filter (sourcedBy entity)

/-- The last announcement, against the cache row. -/
def Announces : Option CacheRow → Option Announcement → Prop
  | none, none => True
  | some c, some x => Derived producer x.row c.payload
  | _, _ => False

variable {dispatcher producer}

theorem sourcedBy_iff {entity : String} {x : Announcement} :
    sourcedBy entity x = true ↔
      receivedEntityKey x.source = .ok entity := by
  unfold sourcedBy
  split
  · rename_i key hkey
    simp [hkey]
  · rename_i error herror
    simp [herror]

theorem mem_announcementsOf {entity : String} {announced : List Announcement}
    {x : Announcement} :
    x ∈ announcementsOf entity announced ↔
      x ∈ announced ∧ receivedEntityKey x.source = .ok entity := by
  rw [announcementsOf, List.mem_filter, sourcedBy_iff]

theorem announcementsOf_append {entity key : String} {announced : List Announcement}
    {x : Announcement} (hkey : receivedEntityKey x.source = .ok key) :
    announcementsOf entity (announced ++ [x]) =
      announcementsOf entity announced ++ if entity = key then [x] else [] := by
  unfold announcementsOf
  rw [List.filter_append]
  by_cases he : entity = key
  · rw [if_pos he, List.filter_cons_of_pos (sourcedBy_iff.2 (he ▸ hkey)), List.filter_nil]
  · have hno : ¬ sourcedBy entity x = true := fun h =>
      he (Except.ok.inj ((sourcedBy_iff.1 h).symm.trans hkey))
    rw [if_neg he, List.filter_cons_of_neg hno, List.filter_nil]

theorem announce_spec {a : AnnounceAction n} {work : Work} {sequence : Nat} {row : OutboxRow}
    (h : announce producer a work sequence = some row) :
    Derived producer row work.row.payload ∧ row.enqueueOrder = sequence := by
  unfold announce at h
  split at h
  · cases h
  · rename_i insert hinsert
    split at h
    · rename_i hkey
      cases h
      rcases Option.isSome_iff_exists.1 hkey with ⟨key, hkey⟩
      refine ⟨⟨?_, insert.entityKey, ?_⟩, ?_⟩
      · simp [InsertOutboxRow.inserted, hkey, InsertOutboxRow.row]
      · exact written_inserted (preparedInsert_of_prepareInsert hinsert) a.now sequence
      · simp [InsertOutboxRow.inserted, hkey, InsertOutboxRow.row]
    · cases h

theorem announced_of_next {s s' : AnnounceState n} {a : AnnounceAction n}
    (h : nextAnnounce dispatcher producer s a = some s') :
    next dispatcher s.base a.base = some s'.base ∧
      ((∃ i work row, justRan a.base s'.base = some (i, work) ∧
          announce producer a work s.sequence = some row ∧ s'.sequence = s.sequence + 1 ∧
          s'.pending = Function.update s.pending i (some row) ∧ s'.announced = s.announced) ∨
        justRan a.base s'.base = none ∧ s'.sequence = s.sequence + a.drawn ∧
          s'.pending = stillPending s'.base s.pending ∧
          s'.announced = s.announced ++ committedBy s a.base) := by
  unfold nextAnnounce at h
  rcases Option.bind_eq_some_iff.1 h with ⟨base, hbase, h⟩
  split at h
  · rename_i i work hran
    rcases Option.map_eq_some_iff.1 h with ⟨row, hrow, rfl⟩
    exact ⟨hbase, Or.inl ⟨i, work, row, hran, hrow, rfl, rfl, rfl⟩⟩
  · rename_i hran
    cases h
    exact ⟨hbase, Or.inr ⟨hran, rfl, rfl, rfl⟩⟩

/-- A row an open transaction has inserted: newer than all that is committed of its entity. -/
structure Pending (dispatcher : Dispatcher σ ω) (producer : Producer Q) (work : Work)
    (sequence : Nat) (announced : List Announcement) (row : OutboxRow) : Prop where
  derived : Derived producer row work.row.payload
  drawn : row.enqueueOrder < sequence
  newer : ∀ x ∈ announcementsOf work.entity announced,
    x.row.enqueueOrder < row.enqueueOrder

/-- What is pending is newer than what is committed of its entity, and what is committed follows the
cache. -/
structure Announcing (dispatcher : Dispatcher σ ω) (producer : Producer Q)
    (s : AnnounceState n) : Prop where
  locking : Locking dispatcher s.base
  diligent : ∀ i, Diligent dispatcher (s.base.sessions i)
  drawn : ∀ x ∈ s.announced, x.row.enqueueOrder < s.sequence
  inserted : ∀ i work, (s.base.sessions i).ranAfter = some work → ∃ row,
    s.pending i = some row ∧
      Pending dispatcher producer work s.sequence s.announced row
  increasing : ∀ entity, (announcementsOf entity s.announced).Pairwise
    fun x y => x.row.enqueueOrder < y.row.enqueueOrder
  current : ∀ entity, Announces producer (s.base.cache.lookup entity)
    (announcementsOf entity s.announced).getLast?
  handled : s.announced.map Announcement.source =
    (s.base.executions.filter Execution.afterRan).map Execution.row

theorem announcing_initial {s : AnnounceState n}
    (h : (announceSystem dispatcher producer n).init s) : Announcing dispatcher producer s := by
  rcases h with ⟨⟨hcache, hidle, hexec⟩, hannounced, _⟩
  refine
    { locking := reachable_locking (.start ⟨hcache, hidle, hexec⟩)
      diligent := fun i => by
        rw [hidle i]
        trivial
      drawn := by simp [hannounced]
      inserted := fun i work hran => by
        rw [hidle i] at hran
        cases hran
      increasing := by simp [hannounced, announcementsOf]
      current := ?_
      handled := by simp [hannounced, hexec] }
  intro entity
  rw [hcache, hannounced]
  trivial

/-- The handler runs: an ordinal above everything drawn, and nothing committed. -/
theorem Announcing.ran {s s' : AnnounceState n} {a : AnnounceAction n} {i : Fin n}
    {work : Work} {row : OutboxRow} (h : Announcing dispatcher producer s)
    (hlocking : Locking dispatcher s'.base)
    (hdiligent : ∀ i, Diligent dispatcher (s'.base.sessions i))
    (hmoved : Moved dispatcher s.base a.base s'.base)
    (hran : justRan a.base s'.base = some (i, work))
    (hrow : announce producer a work s.sequence = some row)
    (hsequence : s'.sequence = s.sequence + 1)
    (hpending : s'.pending = Function.update s.pending i (some row))
    (hannounced : s'.announced = s.announced) : Announcing dispatcher producer s' := by
  rcases announce_spec hrow with ⟨hderived, horder⟩
  rcases ranAfter_of_justRan hran with ⟨hself, hno⟩
  have hsame : s'.base.cache = s.base.cache ∧ s'.base.executions = s.base.executions := by
    cases hmoved with
    | turn _ _ _ _ _ hcache hexec => exact ⟨hcache, hexec⟩
    | rest _ _ hcache hexec => exact ⟨hcache, hexec⟩
    | commit j processedAt _ _ _ _ ha => exact absurd ⟨j, processedAt, ha⟩ hno
  refine
    { locking := hlocking
      diligent := hdiligent
      drawn := ?_
      inserted := ?_
      increasing := by rw [hannounced]; exact h.increasing
      current := by rw [hannounced, hsame.1]; exact h.current
      handled := by rw [hannounced, hsame.2]; exact h.handled }
  · intro x hx
    rw [hannounced] at hx
    have := h.drawn x hx
    omega
  · intro j work' hj
    by_cases hji : j = i
    · subst hji
      have hwork : work' = work := Option.some.inj (hj.symm.trans hself)
      subst hwork
      refine ⟨row, by rw [hpending, Function.update_self], hderived, by omega, ?_⟩
      intro x hx
      rw [hannounced] at hx
      have := h.drawn x (mem_announcementsOf.1 hx).1
      omega
    · have hbefore : (s.base.sessions j).ranAfter = some work' := by
        rcases hmoved.ranAfter hj with hbefore | hjust
        · exact hbefore
        · rw [hran] at hjust
          cases hjust
          exact absurd rfl hji
      rcases h.inserted j work' hbefore with ⟨row', hrow', hpend⟩
      refine ⟨row', by rw [hpending, Function.update_of_ne hji, hrow'], ?_⟩
      have := hpend.drawn
      exact
        { derived := hpend.derived
          drawn := by omega
          newer := by rw [hannounced]; exact hpend.newer }

/-- The row that a commit makes visible comes last of its entity, and follows the new cache row. -/
theorem Announcing.committed {s s' : AnnounceState n} {i : Fin n} {work : Work}
    {written : Option CacheRow} {outcome : CacheApplyOutcome} {row : OutboxRow}
    (h : Announcing dispatcher producer s)
    (hlocking : Locking dispatcher s'.base)
    (hdiligent : ∀ i, Diligent dispatcher (s'.base.sessions i))
    (hphase : s.base.sessions i = .marked work written outcome true)
    (hpend : Pending dispatcher producer work s.sequence s.announced row)
    (hsessions : s'.base.sessions = Function.update s.base.sessions i .idle)
    (hcache : s'.base.cache = writeBack s.base.cache written)
    (hexec : s'.base.executions = s.base.executions ++
      [{ row := work.row, flow := work.flow, applied := outcome, afterRan := true }])
    (hsequence : s.sequence ≤ s'.sequence)
    (hpending : s'.pending = stillPending s'.base s.pending)
    (hannounced : s'.announced = s.announced ++ [{ source := work.row, row := row }]) :
    Announcing dispatcher producer s' := by
  have hsound := h.locking.sound i
  rw [hphase] at hsound
  rcases hsound with ⟨hkey, happly, hran⟩
  have hof : ∀ entity, announcementsOf entity s'.announced =
      announcementsOf entity s.announced ++
        if entity = work.entity then [{ source := work.row, row := row }] else [] := by
    intro entity
    rw [hannounced, announcementsOf_append hkey]
  refine
    { locking := hlocking
      diligent := hdiligent
      drawn := ?_
      inserted := ?_
      increasing := ?_
      current := ?_
      handled := ?_ }
  · intro x hx
    rw [hannounced] at hx
    rcases List.mem_append.1 hx with hx | hx
    · exact (h.drawn x hx).trans_le hsequence
    · rw [List.mem_singleton.1 hx]
      exact hpend.drawn.trans_le hsequence
  · intro j work' hj
    -- The committer is idle now, and nobody else has the entity.
    have hji : j ≠ i := by
      rintro rfl
      rw [hsessions, Function.update_self] at hj
      cases hj
    have hbefore : (s.base.sessions j).ranAfter = some work' := by
      rwa [hsessions, Function.update_of_ne hji] at hj
    have hother : work'.entity ≠ work.entity := by
      intro he
      refine h.locking.exclusive i j work.entity hji.symm ?_
        (he ▸ cacheLock_of_ranAfter hbefore)
      rw [hphase]
      rfl
    rcases h.inserted j work' hbefore with ⟨row', hrow', hpend'⟩
    refine ⟨row', ?_, hpend'.derived, hpend'.drawn.trans_le hsequence, ?_⟩
    · rw [hpending, stillPending, hj, ← hrow']
      rfl
    · rw [hof, if_neg hother, List.append_nil]
      exact hpend'.newer
  · intro entity
    rw [hof]
    by_cases he : entity = work.entity
    · rw [if_pos he, List.pairwise_append]
      refine ⟨h.increasing entity, List.pairwise_singleton _ _, ?_⟩
      intro x hx y hy
      rw [List.mem_singleton.1 hy]
      exact hpend.newer x (he ▸ hx)
    · rw [if_neg he, List.append_nil]
      exact h.increasing entity
  · intro entity
    rw [hof, hcache, lookup_commit h.locking hphase]
    by_cases he : entity = work.entity
    · rcases written_of_cacheApply happly with ⟨hignored, _⟩ | ⟨_, c, rfl, hpayload⟩
      · exact absurd hignored (hran rfl)
      · rw [if_pos he, if_pos he, List.getLast?_append]
        change Derived producer row c.payload
        rw [hpayload]
        exact hpend.derived
    · rw [if_neg he, if_neg he, List.append_nil]
      exact h.current entity
  · rw [hannounced, hexec, List.map_append, h.handled, List.filter_append, List.map_append]
    rfl

theorem Announcing.silent {s s' : AnnounceState n} (h : Announcing dispatcher producer s)
    (hlocking : Locking dispatcher s'.base)
    (hdiligent : ∀ i, Diligent dispatcher (s'.base.sessions i))
    (hran : ∀ i work, (s'.base.sessions i).ranAfter = some work →
      (s.base.sessions i).ranAfter = some work)
    (hcache : s'.base.cache = s.base.cache)
    (hexec : (s'.base.executions.filter Execution.afterRan) =
      s.base.executions.filter Execution.afterRan)
    (hsequence : s.sequence ≤ s'.sequence)
    (hpending : s'.pending = stillPending s'.base s.pending)
    (hannounced : s'.announced = s.announced) : Announcing dispatcher producer s' := by
  refine
    { locking := hlocking
      diligent := hdiligent
      drawn := ?_
      inserted := ?_
      increasing := by rw [hannounced]; exact h.increasing
      current := by rw [hannounced, hcache]; exact h.current
      handled := by rw [hannounced, hexec]; exact h.handled }
  · intro x hx
    rw [hannounced] at hx
    exact (h.drawn x hx).trans_le hsequence
  · intro i work hi
    rcases h.inserted i work (hran i work hi) with ⟨row, hrow, hpend⟩
    refine ⟨row, ?_, hpend.derived, hpend.drawn.trans_le hsequence, ?_⟩
    · rw [hpending, stillPending, hi, ← hrow]
      rfl
    · rw [hannounced]
      exact hpend.newer

theorem Announcing.step (hbefore : ∀ t, dispatcher.router.beforeHandlerFor t = none)
    {s s' : AnnounceState n} {a : AnnounceAction n} (h : Announcing dispatcher producer s)
    (hnext : nextAnnounce dispatcher producer s a = some s') :
    Announcing dispatcher producer s' := by
  rcases announced_of_next hnext with ⟨hbase, hcases⟩
  have hmoved := moved_of_next hbase
  have hlocking := h.locking.step (step_of_next hbase)
  have hdiligent := hmoved.diligent hbefore h.diligent
  rcases hcases with ⟨i, work, row, hran, hrow, hsequence, hpending, hannounced⟩ |
    ⟨hnone, hsequence, hpending, hannounced⟩
  · exact h.ran hlocking hdiligent hmoved hran hrow hsequence hpending hannounced
  have hle : s.sequence ≤ s'.sequence := by omega
  have hkept : ∀ i work, (s'.base.sessions i).ranAfter = some work →
      (s.base.sessions i).ranAfter = some work := by
    intro i work hi
    refine (hmoved.ranAfter hi).resolve_right ?_
    rw [hnone]
    exact nofun
  have hquiet : ¬ Commits a.base → s'.announced = s.announced := by
    intro hno
    rw [hannounced]
    cases ha : a.base with
    | commit i processedAt => exact absurd ⟨i, processedAt, ha⟩ hno
    | _ => exact List.append_nil _
  cases hmoved with
  | turn i p hsessions hturn hno hcache hexec =>
      exact h.silent hlocking hdiligent hkept hcache (by rw [hexec]) hle hpending (hquiet hno)
  | rest hsessions hno hcache hexec =>
      exact h.silent hlocking hdiligent hkept hcache (by rw [hexec]) hle hpending (hquiet hno)
  | commit i processedAt work written outcome ran ha hphase hsessions hcache hexec =>
      rw [ha, committedBy, hphase] at hannounced
      cases ran with
      | true =>
          rcases h.inserted i work (by rw [hphase]; rfl) with ⟨row, hrow, hpend⟩
          rw [hrow] at hannounced
          exact h.committed hlocking hdiligent hphase hpend hsessions hcache hexec hle hpending
            hannounced
      | false =>
          -- The handler has not run, so the record was ignored and the cache is as it was.
          have hignored : outcome = .ignored := by
            have hdone := h.diligent i
            rw [hphase] at hdone
            exact hdone.resolve_left (by simp)
          have hnothing : written = none := by
            have hsound := h.locking.sound i
            rw [hphase] at hsound
            rcases written_of_cacheApply hsound.2.1 with ⟨_, hnothing⟩ | ⟨hnot, _⟩
            · exact hnothing
            · exact absurd hignored hnot
          refine h.silent hlocking hdiligent hkept ?_ ?_ hle hpending ?_
          · rw [hcache, hnothing]
            rfl
          · rw [hexec, List.filter_append]
            exact List.append_nil _
          · rw [hannounced]
            exact List.append_nil _

theorem announcing_of_reachable (hbefore : ∀ t, dispatcher.router.beforeHandlerFor t = none)
    {s : AnnounceState n} (h : (announceSystem dispatcher producer n).Reachable s) :
    Announcing dispatcher producer s := by
  refine TransitionSystem.Reachable.invariant ?_ ?_ h
  · intro s h0
    exact announcing_initial h0
  · intro s a s' hs hnext
    exact hs.step hbefore hnext

end Announcements

/-- **Announcements follow the cache**: dispatchers whose after-handlers enqueue what they derive
announce each committed handler run once; the announcements of an entity have increasing ordinals in
the order of their commits, and the last one is derived from the entity's cache row. -/
theorem announced_is_cached {σ ω Q : Type} (dispatcher : Dispatcher σ ω) (producer : Producer Q)
    (n : Nat) (hbefore : ∀ t, dispatcher.router.beforeHandlerFor t = none) {s : AnnounceState n}
    (h : (announceSystem dispatcher producer n).Reachable s) :
    s.announced.map Announcement.source =
        (s.base.executions.filter Execution.afterRan).map Execution.row ∧
      ∀ entity,
        (announcementsOf entity s.announced).Pairwise
            (fun x y => x.row.enqueueOrder < y.row.enqueueOrder) ∧
          Announces producer (s.base.cache.lookup entity)
            (announcementsOf entity s.announced).getLast? := by
  have hannouncing := announcing_of_reachable hbefore h
  exact ⟨hannouncing.handled, fun entity =>
    ⟨hannouncing.increasing entity, hannouncing.current entity⟩⟩

namespace Announcer

/-- Announces entity `a`, with the text as its state. -/
def producer : Producer Snapshot :=
  { message := Snapshot.message
    descriptor := Snapshot.descriptor
    derive := fun
      | .string text => { entity := "a", state := text }
      | _ => { entity := "a", state := "" } }

/-- A statement; an enqueue in it is given message `k`. -/
def statement (k : Nat) (a : Action 2) : AnnounceAction 2 :=
  { base := a
    stamp := { Snapshot.envelope k { entity := "", state := "" } with payload := () }
    trace := none
    now := 5
    drawn := 0 }

def initial : AnnounceState 2 :=
  { base := noDispatch
    sequence := 0
    pending := fun _ => none
    announced := [] }

/-- The rest of a dispatch whose handler runs. -/
def finishing (i : Fin 2) : List (Action 2) :=
  [.upsert i 5, .after i (.ok ()), .mark i, .commit i 5]

/-- Dispatcher `i` is lost with the first record after its handler has run; dispatcher `j` goes
ahead with the second record, and the first is then too old. -/
def overtaken (i j : Fin 2) : List (Action 2) :=
  [.ingest (Counting.insert "texts" 1) 0, .ingest (Counting.insert "texts" 2) 1,
    .claim i 5 (fun _ => false), .claim j 5 (fun _ => false),
    .before i (.ok .proceed), .before j (.ok .proceed),
    .upsert i 5, .after i (.ok ()), .lose i] ++ finishing j ++
  [.claim i 5 (fun _ => false), .before i (.ok .proceed), .upsert i 5, .classify i,
    .after i (.ok ()), .mark i, .commit i 5,
    .ingest (Counting.insert "texts" 3) 2, .claim i 5 (fun _ => false),
    .before i (.ok .proceed)] ++ finishing i

end Announcer

open Announcer in
/-- Three records are processed and two announced, at ordinals 1 and 2. -/
theorem announced_is_cached_overtaken :
    ∃ s, (announceSystem Counting.dispatcher producer 2).Reachable s ∧
      s.base.executions.map (fun x => x.row.sourceOffset) = [2, 1, 3] ∧
      s.announced.map (fun x => (x.source.sourceOffset, x.row.enqueueOrder)) = [(2, 1), (3, 2)] ∧
      s.announced.map Announcement.source =
        (s.base.executions.filter Execution.afterRan).map Execution.row ∧
      Announces producer (s.base.cache.lookup "a")
        (announcementsOf "a" s.announced).getLast? := by
  have hstart : (announceSystem Counting.dispatcher producer 2).Reachable initial :=
    .start ⟨⟨rfl, fun _ => rfl, rfl⟩, rfl, fun _ => rfl⟩
  obtain ⟨s, hreach, hexec, hannounced⟩ := TransitionSystem.exists_reachable_of_run
    (Q := fun s => s.base.executions.map (fun x => x.row.sourceOffset) = [2, 1, 3] ∧
      s.announced.map (fun x => (x.source.sourceOffset, x.row.enqueueOrder)) = [(2, 1), (3, 2)])
    hstart ((overtaken 0 1).mapIdx statement) (by decide +kernel)
  have hcached := announced_is_cached Counting.dispatcher producer 2 (fun _ => rfl) hreach
  exact ⟨s, hreach, hexec, hannounced, hcached.1, (hcached.2 "a").2⟩

end Concurrent
end Dispatch
end Kafkaman
