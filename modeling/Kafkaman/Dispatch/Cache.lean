import Kafkaman.Broker.Record
import Kafkaman.Core.Error
import Kafkaman.Core.Rows
import Kafkaman.Lib.Fallible
import Kafkaman.Lib.Register
import Kafkaman.Lib.Table
import Mathlib.Data.Prod.Lex

/-!
# Dispatch.Cache — the guarded cache upsert and what a skipped one means

Each statement of the source is a function on the entity's cache row: `guardedUpsert`,
`classifySkippedCacheApply` and `migrateCacheOrigin`.  `upsertCacheFromReceived` runs them on the
relation, asking before each whether the statement goes through.

* `Origin` — what a cache row took over from a record: its payload and its position;
* `Placed` — a record on the declared topic or on the retired one, on its entity's partition;
* `cacheApply_placed` — for placed records the whole procedure is one register keeping the record
  of greatest position, the declared topic counting as later.
-/

namespace Kafkaman
namespace Dispatch

open Lib

abbrev CacheTable : Type := Table CacheRow.entityKey

inductive CacheApplyOutcome
  | applied
  | ignored
  | migrated
  deriving DecidableEq, Repr

/-- The awaits of a dispatch cycle. -/
inductive Point
  | beginClaim
  | claim
  | savepoint
  | upsert
  | classify
  | lockOrigin
  | migrate
  | markProcessed
  | commit
  | rollbackToSavepoint
  | recordFailure
  | commitFailure
  | acquire
  deriving DecidableEq

/-- `received_entity_key`: the column, else the record key. -/
def receivedEntityKey (row : ReceivedRow) : Except Error String :=
  match row.entityKey with
  | some entity => .ok entity
  | none =>
      match row.key with
      | some key =>
          match Utf8.fromUtf8 key with
          | some entity => .ok entity
          | none => .error (.invalidEntityKey row.messageType)
      | none => .error (.missingEntityKey row.messageId row.messageType)

section Statements

variable (now : Timestamp) (entity : String) (row : ReceivedRow)

/-- `INSERT … ON CONFLICT DO UPDATE … WHERE … RETURNING`: the row written, if one is. -/
def guardedUpsert : Option CacheRow → Option CacheRow
  | none =>
      some
        { entityKey := entity
          payload := row.payload
          appliedTopic := row.sourceTopic
          appliedPartition := row.sourcePartition
          appliedOffset := row.sourceOffset
          deleted := false
          updatedAt := now }
  | some current =>
      -- Offsets are compared within one partition of one topic only; `deleted` is not in the `SET`.
      if current.appliedTopic = row.sourceTopic ∧
          current.appliedPartition = row.sourcePartition ∧
          current.appliedOffset < row.sourceOffset then
        some
          { current with
            payload := row.payload
            appliedTopic := row.sourceTopic
            appliedPartition := row.sourcePartition
            appliedOffset := row.sourceOffset
            updatedAt := now }
      else
        none

/-- What an upsert that wrote nothing meant. -/
inductive Skipped where
  | ignored
  | mismatch (error : Error)
  | migrate

def classifySkippedCacheApply (declaredTopic : String) : Option CacheRow → Skipped
  | none => .ignored
  | some current =>
      let mismatch := Error.cacheOriginMismatch entity current.appliedTopic
        current.appliedPartition row.sourceTopic row.sourcePartition
      if current.appliedTopic = row.sourceTopic ∧
          current.appliedPartition = row.sourcePartition then .ignored
      -- The same topic in another partition: the two offsets cannot be compared.
      else if current.appliedTopic = row.sourceTopic then .mismatch mismatch
      -- Two topics: the declared one wins, whichever of the two the cache has.
      else if row.sourceTopic = declaredTopic then .migrate
      else if current.appliedTopic = declaredTopic then .ignored
      else .mismatch mismatch

/-- Adopt a new origin under the row lock; the row written, if one is, and the outcome. -/
def migrateCacheOrigin : Option CacheRow → Option CacheRow × CacheApplyOutcome
  | none => (none, .ignored)
  | some locked =>
      let sameOrigin : Bool :=
        locked.appliedTopic = row.sourceTopic && locked.appliedPartition = row.sourcePartition
      -- Another dispatcher may have migrated the row since it was classified.
      if sameOrigin && row.sourceOffset ≤ locked.appliedOffset then
        (none, .ignored)
      else
        (some
          { locked with
            payload := row.payload
            appliedTopic := row.sourceTopic
            appliedPartition := row.sourcePartition
            appliedOffset := row.sourceOffset
            deleted := false
            updatedAt := now },
          if sameOrigin then .applied else .migrated)

/-- The procedure on the entity's row, when every statement goes through. -/
def cacheApply (declaredTopic : String) (current : Option CacheRow) :
    Except Error (Option CacheRow × CacheApplyOutcome) :=
  match guardedUpsert now entity row current with
  | some written => .ok (some written, .applied)
  | none =>
      match classifySkippedCacheApply entity row declaredTopic current with
      | .ignored => .ok (none, .ignored)
      | .mismatch error => .error error
      | .migrate => .ok (migrateCacheOrigin now row current)

end Statements

/-- `upsert_cache_from_received`; `reach` fails where a statement does. -/
def upsertCacheFromReceived (declaredTopic : String) (now : Timestamp)
    (reach : Point → Except Error Unit) (row : ReceivedRow) (cache : CacheTable) :
    Except Error (CacheTable × CacheApplyOutcome) := do
  let entity ← receivedEntityKey row
  reach .upsert
  match guardedUpsert now entity row (cache.lookup entity) with
  | some written => return (cache.put written, .applied)
  | none =>
      reach .classify
      match classifySkippedCacheApply entity row declaredTopic (cache.lookup entity) with
      | .ignored => return (cache, .ignored)
      | .mismatch error => throw error
      | .migrate =>
          reach .lockOrigin
          match migrateCacheOrigin now row (cache.lookup entity) with
          | (none, outcome) => return (cache, outcome)
          | (some written, outcome) =>
              reach .migrate
              return (cache.put written, outcome)

/-! ## The procedure on the relation -/

section Upsert

variable {declaredTopic : String} {now : Timestamp}
  {reach : Point → Except Error Unit} {row : ReceivedRow} {cache cache' : CacheTable}
  {outcome : CacheApplyOutcome}

/-- The relation after a write to one entity's row, or after none. -/
def writeBack (cache : CacheTable) : Option CacheRow → CacheTable
  | none => cache
  | some written => cache.put written

theorem cacheApply_of_upsert
    (h : upsertCacheFromReceived declaredTopic now reach row cache =
      .ok (cache', outcome)) :
    ∃ entity written, receivedEntityKey row = .ok entity ∧
      cacheApply now entity row declaredTopic (cache.lookup entity) = .ok (written, outcome) ∧
      cache' = writeBack cache written := by
  unfold upsertCacheFromReceived at h
  -- The statements one after the other, each of which may have failed.
  rcases bind_eq_ok.1 h with ⟨entity, hentity, h⟩
  rcases bind_eq_ok.1 h with ⟨_, _, h⟩
  refine ⟨entity, ?_⟩
  split at h
  · rename_i written hguard
    cases pure_eq_ok.1 h
    exact ⟨some written, hentity, by simp [cacheApply, hguard], rfl⟩
  · rename_i hguard
    rcases bind_eq_ok.1 h with ⟨_, _, h⟩
    split at h
    · rename_i hskipped
      cases pure_eq_ok.1 h
      exact ⟨none, hentity, by simp [cacheApply, hguard, hskipped], rfl⟩
    · exact (throw_eq_ok.1 h).elim
    · rename_i hskipped
      rcases bind_eq_ok.1 h with ⟨_, _, h⟩
      split at h
      · rename_i hmigrate
        cases pure_eq_ok.1 h
        exact ⟨none, hentity, by simp [cacheApply, hguard, hskipped, hmigrate], rfl⟩
      · rename_i written _ hmigrate
        rcases bind_eq_ok.1 h with ⟨_, _, h⟩
        cases pure_eq_ok.1 h
        exact ⟨some written, hentity, by simp [cacheApply, hguard, hskipped, hmigrate], rfl⟩

theorem entityKey_of_cacheApply {entity : String} {current written : Option CacheRow}
    (hkey : ∀ c, current = some c → c.entityKey = entity)
    (h : cacheApply now entity row declaredTopic current = .ok (written, outcome)) :
    ∀ c, written = some c → c.entityKey = entity := by
  intro c hc
  subst hc
  cases current with
  | none =>
      simp only [cacheApply, guardedUpsert, Except.ok.injEq, Prod.mk.injEq,
        Option.some.injEq] at h
      rw [← h.1]
  | some current =>
      have hentity := hkey current rfl
      simp only [cacheApply, guardedUpsert] at h
      split at h
      · rename_i written' hguard
        split at hguard
        · simp only [Option.some.injEq] at hguard
          simp only [Except.ok.injEq, Prod.mk.injEq, Option.some.injEq] at h
          rw [← h.1, ← hguard]
          exact hentity
        · cases hguard
      · split at h
        · cases h
        · cases h
        · simp only [migrateCacheOrigin, Except.ok.injEq] at h
          split at h
          · cases h
          · simp only [Prod.mk.injEq, Option.some.injEq] at h
            rw [← h.1]
            exact hentity

theorem lookup_writeBack {entity : String} {written : Option CacheRow}
    (hkey : ∀ c, written = some c → c.entityKey = entity) (other : String) :
    (writeBack cache written).lookup other =
      if other = entity then written <|> cache.lookup entity else cache.lookup other := by
  cases written with
  | none =>
      by_cases h : other = entity
      · simp [writeBack, h]
      · simp [writeBack, h]
  | some c =>
      have hc := hkey c rfl
      simp only [writeBack, Table.lookup_put, hc]
      rfl

end Upsert

/-! ## One register per entity -/

/-- What a cache row takes over from a record. -/
structure Origin where
  payload : Json
  topic : String
  partition : Int
  offset : Int

def cacheOrigin (row : CacheRow) : Origin :=
  { payload := row.payload
    topic := row.appliedTopic
    partition := row.appliedPartition
    offset := row.appliedOffset }

def rowOrigin (row : ReceivedRow) : Origin :=
  { payload := row.payload
    topic := row.sourceTopic
    partition := row.sourcePartition
    offset := row.sourceOffset }

/-- Positions of one entity: the retired topic before the declared one, then by offset. -/
def position (declaredTopic : String) (origin : Origin) : Bool ×ₗ Int :=
  toLex (decide (origin.topic = declaredTopic), origin.offset)

/-- On the declared or the retired topic, and there on its entity's partition. -/
structure Placed (declaredTopic retiredTopic : String) (place : String → String → Int)
    (entity : String) (origin : Origin) : Prop where
  topic : origin.topic = declaredTopic ∨ origin.topic = retiredTopic
  partition : origin.partition = place entity origin.topic

theorem position_lt_iff {declaredTopic : String} {a b : Origin} :
    position declaredTopic a < position declaredTopic b ↔
      (a.topic ≠ declaredTopic ∧ b.topic = declaredTopic) ∨
        ((a.topic = declaredTopic ↔ b.topic = declaredTopic) ∧ a.offset < b.offset) := by
  unfold position
  rw [Prod.Lex.toLex_lt_toLex]
  by_cases ha : a.topic = declaredTopic <;> by_cases hb : b.topic = declaredTopic <;>
    simp [ha, hb]

section Register

variable {declaredTopic retiredTopic entity : String} {place : String → String → Int}
  {now : Timestamp} {row : ReceivedRow} {current : Option CacheRow}

/-- The cache row with a record's origin in place of its own. -/
def adopt (now : Timestamp) (row : ReceivedRow) (deleted : Bool) (c : CacheRow) : CacheRow :=
  { c with
    payload := row.payload
    appliedTopic := row.sourceTopic
    appliedPartition := row.sourcePartition
    appliedOffset := row.sourceOffset
    deleted := deleted
    updatedAt := now }

/-- One topic-partition: the offset guard decides. -/
theorem cacheApply_sameOrigin {c : CacheRow} (htopic : c.appliedTopic = row.sourceTopic)
    (hpartition : c.appliedPartition = row.sourcePartition) :
    cacheApply now entity row declaredTopic (some c) =
      if c.appliedOffset < row.sourceOffset then .ok (some (adopt now row c.deleted c), .applied)
      else .ok (none, .ignored) := by
  by_cases hoffset : c.appliedOffset < row.sourceOffset
  · simp [cacheApply, guardedUpsert, adopt, htopic, hpartition, hoffset]
  · simp [cacheApply, guardedUpsert, classifySkippedCacheApply, htopic, hpartition, hoffset]

theorem cacheApply_migrates {c : CacheRow} (hcache : c.appliedTopic ≠ declaredTopic)
    (hrow : row.sourceTopic = declaredTopic) :
    cacheApply now entity row declaredTopic (some c) =
      .ok (some (adopt now row false c), .migrated) := by
  simp [cacheApply, guardedUpsert, classifySkippedCacheApply, migrateCacheOrigin, adopt, hrow,
    hcache]

/-- A straggler: the cache row is on the declared topic, the record is not. -/
theorem cacheApply_straggler {c : CacheRow} (hcache : c.appliedTopic = declaredTopic)
    (hrow : row.sourceTopic ≠ declaredTopic) :
    cacheApply now entity row declaredTopic (some c) = .ok (none, .ignored) := by
  simp [cacheApply, guardedUpsert, classifySkippedCacheApply, hrow, hrow.symm, hcache]

theorem cacheApply_some_placed (now : Timestamp) {c : CacheRow}
    (hc : Placed declaredTopic retiredTopic place entity (cacheOrigin c))
    (hrow : Placed declaredTopic retiredTopic place entity (rowOrigin row)) :
    (position declaredTopic (cacheOrigin c) < position declaredTopic (rowOrigin row) ∧
      ∃ deleted outcome, outcome ≠ .ignored ∧
        cacheApply now entity row declaredTopic (some c) =
          .ok (some (adopt now row deleted c), outcome)) ∨
    (¬ position declaredTopic (cacheOrigin c) < position declaredTopic (rowOrigin row) ∧
      cacheApply now entity row declaredTopic (some c) = .ok (none, .ignored)) := by
  rw [position_lt_iff]
  by_cases htopic : c.appliedTopic = row.sourceTopic
  -- One topic: the entity has one partition there, so offsets decide.
  · have hpartition : c.appliedPartition = row.sourcePartition := by
      have h₁ : c.appliedPartition = place entity c.appliedTopic := hc.partition
      have h₂ : row.sourcePartition = place entity row.sourceTopic := hrow.partition
      rw [h₁, h₂, htopic]
    rw [cacheApply_sameOrigin htopic hpartition]
    by_cases hoffset : c.appliedOffset < row.sourceOffset
    · refine Or.inl ⟨Or.inr ⟨by simp [cacheOrigin, rowOrigin, htopic], hoffset⟩, ?_⟩
      exact ⟨c.deleted, .applied, by simp, by simp [hoffset]⟩
    · refine Or.inr ⟨?_, by simp [hoffset]⟩
      simp [cacheOrigin, rowOrigin, htopic, hoffset]
  · by_cases hdeclared : row.sourceTopic = declaredTopic
    · have hretired : c.appliedTopic ≠ declaredTopic := fun h => htopic (h.trans hdeclared.symm)
      refine Or.inl ⟨Or.inl ⟨hretired, hdeclared⟩, ?_⟩
      exact ⟨false, .migrated, by simp, cacheApply_migrates hretired hdeclared⟩
    -- Two topics and the record is not on the declared one, so the cache row is.
    · have hcache : c.appliedTopic = declaredTopic := by
        rcases hc.topic with h | h
        · exact h
        · rcases hrow.topic with h' | h'
          · exact absurd h' hdeclared
          · exact absurd (h.trans h'.symm) htopic
      refine Or.inr ⟨?_, cacheApply_straggler hcache hdeclared⟩
      simp [cacheOrigin, rowOrigin, hcache, hdeclared]

/-- For placed records the upsert, the classification and the migration together never fail, and
are one register over positions. -/
theorem cacheApply_placed (now : Timestamp)
    (hcurrent : ∀ c, current = some c →
      Placed declaredTopic retiredTopic place entity (cacheOrigin c))
    (hrow : Placed declaredTopic retiredTopic place entity (rowOrigin row)) :
    ∃ written outcome, cacheApply now entity row declaredTopic current = .ok (written, outcome) ∧
      (written <|> current).map cacheOrigin =
        absorb (position declaredTopic) (current.map cacheOrigin) (rowOrigin row) ∧
      (outcome = .ignored ↔
        ∃ c, current = some c ∧
          ¬ position declaredTopic (cacheOrigin c) < position declaredTopic (rowOrigin row)) := by
  cases current with
  | none =>
      exact ⟨_, _, rfl, rfl, by simp⟩
  | some c =>
      rcases cacheApply_some_placed now (hcurrent c rfl) hrow with
        ⟨hlt, deleted, outcome, hne, happly⟩ | ⟨hnlt, happly⟩
      · refine ⟨_, _, happly, ?_, ?_⟩
        · simp only [absorb, Option.map_some, hlt, if_true]
          rfl
        · simp [hlt, hne]
      · refine ⟨_, _, happly, ?_, ?_⟩
        · simp only [absorb, Option.map_some, hnlt, if_false]
          rfl
        · simp only [true_iff]
          exact ⟨c, rfl, hnlt⟩

end Register

end Dispatch
end Kafkaman
