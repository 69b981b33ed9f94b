import Kafkaman.Core.Error
import Kafkaman.Lib.Fallible
import Kafkaman.Lib.Numbering
import Kafkaman.Outbox.InFlight
import Kafkaman.Outbox.Progress
import Mathlib.Data.Prod.Lex
import Mathlib.Data.Set.Function

/-!
# Outbox.Upgrade — an outbox from before `enqueue_order`

The first template of an outbox had no `enqueue_order`; rows were told apart by `created_at` and
`message_id`.  `addOutboxEnqueueOrder` is the block of `add_outbox_enqueue_order_sql`, statement by
statement: the column is added, the rows there are numbered, the sequence is moved behind them, and
only then becomes the column's default.

* `addOutboxEnqueueOrder_eq_ok` — when the block succeeds, and the catalog it leaves;
* `Preserves`, `preserves_numbered` — what becomes of the rows;
* `upcoming_startSequence` — where the sequence stands, on an empty table too;
* `numbersOnward_numbered` — what rows inserted later are numbered;
* `PrefersLast`, `Preserves.prefersLast` — which of the old rows a claim takes.

`LOCK TABLE` keeps other transactions out, so that the block is one step.  An error in it undoes all
of it.
-/

namespace Kafkaman

/-- A row of an outbox table of the first template. -/
structure LegacyOutboxRow where
  messageId : Uuid
  idempotencyKey : Option IdempotencyKey
  idempotencySource : Option Json
  status : OutboxStatus
  attempts : Nat
  nextAttemptAt : Timestamp
  lastError : Option String
  claimId : Option Uuid
  claimedBy : Option String
  claimExpiresAt : Option Timestamp
  topic : String
  partitionKey : Option String
  entityKey : Option String
  correlationId : Uuid
  causationId : Option Uuid
  trace : Option TraceContext
  headers : HeaderMap
  payload : Json
  occurredAt : Timestamp
  createdAt : Timestamp
  publishedAt : Option Timestamp

/-- The row with a value in the new column. -/
def LegacyOutboxRow.ordered (row : LegacyOutboxRow) (enqueueOrder : Nat) : OutboxRow :=
  { messageId := row.messageId
    idempotencyKey := row.idempotencyKey
    idempotencySource := row.idempotencySource
    status := row.status
    attempts := row.attempts
    nextAttemptAt := row.nextAttemptAt
    lastError := row.lastError
    claimId := row.claimId
    claimedBy := row.claimedBy
    claimExpiresAt := row.claimExpiresAt
    topic := row.topic
    partitionKey := row.partitionKey
    entityKey := row.entityKey
    correlationId := row.correlationId
    causationId := row.causationId
    trace := row.trace
    headers := row.headers
    payload := row.payload
    occurredAt := row.occurredAt
    createdAt := row.createdAt
    publishedAt := row.publishedAt
    enqueueOrder := enqueueOrder }

/-- Every column but `enqueue_order`. -/
def OutboxRow.legacy (row : OutboxRow) : LegacyOutboxRow :=
  { messageId := row.messageId
    idempotencyKey := row.idempotencyKey
    idempotencySource := row.idempotencySource
    status := row.status
    attempts := row.attempts
    nextAttemptAt := row.nextAttemptAt
    lastError := row.lastError
    claimId := row.claimId
    claimedBy := row.claimedBy
    claimExpiresAt := row.claimExpiresAt
    topic := row.topic
    partitionKey := row.partitionKey
    entityKey := row.entityKey
    correlationId := row.correlationId
    causationId := row.causationId
    trace := row.trace
    headers := row.headers
    payload := row.payload
    occurredAt := row.occurredAt
    createdAt := row.createdAt
    publishedAt := row.publishedAt }

/-- `ORDER BY created_at, message_id`. -/
def LegacyOutboxRow.place (row : LegacyOutboxRow) : Timestamp ×ₗ Nat :=
  toLex (row.createdAt, row.messageId.toNat)

def OutboxRow.place (row : OutboxRow) : Timestamp ×ₗ Nat :=
  row.legacy.place

namespace Outbox
namespace Upgrade

open Lib

/-! ## The block -/

abbrev LegacyTable : Type := Table LegacyOutboxRow.messageId

/-- A row while the new column still admits `NULL`. -/
structure WidenedRow where
  columns : LegacyOutboxRow
  enqueueOrder : Option Nat

def WidenedRow.messageId (row : WidenedRow) : Uuid :=
  row.columns.messageId

def WidenedRow.place (row : WidenedRow) : Timestamp ×ₗ Nat :=
  row.columns.place

abbrev WidenedTable : Type := Table WidenedRow.messageId

/-- `ALTER TABLE … ADD COLUMN enqueue_order BIGINT`. -/
def addColumn (t : LegacyTable) : WidenedTable :=
  t.alter (fun row => { columns := row, enqueueOrder := none }) fun _ => rfl

/-- `SELECT message_id, row_number() OVER (ORDER BY created_at, message_id) AS ordinal`. -/
def ranked (t : WidenedTable) : List (Uuid × Nat) :=
  (rowNumber WidenedRow.place t.rows).map fun row => (row.1.messageId, row.2)

/-- The `ordinal` of the ranked row that a target is joined with. -/
def ordinal (t : WidenedTable) (messageId : Uuid) : Option Nat :=
  ((ranked t).find? fun row => messageId = row.1).map Prod.snd

/-- `UPDATE … SET enqueue_order = ranked.ordinal FROM … WHERE target.message_id = …`. -/
def backfill (t : WidenedTable) : WidenedTable :=
  t.updateWhere (fun target => (ordinal t target.messageId).isSome)
    (fun target => { target with enqueueOrder := ordinal t target.messageId }) fun _ => rfl

/-- `COALESCE((SELECT max(enqueue_order) FROM …), 1)`; `max` passes over `NULL`. -/
def maxEnqueueOrder (t : WidenedTable) : Nat :=
  (t.rows.filterMap WidenedRow.enqueueOrder).max?.getD 1

def nullViolation : Error :=
  .sqlx "column contains null values"

def sequenceExists : Error :=
  .sqlx "relation already exists"

def indexMissing : Error :=
  .sqlx "index does not exist"

/-- `ALTER TABLE … ALTER COLUMN enqueue_order SET NOT NULL`. -/
def setNotNull (t : WidenedTable) : Except Error OutboxTable :=
  if t.rows.any fun row => row.enqueueOrder.isNone then
    .error nullViolation
  else
    .ok (t.alter (fun row => row.columns.ordered (row.enqueueOrder.getD 0)) fun _ => rfl)

/-- An outbox in the catalog, with or without the column. -/
inductive Relation where
  | legacy (table : LegacyTable)
  | ordered (table : OutboxTable)

/-- What the entity index sorts by, after `entity_key` and `status`. -/
inductive EntityIndex where
  | createdAt
  | enqueueOrder
  deriving DecidableEq

/-- An outbox, and what stands under the names of its sequence and its entity index. -/
structure Catalog where
  outbox : Relation
  sequence : Option Sequence
  entityIndex : Option EntityIndex

def addOutboxEnqueueOrder (catalog : Catalog) : Except Error Catalog :=
  match catalog.outbox with
  | .ordered _ =>
      -- `pg_attribute` already has the column.
      .ok catalog
  | .legacy table => do
      let widened := addColumn table
      if catalog.sequence.isSome then
        throw sequenceExists
      let sequence := Sequence.create
      let filled := backfill widened
      let sequence := sequence.setval (maxEnqueueOrder filled) (!filled.rows.isEmpty)
      let ordered ← setNotNull filled
      if catalog.entityIndex.isNone then
        throw indexMissing
      return {
        outbox := .ordered ordered
        sequence := some sequence
        entityIndex := some .enqueueOrder }

/-! ## Numbers of the rows there -/

section Numbers

variable {t : LegacyTable} {row row' : LegacyOutboxRow} {i j : Nat}

/-- `row` is the `i`-th row of the table by `created_at` and `message_id`. -/
def Ranked (t : LegacyTable) (row : LegacyOutboxRow) (i : Nat) : Prop :=
  ({ columns := row, enqueueOrder := none }, i) ∈ rowNumber WidenedRow.place (addColumn t).rows

theorem mem_addColumn {r : WidenedRow} :
    r ∈ addColumn t ↔ ∃ row ∈ t, { columns := row, enqueueOrder := none } = r :=
  Table.mem_alter

theorem Ranked.mem (h : Ranked t row i) : row ∈ t := by
  rcases mem_addColumn.1 (mem_of_mem_rowNumber h) with ⟨row', hrow', heq⟩
  have hcolumns : row' = row := congrArg WidenedRow.columns heq
  exact hcolumns ▸ hrow'

theorem Ranked.unique (h : Ranked t row i) (h' : Ranked t row j) : i = j :=
  rowNumber_unique (List.Nodup.of_map _ (addColumn t).primaryKey) h h'

theorem Ranked.bounds (h : Ranked t row i) : 1 ≤ i ∧ i ≤ t.rows.length := by
  have hbounds := rowNumber_bounds h
  simpa [addColumn, Table.alter] using hbounds

theorem exists_ranked_number (hone : 1 ≤ i) (hle : i ≤ t.rows.length) : ∃ row, Ranked t row i := by
  have hlen : (addColumn t).rows.length = t.rows.length := by
    simp [addColumn, Table.alter]
  have hrow : ∃ r, (r, i) ∈ rowNumber WidenedRow.place (addColumn t).rows :=
    exists_of_number hone (hlen ▸ hle)
  rcases hrow with ⟨r, hr⟩
  rcases mem_addColumn.1 (mem_of_mem_rowNumber hr) with ⟨row, -, rfl⟩
  exact ⟨row, hr⟩

/-- The join finds every row's own number: no other row has its `message_id`. -/
theorem exists_ordinal (h : row ∈ t) :
    ∃ i, Ranked t row i ∧ ordinal (addColumn t) row.messageId = some i := by
  have hmem : { columns := row, enqueueOrder := none } ∈ addColumn t := mem_addColumn.2 ⟨row, h, rfl⟩
  -- The row itself is ranked, so the join finds something; the key says it is the row.
  cases hfind : (ranked (addColumn t)).find? fun r => row.messageId = r.1 with
  | none =>
      have hnumber : ∃ i, (_, i) ∈ rowNumber WidenedRow.place (addColumn t).rows :=
        exists_rowNumber hmem
      rcases hnumber with ⟨i, hi⟩
      have hnone := List.find?_eq_none.1 hfind _ (List.mem_map_of_mem hi)
      simp [WidenedRow.messageId] at hnone
  | some hit =>
      have hkey : row.messageId = hit.1 := by simpa using List.find?_some hfind
      rcases List.mem_map.1 (List.mem_of_find?_eq_some hfind) with ⟨⟨r, i⟩, hr, rfl⟩
      have hrow : r = { columns := row, enqueueOrder := none } :=
        Table.eq_of_key_eq (mem_of_mem_rowNumber hr) hmem hkey.symm
      subst hrow
      exact ⟨i, hr, by simp [ordinal, hfind]⟩

theorem mem_backfill {r : WidenedRow} :
    r ∈ backfill (addColumn t) ↔
      ∃ row i, Ranked t row i ∧ r = { columns := row, enqueueOrder := some i } := by
  -- What the update makes of one row of the widened table.
  have hset : ∀ {row}, row ∈ t → ∃ i, Ranked t row i ∧
      (if (ordinal (addColumn t) row.messageId).isSome then
        ({ columns := row, enqueueOrder := ordinal (addColumn t) row.messageId } : WidenedRow)
      else { columns := row, enqueueOrder := none }) = { columns := row, enqueueOrder := some i } := by
    intro row hrow
    rcases exists_ordinal hrow with ⟨i, hi, hord⟩
    exact ⟨i, hi, by simp [hord]⟩
  refine Table.mem_updateWhere.trans ⟨?_, ?_⟩
  · rintro ⟨_, hw, rfl⟩
    rcases mem_addColumn.1 hw with ⟨row, hrow, rfl⟩
    rcases hset hrow with ⟨i, hi, heq⟩
    exact ⟨row, i, hi, heq⟩
  · rintro ⟨row, i, hi, rfl⟩
    rcases hset hi.mem with ⟨j, hj, heq⟩
    exact ⟨_, mem_addColumn.2 ⟨row, hi.mem, rfl⟩, heq.trans (by rw [hi.unique hj])⟩

/-- The table once the column is filled. -/
def numbered (t : LegacyTable) : OutboxTable :=
  (backfill (addColumn t)).alter (fun row => row.columns.ordered (row.enqueueOrder.getD 0))
    fun _ => rfl

theorem setNotNull_backfill : setNotNull (backfill (addColumn t)) = .ok (numbered t) := by
  have hnull : (backfill (addColumn t)).rows.any (fun row => row.enqueueOrder.isNone) = false := by
    rw [List.any_eq_false]
    intro r hr
    rcases mem_backfill.1 hr with ⟨row, i, -, rfl⟩
    simp
  simp [setNotNull, hnull, numbered]

theorem mem_numbered {r : OutboxRow} :
    r ∈ numbered t ↔ ∃ row i, Ranked t row i ∧ r = row.ordered i := by
  refine Table.mem_alter.trans ⟨?_, ?_⟩
  · rintro ⟨w, hw, rfl⟩
    rcases mem_backfill.1 hw with ⟨row, i, hi, rfl⟩
    exact ⟨row, i, hi, rfl⟩
  · rintro ⟨row, i, hi, rfl⟩
    exact ⟨_, mem_backfill.2 ⟨row, i, hi, rfl⟩, rfl⟩

theorem legacy_numbered : (numbered t).rows.map OutboxRow.legacy = t.rows := by
  have hrows : (numbered t).rows.map OutboxRow.legacy = t.rows.map id := by
    simp only [numbered, Table.alter, backfill, Table.updateWhere_rows, addColumn, List.map_map]
    refine List.map_congr_left fun row _ => ?_
    simp only [Function.comp_apply]
    split <;> rfl
  simpa using hrows

end Numbers

/-! ## What becomes of the rows -/

/-- `t'` is `t` with its rows numbered in the old order. -/
structure Preserves (t : LegacyTable) (t' : OutboxTable) : Prop where
  columns : t'.rows.map OutboxRow.legacy = t.rows
  bijective : Set.BijOn OutboxRow.enqueueOrder {r | r ∈ t'} (Set.Icc 1 t.rows.length)
  increasing : ∀ a ∈ t', ∀ b ∈ t', a.enqueueOrder < b.enqueueOrder ↔ a.place < b.place

section Preservation

variable {t : LegacyTable}

theorem eq_of_place_eq {a b : LegacyOutboxRow} (ha : a ∈ t) (hb : b ∈ t)
    (h : a.place = b.place) : a = b := by
  have hpair := Prod.ext_iff.1 (toLex.injective h)
  exact Table.eq_of_key_eq ha hb (BitVec.eq_of_toNat_eq hpair.2)

theorem Ranked.lt_iff {a b : LegacyOutboxRow} {i j : Nat} (ha : Ranked t a i) (hb : Ranked t b j) :
    i < j ↔ a.place < b.place := by
  constructor
  · intro hlt
    -- Equal places are one row, and the other order would order the numbers the other way.
    rcases lt_trichotomy a.place b.place with h | h | h
    · exact h
    · have heq := eq_of_place_eq ha.mem hb.mem h
      have hij := ha.unique (heq ▸ hb)
      omega
    · have hji : j < i := rowNumber_lt hb ha h
      omega
  · intro hlt
    exact rowNumber_lt ha hb hlt

theorem preserves_numbered (t : LegacyTable) : Preserves t (numbered t) := by
  refine
    { columns := legacy_numbered
      bijective := ⟨?_, ?_, ?_⟩
      increasing := ?_ }
  · intro r hr
    rcases mem_numbered.1 hr with ⟨row, i, hi, rfl⟩
    exact hi.bounds
  · intro r hr r' hr' heq
    rcases mem_numbered.1 hr with ⟨row, i, hi, rfl⟩
    rcases mem_numbered.1 hr' with ⟨row', j, hj, rfl⟩
    have hij : i = j := heq
    subst hij
    have hrow := congrArg WidenedRow.columns (rowNumber_inj hi hj)
    rw [show row = row' from hrow]
  · rintro i ⟨hone, hle⟩
    rcases exists_ranked_number hone hle with ⟨row, hi⟩
    exact ⟨row.ordered i, mem_numbered.2 ⟨row, i, hi, rfl⟩, rfl⟩
  · intro a ha b hb
    rcases mem_numbered.1 ha with ⟨row, i, hi, rfl⟩
    rcases mem_numbered.1 hb with ⟨row', j, hj, rfl⟩
    exact hi.lt_iff hj

end Preservation

/-! ## The sequence -/

/-- The sequence when it becomes the column's default. -/
def startSequence (t : LegacyTable) : Sequence :=
  Sequence.create.setval (maxEnqueueOrder (backfill (addColumn t)))
    (!(backfill (addColumn t)).rows.isEmpty)

/-- The first number handed out is the first one free, whether or not there were rows. -/
theorem upcoming_startSequence (t : LegacyTable) :
    (startSequence t).nextval.1 = t.rows.length + 1 := by
  have hnumbers : ∀ i, i ∈ (backfill (addColumn t)).rows.filterMap WidenedRow.enqueueOrder ↔
      1 ≤ i ∧ i ≤ t.rows.length := by
    intro i
    rw [List.mem_filterMap]
    constructor
    · rintro ⟨r, hr, hi⟩
      rcases mem_backfill.1 hr with ⟨row, j, hj, rfl⟩
      cases hi
      exact hj.bounds
    · rintro ⟨hone, hle⟩
      rcases exists_ranked_number hone hle with ⟨row, hi⟩
      exact ⟨_, mem_backfill.2 ⟨row, i, hi, rfl⟩, rfl⟩
  -- `EXISTS` asks whether there are rows: the update neither adds nor removes any.
  have hexists : (!(backfill (addColumn t)).rows.isEmpty) = decide (0 < t.rows.length) := by
    have hlen : (backfill (addColumn t)).rows.length = t.rows.length := by
      simp [backfill, Table.updateWhere_rows, addColumn, Table.alter]
    rw [← hlen]
    cases (backfill (addColumn t)).rows with
    | nil =>
        rfl
    | cons r rows =>
        simp
  rw [startSequence, hexists]
  exact Sequence.upcoming_backfilled _ hnumbers

theorem addOutboxEnqueueOrder_eq_ok {t : LegacyTable} {sequence : Option Sequence}
    {entityIndex : Option EntityIndex} {after : Catalog} :
    addOutboxEnqueueOrder
        { outbox := .legacy t, sequence := sequence, entityIndex := entityIndex } = .ok after ↔
      (sequence = none ∧ entityIndex ≠ none) ∧
        after =
          { outbox := .ordered (numbered t)
            sequence := some (startSequence t)
            entityIndex := some .enqueueOrder } := by
  cases sequence with
  | some q =>
      simp [addOutboxEnqueueOrder, bind_eq_ok, throw_eq_ok]
  | none =>
      cases entityIndex with
      | none =>
          simp [addOutboxEnqueueOrder, setNotNull_backfill, throw, throwThe, MonadExceptOf.throw,
            bind, Except.bind]
      | some ix =>
          simp [addOutboxEnqueueOrder, setNotNull_backfill, startSequence, eq_comm]

/-! ## Rows inserted later -/

section Later

variable {m n : Nat}

/-- Relays and enqueuers taking up an outbox, its sequence standing at `q`. -/
def resumed (t : OutboxTable) (q : Sequence) : Statement.State m n :=
  { table := t
    sequence := q.nextval.1
    enqueuers := fun _ => .idle
    relays := fun _ => .idle }

def isInsert : Statement.Action m n → Bool
  | .insertRow _ _ _ => true
  | _ => false

theorem sequence_of_next {s s' : Statement.State m n} {a : Statement.Action m n} (h : Statement.next s a = some s') :
    s'.sequence = s.sequence + [a].countP isInsert := by
  cases a <;> simp only [Statement.next, Statement.nextRelay, Statement.nextEnqueuer] at h <;>
    (repeat' split at h) <;> cases h <;> rfl

theorem row_of_insertRow {s s' : Statement.State m n} {j : Fin m} {insert : InsertOutboxRow}
    {now : Timestamp} (h : Statement.next s (.insertRow j insert now) = some s') :
    ∃ row, (s'.enqueuers j).row? = some row ∧ row.enqueueOrder = s.sequence := by
  simp only [Statement.next, Statement.nextEnqueuer] at h
  split at h
  · rename_i insert' superseded _
    cases h
    refine ⟨insert'.inserted now s.sequence, ?_, enqueueOrder_inserted⟩
    simp [Statement.EnqueuePhase.row?]
  · split at h
    · cases h
      refine ⟨insert.inserted now s.sequence, ?_, enqueueOrder_inserted⟩
      simp [Statement.EnqueuePhase.row?]
    · cases h
  · cases h

theorem numbered_of_run {as : List (Statement.Action m n)} {s s' : Statement.State m n} (h : Statement.Numbered s)
    (hrun : (Statement.system m n).run s as = some s') :
    Statement.Numbered s' ∧ s'.sequence = s.sequence + as.countP isInsert := by
  refine TransitionSystem.invariant_of_run
    (I := fun as s' => Statement.Numbered s' ∧ s'.sequence = s.sequence + as.countP isInsert)
    ⟨h, rfl⟩ ?_ hrun
  rintro as s₁ a s₂ ⟨hnum, hseq⟩ hnext
  refine ⟨Statement.numbered_step hnum (Statement.step_of_next hnext), ?_⟩
  rw [sequence_of_next hnext, hseq, List.countP_append, Nat.add_assoc]

theorem numbered_resumed (t : LegacyTable) :
    Statement.Numbered (resumed (numbered t) (startSequence t) : Statement.State m n) := by
  have hspec := preserves_numbered t
  refine
    { bounded := ?_
      unique := ?_ }
  -- No enqueue is under way yet, so only rows of the table hold numbers.
  · intro owner order howns
    cases owner with
    | inl id =>
        rcases howns with ⟨r, hr, -, rfl⟩
        have hle := (hspec.bijective.mapsTo hr).2
        have hseq := upcoming_startSequence t
        simp only [resumed]
        omega
    | inr j =>
        rcases howns with ⟨row, hrow, -⟩
        cases hrow
  · intro owner owner' order howns howns'
    cases owner with
    | inl id =>
        cases owner' with
        | inl id' =>
            rcases howns with ⟨r, hr, rfl, horder⟩
            rcases howns' with ⟨r', hr', rfl, horder'⟩
            rw [hspec.bijective.injOn hr hr' (horder.trans horder'.symm)]
        | inr j =>
            rcases howns' with ⟨row, hrow, -⟩
            cases hrow
    | inr j =>
        rcases howns with ⟨row, hrow, -⟩
        cases hrow

/-- From a table `t` with its sequence at `q`, however transactions interleave: the row an `INSERT`
writes gets what the sequence hands out, and that is more than any row had at any time before. -/
def NumbersOnward (t : OutboxTable) (q : Sequence) : Prop :=
  ∀ {m n : Nat} (earlier between : List (Statement.Action m n)) (s₀ s s' : Statement.State m n)
    (j : Fin m) (insert : InsertOutboxRow) (now : Timestamp),
    (Statement.system m n).run (resumed t q) earlier = some s₀ →
    (Statement.system m n).run s₀ between = some s →
    Statement.next s (.insertRow j insert now) = some s' →
    ∃ row, (s'.enqueuers j).row? = some row ∧
      row.enqueueOrder = (q.after ((earlier ++ between).countP isInsert)).nextval.1 ∧
      ∀ owner order, Statement.Owns s₀ owner order → order < row.enqueueOrder

theorem numbersOnward_numbered (t : LegacyTable) :
    NumbersOnward (numbered t) (startSequence t) := by
  intro m n earlier between s₀ s s' j insert now hearlier hbetween hinsert
  rcases numbered_of_run (numbered_resumed t) hearlier with ⟨hnum₀, hseq₀⟩
  rcases numbered_of_run hnum₀ hbetween with ⟨-, hseq⟩
  rcases row_of_insertRow hinsert with ⟨row, hrow, horder⟩
  refine ⟨row, hrow, ?_, ?_⟩
  · rw [horder, hseq, hseq₀, Sequence.upcoming_after, List.countP_append, Nat.add_assoc]
    rfl
  · intro owner order howns
    have hlt := hnum₀.bounded owner order howns
    omega

end Later

/-! ## What a claim takes -/

/-- `r` is a row of the upgraded table, as it is by now. -/
def IsLegacy (upgraded : OutboxTable) (r : OutboxRow) : Prop :=
  ∃ r₀ ∈ upgraded, r₀.frozen = r.frozen

/-- Which rows of entity `e` that were in `upgraded` a claim on the table as it is now prefers. -/
structure PrefersLast (upgraded t : OutboxTable) (args : ClaimArgs) (e : String) : Prop where
  /-- One that is returned is the last of those pending. -/
  returned : ∀ k ∈ t, k.entityKey = some e → k.status = .pending → IsLegacy upgraded k →
    { row := args.claim k, claimId := args.claimId } ∈ (claimOutcome args t).2 →
    ∀ q ∈ t, q.entityKey = some e → q.status = .pending → IsLegacy upgraded q → q.place ≤ k.place
  /-- While the entity has only such rows, an unobstructed claim returns the last one once it is
  due. -/
  served : (∀ q ∈ t, q.entityKey = some e → q.status = .pending → IsLegacy upgraded q) →
    (∀ q ∈ t, q.entityKey = some e → q.status ≠ .publishing) →
    (∀ id, args.locked id = false) → t.rows.length ≤ args.limit →
    ∀ k ∈ t, k.entityKey = some e → k.status = .pending → k.nextAttemptAt ≤ args.now →
      (∀ q ∈ t, q.entityKey = some e → q.status = .pending → q.place ≤ k.place) →
      { row := args.claim k, claimId := args.claimId } ∈ (claimOutcome args t).2

section Preference

variable {args : ClaimArgs} {t : OutboxTable}

/-- A pending row that is claimed has no newer pending row in its entity: the collapse leaves the
newest one alone, and that one blocks every other. -/
theorem newest_of_candidate {k q : OutboxRow} (hk : k ∈ args.candidates t)
    (hpending : k.status = .pending) (hq : q ∈ t) (hsib : Sibling q k)
    (hqst : q.status = .pending) : q.enqueueOrder ≤ k.enqueueOrder := by
  by_contra hlt
  have hlt : k.enqueueOrder < q.enqueueOrder := Nat.lt_of_not_le hlt
  -- The claim's own check, on the table between its two statements.
  have hclear : ∀ r ∈ args.collapsed t, Sibling r k → r.status = .pending →
      ¬ k.enqueueOrder < r.enqueueOrder := by
    intro r hr hrsib hrst hrlt
    rcases claimable_iff.1 (mem_candidates hk).2 with ⟨-, -, -, hnewer⟩ | ⟨hst, -⟩
    · exact hnewer (newerPending_iff.2 ⟨r, hr, hrsib, hrst, hrlt⟩)
    · simp [hpending] at hst
  by_cases hover : overtakenBy (collapseWindow args.now args.limit t.rows) q = true
  -- `q` was collapsed behind `top`, which is newest and stays pending in front of `k`.
  · rcases overtakenBy_iff.1 hover with ⟨-, top, htop, ⟨e, hqe, htope⟩, hqtop⟩
    rcases mem_collapseWindow htop with ⟨htopt, hcoll⟩
    rcases collapsible_iff.1 hcoll with ⟨htopst, -, -, -, hfirst⟩
    have hstays : overtakenBy (collapseWindow args.now args.limit t.rows) top ≠ true := by
      intro hover'
      rcases newer_of_collapse hover' with ⟨-, r, hr, hrst, hrsib, hrlt⟩
      exact hfirst (newerPending_iff.2 ⟨r, hr, hrsib.symm, hrst, hrlt⟩)
    rcases hsib with ⟨e', hqe', hke'⟩
    have hee : e' = e := Option.some.inj (hqe'.symm.trans hqe)
    refine hclear top (mem_collapsed.2 ⟨top, htopt, if_neg hstays⟩) ⟨e, htope, hee ▸ hke'⟩ htopst ?_
    exact hlt.trans hqtop
  · exact hclear q (mem_collapsed.2 ⟨q, hq, if_neg hover⟩) hsib hqst hlt

theorem candidate_of_returned {k : OutboxRow} (hk : k ∈ t)
    (h : { row := args.claim k, claimId := args.claimId } ∈ (claimOutcome args t).2) :
    k ∈ args.candidates t := by
  rcases mem_claimOutcome_snd.1 h with ⟨k', hk', heq⟩
  have hid : k.messageId = k'.messageId := congrArg ClaimedOutboxRow.messageId heq
  rw [Table.eq_of_key_eq hk (candidate_mem_table hk') hid]
  exact hk'

theorem claimable_of_newest {k : OutboxRow} {e : String} (hk : NextRow t e k)
    (hpending : k.status = .pending) (hdue : k.nextAttemptAt ≤ args.now) :
    claimable args.now (args.collapsed t).rows k = true := by
  rcases hk with ⟨-, hke, hst | ⟨-, hquiet, hnewest⟩⟩
  · rw [hpending] at hst
    cases hst
  refine claimable_iff.2 (Or.inl ⟨hpending, hdue, Or.inr ?_, ?_⟩)
  · intro hfly
    rcases inflight_iff.1 hfly with ⟨q, hq, ⟨e', hqe, hke'⟩, hqst⟩
    have hee : e' = e := Option.some.inj (hke'.symm.trans hke)
    exact hquiet q (mem_table_of_mem_collapsed hq (Or.inr hqst)) (hee ▸ hqe) hqst
  · intro hnewer
    rcases newerPending_iff.1 hnewer with ⟨q, hq, ⟨e', hqe, hke'⟩, hqst, hlt⟩
    have hee : e' = e := Option.some.inj (hke'.symm.trans hke)
    have hle := hnewest q (mem_table_of_mem_collapsed hq (Or.inl hqst)) (hee ▸ hqe) hqst
    omega

end Preference

section Legacy

variable {upgraded t : OutboxTable} {legacy : LegacyTable}

theorem place_of_frozen {a b : OutboxRow} (h : a.frozen = b.frozen) : a.place = b.place := by
  change a.frozen.place = b.frozen.place
  rw [h]

theorem IsLegacy.le_iff (hspec : Preserves legacy upgraded) {a b : OutboxRow}
    (ha : IsLegacy upgraded a) (hb : IsLegacy upgraded b) :
    a.enqueueOrder ≤ b.enqueueOrder ↔ a.place ≤ b.place := by
  rcases ha with ⟨a₀, ha₀, hfa⟩
  rcases hb with ⟨b₀, hb₀, hfb⟩
  rw [← enqueueOrder_of_frozen hfa, ← enqueueOrder_of_frozen hfb, ← place_of_frozen hfa,
    ← place_of_frozen hfb, ← not_lt, ← not_lt, hspec.increasing b₀ hb₀ a₀ ha₀]

theorem Preserves.prefersLast (hspec : Preserves legacy upgraded) (args : ClaimArgs) (e : String) :
    PrefersLast upgraded t args e := by
  refine
    { returned := ?_
      served := ?_ }
  · intro k hk hke hkst hkleg hret q hq hqe hqst hqleg
    have hle := newest_of_candidate (candidate_of_returned hk hret) hkst hq ⟨e, hqe, hke⟩ hqst
    exact (hqleg.le_iff hspec hkleg).1 hle
  · intro hall hquiet hunlocked hlimit k hk hke hkst hdue hlast
    have hnext : NextRow t e k := by
      refine ⟨hk, hke, Or.inr ⟨hkst, hquiet, ?_⟩⟩
      intro q hq hqe hqst
      exact ((hall q hq hqe hqst).le_iff hspec (hall k hk hke hkst)).2 (hlast q hq hqe hqst)
    have hclaim := claimable_of_newest hnext hkst hdue
    have hcand := mem_candidates_of_limit hunlocked hlimit (nextRow_mem_collapsed hnext) hclaim
    exact mem_claimOutcome_snd.2 ⟨k, hcand, rfl⟩

end Legacy

/-! ## The upgrade -/

/-- The upgrade preserves row order.  On an outbox without the column the block succeeds if and only
if the name of its sequence is free and the index it replaces is there.  It then leaves every other
column as it was, and numbers the rows from one in the order of `created_at` and `message_id`; every
row inserted later gets a greater number than all before it; running the block again changes
nothing; and of the rows of an entity that were there, a claim prefers the last in that order, on
the table it left and on whatever has become of it. -/
theorem upgrade_preserves_order (t : LegacyTable) (sequence : Option Sequence)
    (entityIndex : Option EntityIndex) :
    ((∃ after, addOutboxEnqueueOrder
        { outbox := .legacy t, sequence := sequence, entityIndex := entityIndex } = .ok after) ↔
      sequence = none ∧ entityIndex ≠ none) ∧
    ∀ after, addOutboxEnqueueOrder
        { outbox := .legacy t, sequence := sequence, entityIndex := entityIndex } = .ok after →
      ∃ t' q,
        after =
          { outbox := .ordered t'
            sequence := some q
            entityIndex := some .enqueueOrder } ∧
        Preserves t t' ∧
        NumbersOnward t' q ∧
        (∀ catalog table, catalog.outbox = .ordered table →
          addOutboxEnqueueOrder catalog = .ok catalog) ∧
        ∀ later args e, PrefersLast t' later args e := by
  refine ⟨?_, ?_⟩
  · simp [addOutboxEnqueueOrder_eq_ok]
  · intro after hafter
    refine ⟨numbered t, startSequence t, (addOutboxEnqueueOrder_eq_ok.1 hafter).2,
      preserves_numbered t, numbersOnward_numbered t, ?_, ?_⟩
    · intro catalog table hordered
      simp [addOutboxEnqueueOrder, hordered]
    · intro later args e
      exact (preserves_numbered t).prefersLast args e

end Upgrade
end Outbox
end Kafkaman
