import Kafkaman.Core.Error
import Kafkaman.Core.Rows
import Kafkaman.Lib.Fallible
import Kafkaman.Lib.Table
import Kafkaman.Outbox.Enqueue

/-!
# Received.Table — the received relation and the insert that deduplicates into it

A received table has two uniqueness constraints, the primary key `message_id` and the unique index
on `idempotency_key`; both are fields of `ReceivedTable`.  `insert_received_with_outcome` comes in
two parts: `prepareReceived`, which calls application code before the first statement, and
`insertReceivedRow`, the statement pair `INSERT … ON CONFLICT DO NOTHING` and the classification of
a conflict.

* `Prepared` — what a prepared insert is made of;
* `insertReceivedRow_spec` — afterwards the row is there, or its key was, or its id was;
* `ReceivedTable.Persists` — no statement deletes a row or touches its frozen columns.
-/

namespace Kafkaman

/-- The columns no statement after the insert assigns, with the others set to what an insert
writes.  Two versions of a received row agree here. -/
def ReceivedRow.frozen (row : ReceivedRow) : ReceivedRow :=
  { row with
    status := .pending
    attempts := 0
    nextAttemptAt := none
    errors := []
    lastFailedAt := none
    lastFailureKind := none
    processedAt := none }

namespace Received

open Lib

theorem messageId_of_frozen {a b : ReceivedRow} (h : a.frozen = b.frozen) :
    a.messageId = b.messageId := by
  change a.frozen.messageId = b.frozen.messageId
  rw [h]

theorem idempotencyKey_of_frozen {a b : ReceivedRow} (h : a.frozen = b.frozen) :
    a.idempotencyKey = b.idempotencyKey := by
  change a.frozen.idempotencyKey = b.frozen.idempotencyKey
  rw [h]

structure ReceivedTable extends Table ReceivedRow.messageId where
  dedupe : (rows.map ReceivedRow.idempotencyKey).Nodup

namespace ReceivedTable

instance : Membership ReceivedRow ReceivedTable where
  mem t r := r ∈ t.rows

def empty : ReceivedTable :=
  { toTable := Table.empty
    dedupe := by simp [Table.empty] }

@[simp] theorem not_mem_empty {r : ReceivedRow} : ¬ r ∈ empty :=
  List.not_mem_nil

/-- Whether some row carries the idempotency key. -/
def HasIdempotencyKey (t : ReceivedTable) (key : IdempotencyKey) : Prop :=
  ∃ r ∈ t.rows, r.idempotencyKey = key

instance (t : ReceivedTable) (key : IdempotencyKey) : Decidable (t.HasIdempotencyKey key) :=
  inferInstanceAs (Decidable (∃ r ∈ t.rows, r.idempotencyKey = key))

theorem dedupe_append {t : ReceivedTable} {r : ReceivedRow}
    (h : ¬ t.HasIdempotencyKey r.idempotencyKey) :
    ((t.rows ++ [r]).map ReceivedRow.idempotencyKey).Nodup := by
  rw [List.map_append, List.nodup_append]
  refine ⟨t.dedupe, by simp, ?_⟩
  intro k hk k' hk' heq
  rcases List.mem_map.1 hk with ⟨r₀, hr₀, rfl⟩
  have hkr : k' = r.idempotencyKey := by simpa using hk'
  exact h ⟨r₀, hr₀, heq.trans hkr⟩

/-- `INSERT … ON CONFLICT DO NOTHING`; `none` is a conflict on either constraint. -/
def insertOrIgnore (t : ReceivedTable) (r : ReceivedRow) : Option ReceivedTable :=
  if hid : t.toTable.HasKey r.messageId then
    none
  else if hkey : t.HasIdempotencyKey r.idempotencyKey then
    none
  else
    some
      { rows := t.rows ++ [r]
        primaryKey := Table.nodup_append_of_not_hasKey hid
        dedupe := dedupe_append hkey }

theorem mem_of_insertOrIgnore {t t' : ReceivedTable} {r : ReceivedRow}
    (h : t.insertOrIgnore r = some t') {r' : ReceivedRow} : r' ∈ t' ↔ r' ∈ t ∨ r' = r := by
  unfold insertOrIgnore at h
  split at h
  · cases h
  · split at h
    · cases h
    · have hrows : t'.rows = t.rows ++ [r] := by
        rw [← Option.some.inj h]
      change r' ∈ t'.rows ↔ r' ∈ t.rows ∨ r' = r
      simp [hrows]

theorem insertOrIgnore_eq_none {t : ReceivedTable} {r : ReceivedRow} :
    t.insertOrIgnore r = none ↔
      t.toTable.HasKey r.messageId ∨ t.HasIdempotencyKey r.idempotencyKey := by
  unfold insertOrIgnore
  by_cases hid : t.toTable.HasKey r.messageId
  · simp [hid]
  · by_cases hkey : t.HasIdempotencyKey r.idempotencyKey <;> simp [hid, hkey]

/-- `UPDATE … SET f WHERE p`, for an assignment of mutable columns only. -/
def updateWhere (t : ReceivedTable) (p : ReceivedRow → Bool) (f : ReceivedRow → ReceivedRow)
    (hf : ∀ r, (f r).frozen = r.frozen) : ReceivedTable :=
  { toTable := t.toTable.updateWhere p f fun r => messageId_of_frozen (hf r)
    dedupe := by
      have hkeys : (t.rows.map fun r => if p r then f r else r).map ReceivedRow.idempotencyKey =
          t.rows.map ReceivedRow.idempotencyKey := by
        rw [List.map_map]
        apply List.map_congr_left
        intro r _
        by_cases hp : p r
        · simp [hp, idempotencyKey_of_frozen (hf r)]
        · simp [hp]
      rw [Table.updateWhere_rows, hkeys]
      exact t.dedupe }

theorem mem_updateWhere {t : ReceivedTable} {p : ReceivedRow → Bool}
    {f : ReceivedRow → ReceivedRow} {hf : ∀ r, (f r).frozen = r.frozen} {r' : ReceivedRow} :
    r' ∈ t.updateWhere p f hf ↔ ∃ r ∈ t, (if p r then f r else r) = r' := by
  change r' ∈ t.toTable.updateWhere p f (fun r => messageId_of_frozen (hf r)) ↔
    ∃ r ∈ t.toTable, (if p r then f r else r) = r'
  exact Table.mem_updateWhere

theorem forall_updateWhere {t : ReceivedTable} {p : ReceivedRow → Bool}
    {f : ReceivedRow → ReceivedRow} (hf : ∀ r, (f r).frozen = r.frozen) {Q : ReceivedRow → Prop}
    (h : ∀ r ∈ t, Q r) (hassign : ∀ r, Q r → Q (f r)) : ∀ r ∈ t.updateWhere p f hf, Q r := by
  intro r' hr'
  rcases mem_updateWhere.1 hr' with ⟨r, hr, rfl⟩
  split
  · exact hassign r (h r hr)
  · exact h r hr

theorem hasKey_updateWhere {t : ReceivedTable} {p : ReceivedRow → Bool}
    {f : ReceivedRow → ReceivedRow} (hf : ∀ r, (f r).frozen = r.frozen) {messageId : Uuid} :
    (t.updateWhere p f hf).toTable.HasKey messageId ↔ t.toTable.HasKey messageId :=
  @Table.hasKey_updateWhere _ _ _ _ _ _ (fun r => messageId_of_frozen (hf r)) _

/-- Every row has a version in the later table. -/
def Persists (t t' : ReceivedTable) : Prop :=
  ∀ r ∈ t, ∃ r' ∈ t', r'.frozen = r.frozen

theorem Persists.refl (t : ReceivedTable) : t.Persists t :=
  fun r hr => ⟨r, hr, rfl⟩

theorem persists_updateWhere {t : ReceivedTable} {p : ReceivedRow → Bool}
    {f : ReceivedRow → ReceivedRow} (hf : ∀ r, (f r).frozen = r.frozen) :
    t.Persists (t.updateWhere p f hf) := by
  intro r hr
  refine ⟨_, mem_updateWhere.2 ⟨r, hr, rfl⟩, ?_⟩
  split
  · exact hf r
  · rfl

theorem eq_of_messageId_eq {t : ReceivedTable} {r r' : ReceivedRow} (h : r ∈ t) (h' : r' ∈ t)
    (hid : r.messageId = r'.messageId) : r = r' :=
  Table.eq_of_key_eq h h' hid

theorem eq_of_idempotencyKey_eq {t : ReceivedTable} {r r' : ReceivedRow} (h : r ∈ t) (h' : r' ∈ t)
    (hkey : r.idempotencyKey = r'.idempotencyKey) : r = r' :=
  List.inj_on_of_nodup_map t.dedupe h h' hkey

end ReceivedTable

/-! ## Inserting a received row -/

/-- `received_insert_conflict_outcome`. -/
def receivedInsertConflictOutcome (t : ReceivedTable) (messageId : Uuid) (key : IdempotencyKey) :
    ReceivedInsertOutcome :=
  if t.HasIdempotencyKey key then .duplicateIdempotencyKey
  else if t.toTable.HasKey messageId then .messageIdConflict
  else .duplicateIdempotencyKey

/-- The bound parameters of one received insert. -/
structure InsertReceivedRow where
  messageId : Uuid
  idempotencyKey : IdempotencyKey
  idempotencySource : Option Json
  topic : String
  partition : Int
  offset : Int
  key : Option Bytes
  entityKey : String
  messageType : String
  headers : HeaderMap
  payload : Json
  correlationId : Uuid
  causationId : Option Uuid
  trace : Option TraceContext
  occurredAt : Timestamp

/-- The row the statement writes. -/
def InsertReceivedRow.row (insert : InsertReceivedRow) (now : Timestamp) : ReceivedRow :=
  { messageId := insert.messageId
    idempotencyKey := insert.idempotencyKey
    idempotencySource := insert.idempotencySource
    entityKey := some insert.entityKey
    status := .pending
    attempts := 0
    nextAttemptAt := none
    errors := []
    lastFailedAt := none
    lastFailureKind := none
    sourceTopic := insert.topic
    sourcePartition := insert.partition
    sourceOffset := insert.offset
    key := insert.key
    messageType := insert.messageType
    messageVersion := 1
    headers := insert.headers
    payload := insert.payload
    correlationId := some insert.correlationId
    causationId := insert.causationId
    trace := insert.trace
    occurredAt := insert.occurredAt
    createdAt := now
    processedAt := none }

/-- What `insert_received_with_outcome` does before its first statement. -/
def prepareReceived {P : Type} (message : KafkaMessage P) (descriptor : MessageDescriptor)
    (evt : Envelope P) (partition offset : Int) (key : Option Bytes)
    (trace : Option TraceContext) : Except Error InsertReceivedRow := do
  if let some reserved := reservedHeader evt.headers then
    throw (.reservedHeader reserved)
  let some identity := evt.idempotencyKey | throw .missingIdempotencyKey
  let serialized ← Outbox.catchApplicationPanic descriptor.messageType "serialize payload"
    (message.toValue evt.payload)
  let payload ← serialized.mapError Error.serde
  let entityKey ← Outbox.catchApplicationPanic descriptor.messageType "resolve entity key"
    (message.entityKey evt.payload)
  return {
    messageId := evt.messageId
    idempotencyKey := identity.key
    idempotencySource := identity.source
    topic := descriptor.topic
    partition := partition
    offset := offset
    key := key
    entityKey := entityKey
    messageType := descriptor.messageType
    headers := evt.headers
    payload := payload
    correlationId := evt.correlationId
    causationId := evt.causationId
    trace := trace
    occurredAt := evt.occurredAt }

/-- What a prepared insert is made of. -/
structure Prepared {P : Type} (message : KafkaMessage P) (descriptor : MessageDescriptor)
    (evt : Envelope P) (partition offset : Int) (insert : InsertReceivedRow) : Prop where
  messageId : insert.messageId = evt.messageId
  identity : ∃ identity, evt.idempotencyKey = some identity ∧
    insert.idempotencyKey = identity.key
  topic : insert.topic = descriptor.topic
  partition : insert.partition = partition
  offset : insert.offset = offset
  payload : message.toValue evt.payload = .returned (.ok insert.payload)
  entityKey : message.entityKey evt.payload = .returned insert.entityKey

theorem prepareReceived_eq_ok {P : Type} {message : KafkaMessage P}
    {descriptor : MessageDescriptor} {evt : Envelope P} {partition offset : Int}
    {key : Option Bytes} {trace : Option TraceContext} {insert : InsertReceivedRow} :
    prepareReceived message descriptor evt partition offset key trace = .ok insert ↔
      reservedHeader evt.headers = none ∧
      ∃ identity, evt.idempotencyKey = some identity ∧
      ∃ payload, message.toValue evt.payload = .returned (.ok payload) ∧
      ∃ entityKey, message.entityKey evt.payload = .returned entityKey ∧
        insert =
          { messageId := evt.messageId
            idempotencyKey := identity.key
            idempotencySource := identity.source
            topic := descriptor.topic
            partition := partition
            offset := offset
            key := key
            entityKey := entityKey
            messageType := descriptor.messageType
            headers := evt.headers
            payload := payload
            correlationId := evt.correlationId
            causationId := evt.causationId
            trace := trace
            occurredAt := evt.occurredAt } := by
  unfold prepareReceived
  cases hreserved : reservedHeader evt.headers with
  | some reserved =>
      simp [bind_eq_ok, throw_eq_ok]
  | none =>
      cases hidentity : evt.idempotencyKey with
      | none =>
          simp [throw_eq_ok]
      | some identity =>
          simp only [bind_eq_ok, pure_eq_ok, mapError_eq_ok, Outbox.catchApplicationPanic_eq_ok,
            true_and, Option.some.injEq, exists_eq_left', eq_comm (a := insert)]
          constructor
          · rintro ⟨serialized, hvalue, payload, rfl, hrest⟩
            exact ⟨payload, hvalue, hrest⟩
          · rintro ⟨payload, hvalue, hrest⟩
            exact ⟨_, hvalue, payload, rfl, hrest⟩

theorem prepared_of_prepareReceived {P : Type} {message : KafkaMessage P}
    {descriptor : MessageDescriptor} {evt : Envelope P} {partition offset : Int}
    {key : Option Bytes} {trace : Option TraceContext} {insert : InsertReceivedRow}
    (h : prepareReceived message descriptor evt partition offset key trace = .ok insert) :
    Prepared message descriptor evt partition offset insert := by
  rcases prepareReceived_eq_ok.1 h with ⟨_, identity, hidentity, payload, hvalue, entityKey,
    hentity, rfl⟩
  exact
    { messageId := rfl
      identity := ⟨identity, hidentity, rfl⟩
      topic := rfl
      partition := rfl
      offset := rfl
      payload := hvalue
      entityKey := hentity }

/-- The statements of `insert_received_with_outcome`. -/
def insertReceivedRow (now : Timestamp) (insert : InsertReceivedRow) (t : ReceivedTable) :
    ReceivedTable × ReceivedInsertOutcome :=
  match t.insertOrIgnore (insert.row now) with
  | some t' => (t', .inserted)
  | none => (t, receivedInsertConflictOutcome t insert.messageId insert.idempotencyKey)

/-- The three ends of an insert: its key is stored already, its id belongs to another message, or
the row goes in. -/
inductive InsertEnd (now : Timestamp) (insert : InsertReceivedRow) (t : ReceivedTable) : Prop
  | duplicate (hkey : t.HasIdempotencyKey insert.idempotencyKey)
      (heq : insertReceivedRow now insert t = (t, .duplicateIdempotencyKey))
  | conflict (hkey : ¬ t.HasIdempotencyKey insert.idempotencyKey)
      (hid : t.toTable.HasKey insert.messageId)
      (heq : insertReceivedRow now insert t = (t, .messageIdConflict))
  | inserted (hkey : ¬ t.HasIdempotencyKey insert.idempotencyKey)
      (hid : ¬ t.toTable.HasKey insert.messageId) (t' : ReceivedTable)
      (hins : t.insertOrIgnore (insert.row now) = some t')
      (heq : insertReceivedRow now insert t = (t', .inserted))

theorem insertEnd (now : Timestamp) (insert : InsertReceivedRow) (t : ReceivedTable) :
    InsertEnd now insert t := by
  by_cases hkey : t.HasIdempotencyKey insert.idempotencyKey
  · refine .duplicate hkey ?_
    rw [insertReceivedRow, ReceivedTable.insertOrIgnore_eq_none.2 (Or.inr hkey)]
    simp [receivedInsertConflictOutcome, hkey]
  · by_cases hid : t.toTable.HasKey insert.messageId
    · refine .conflict hkey hid ?_
      rw [insertReceivedRow, ReceivedTable.insertOrIgnore_eq_none.2 (Or.inl hid)]
      simp [receivedInsertConflictOutcome, hkey, hid]
    · cases hins : t.insertOrIgnore (insert.row now) with
      | none =>
          exact absurd (ReceivedTable.insertOrIgnore_eq_none.1 hins) (not_or.2 ⟨hid, hkey⟩)
      | some t' =>
          refine .inserted hkey hid t' hins ?_
          rw [insertReceivedRow, hins]

theorem insertReceivedRow_conflict_iff {now : Timestamp} {insert : InsertReceivedRow}
    {t : ReceivedTable} :
    (insertReceivedRow now insert t).2 = .messageIdConflict ↔
      t.toTable.HasKey insert.messageId ∧ ¬ t.HasIdempotencyKey insert.idempotencyKey := by
  rcases insertEnd now insert t with ⟨hkey, heq⟩ | ⟨hkey, hid, heq⟩ | ⟨hkey, hid, t', -, heq⟩
  · simp [heq, hkey]
  · simp [heq, hkey, hid]
  · simp [heq, hid]

theorem mem_insertReceivedRow_of_mem {now : Timestamp} {insert : InsertReceivedRow}
    {t : ReceivedTable} {r : ReceivedRow} (h : r ∈ t) :
    r ∈ (insertReceivedRow now insert t).1 := by
  unfold insertReceivedRow
  split
  · rename_i t' hins
    exact (ReceivedTable.mem_of_insertOrIgnore hins).2 (Or.inl h)
  · exact h

theorem mem_of_insertReceivedRow {now : Timestamp} {insert : InsertReceivedRow}
    {t : ReceivedTable} {r : ReceivedRow} (h : r ∈ (insertReceivedRow now insert t).1) :
    r ∈ t ∨ r = insert.row now := by
  unfold insertReceivedRow at h
  split at h
  · rename_i t' hins
    exact (ReceivedTable.mem_of_insertOrIgnore hins).1 h
  · exact Or.inl h

theorem persists_insertReceivedRow {now : Timestamp} {insert : InsertReceivedRow}
    {t : ReceivedTable} : t.Persists (insertReceivedRow now insert t).1 :=
  fun r hr => ⟨r, mem_insertReceivedRow_of_mem hr, rfl⟩

theorem insertReceivedRow_spec (now : Timestamp) (insert : InsertReceivedRow)
    (t : ReceivedTable) :
    insert.row now ∈ (insertReceivedRow now insert t).1 ∨
      t.HasIdempotencyKey insert.idempotencyKey ∨
      (insertReceivedRow now insert t).2 = .messageIdConflict := by
  rcases insertEnd now insert t with ⟨hkey, -⟩ | ⟨-, -, heq⟩ | ⟨-, -, t', hins, heq⟩
  · exact Or.inr (Or.inl hkey)
  · exact Or.inr (Or.inr (by rw [heq]))
  · refine Or.inl ?_
    rw [heq]
    exact (ReceivedTable.mem_of_insertOrIgnore hins).2 (Or.inr rfl)

/-! ## The quarantine relation -/

/-- The primary key of the quarantine relation. -/
def failureSource (failure : ReceivedIngestFailure) : String × Int × Int :=
  (failure.sourceTopic, failure.sourcePartition, failure.sourceOffset)

abbrev QuarantineTable : Type := Table failureSource

/-- `insert_received_ingest_failure`: a redelivered record keeps its first diagnosis. -/
def insertReceivedIngestFailure (failure : ReceivedIngestFailure) (t : QuarantineTable) :
    QuarantineTable :=
  (t.insert? failure).getD t

theorem hasKey_insertReceivedIngestFailure {failure : ReceivedIngestFailure}
    {t : QuarantineTable} {source : String × Int × Int} :
    (insertReceivedIngestFailure failure t).HasKey source ↔
      t.HasKey source ∨ source = failureSource failure := by
  unfold insertReceivedIngestFailure
  cases hins : t.insert? failure with
  | none =>
      have hkey : t.HasKey (failureSource failure) := Table.insert?_eq_none.1 hins
      constructor
      · exact Or.inl
      · rintro (h | rfl)
        · exact h
        · exact hkey
  | some t' =>
      constructor
      · rintro ⟨f, hf, rfl⟩
        rcases (Table.mem_of_insert? hins).1 hf with h | rfl
        · exact Or.inl ⟨f, h, rfl⟩
        · exact Or.inr rfl
      · rintro (⟨f, hf, rfl⟩ | rfl)
        · exact ⟨f, (Table.mem_of_insert? hins).2 (Or.inl hf), rfl⟩
        · exact ⟨failure, (Table.mem_of_insert? hins).2 (Or.inr rfl), rfl⟩

end Received
end Kafkaman
