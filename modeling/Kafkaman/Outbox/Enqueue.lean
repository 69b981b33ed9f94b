import Kafkaman.Core.Error
import Kafkaman.Lib.Fallible
import Kafkaman.Outbox.Table

/-!
# Outbox.Enqueue — writing a snapshot into the outbox

`prepareInsert` is the part of `enqueue_inner` that runs before any statement: the reserved-header
check and the three calls into application code.  `enqueueInner` is the transaction: it supersedes
the pending rows of the entity that its snapshot shows, and inserts.

What the snapshot shows is the parameter `visible`.  Under `READ COMMITTED` it is everything
committed; an enqueue inside a transaction whose snapshot was fixed earlier sees less.
-/

namespace Kafkaman
namespace Outbox

open Lib

/-- `catch_application_panic`. -/
def catchApplicationPanic {α : Type} (messageType operation : String) :
    AppCall α → Except Error α
  | .returned a => .ok a
  | .panicked message => .error (.applicationPanicked messageType operation message)

theorem catchApplicationPanic_eq_ok {α : Type} {messageType operation : String} {call : AppCall α}
    {a : α} : catchApplicationPanic messageType operation call = .ok a ↔ call = .returned a := by
  cases call with
  | returned b =>
      simp [catchApplicationPanic]
  | panicked message =>
      simp [catchApplicationPanic]

theorem catchApplicationPanic_eq_error {α : Type} {messageType operation : String}
    {call : AppCall α} {e : Error} :
    catchApplicationPanic messageType operation call = .error e ↔
      ∃ message, call = .panicked message ∧
        .applicationPanicked messageType operation message = e := by
  cases call with
  | returned b =>
      simp [catchApplicationPanic]
  | panicked message =>
      simp [catchApplicationPanic]

/-- The bound parameters of one outbox insert. -/
structure InsertOutboxRow where
  messageId : Uuid
  idempotencyKey : Option IdempotencyKey
  idempotencySource : Option Json
  topic : String
  entityKey : String
  partitionKey : Option String
  correlationId : Uuid
  causationId : Option Uuid
  trace : Option TraceContext
  headers : HeaderMap
  payload : Json
  occurredAt : Timestamp

/-- The row `InsertOutboxRow::execute` writes; `order` is what the sequence handed out. -/
def InsertOutboxRow.row (insert : InsertOutboxRow) (now : Timestamp) (order : Nat)
    (status : OutboxStatus) (lastError : Option String) : OutboxRow :=
  { messageId := insert.messageId
    idempotencyKey := insert.idempotencyKey
    idempotencySource := insert.idempotencySource
    status := status
    attempts := 0
    nextAttemptAt := now
    lastError := lastError
    claimId := none
    claimedBy := none
    claimExpiresAt := none
    topic := insert.topic
    partitionKey := insert.partitionKey
    entityKey := some insert.entityKey
    correlationId := insert.correlationId
    causationId := insert.causationId
    trace := insert.trace
    headers := insert.headers
    payload := insert.payload
    occurredAt := insert.occurredAt
    createdAt := now
    publishedAt := none
    enqueueOrder := order }

/-- Everything `enqueue_inner` does before its first statement. -/
def prepareInsert {P : Type} (message : KafkaMessage P) (descriptor : MessageDescriptor)
    (evt : Envelope P) (trace : Option TraceContext) : Except Error InsertOutboxRow := do
  if let some key := reservedHeader evt.headers then
    throw (.reservedHeader key)
  let partitionKey ← catchApplicationPanic descriptor.messageType "resolve partition key"
    (message.partitionKey evt.payload)
  let entityKey ← catchApplicationPanic descriptor.messageType "resolve entity key"
    (message.entityKey evt.payload)
  -- For foreign consumers, which cannot deserialize the typed payload.
  let headers :=
    if partitionKey = some entityKey then evt.headers
    else evt.headers.insert "kafkaman-entity-key" entityKey
  let serialized ← catchApplicationPanic descriptor.messageType "serialize payload"
    (message.toValue evt.payload)
  let payload ← serialized.mapError Error.serde
  return {
    messageId := evt.messageId
    idempotencyKey := evt.idempotencyKey.map IdempotencyIdentity.key
    idempotencySource := evt.idempotencyKey.bind IdempotencyIdentity.source
    topic := descriptor.topic
    entityKey := entityKey
    partitionKey := partitionKey
    correlationId := evt.correlationId
    causationId := evt.causationId
    trace := trace
    headers := headers
    payload := payload
    occurredAt := evt.occurredAt }

/-- What an envelope has to come with, and the insert it becomes. -/
theorem prepareInsert_eq_ok {P : Type} {message : KafkaMessage P} {descriptor : MessageDescriptor}
    {evt : Envelope P} {trace : Option TraceContext} {insert : InsertOutboxRow} :
    prepareInsert message descriptor evt trace = .ok insert ↔
      reservedHeader evt.headers = none ∧
      ∃ partitionKey, message.partitionKey evt.payload = .returned partitionKey ∧
      ∃ entityKey, message.entityKey evt.payload = .returned entityKey ∧
      ∃ payload, message.toValue evt.payload = .returned (.ok payload) ∧
        insert =
          { messageId := evt.messageId
            idempotencyKey := evt.idempotencyKey.map IdempotencyIdentity.key
            idempotencySource := evt.idempotencyKey.bind IdempotencyIdentity.source
            topic := descriptor.topic
            entityKey := entityKey
            partitionKey := partitionKey
            correlationId := evt.correlationId
            causationId := evt.causationId
            trace := trace
            headers :=
              if partitionKey = some entityKey then evt.headers
              else evt.headers.insert "kafkaman-entity-key" entityKey
            payload := payload
            occurredAt := evt.occurredAt } := by
  unfold prepareInsert
  cases hreserved : reservedHeader evt.headers with
  | some key =>
      simp [bind_eq_ok, throw_eq_ok]
  | none =>
      simp only [bind_eq_ok, pure_eq_ok, mapError_eq_ok, catchApplicationPanic_eq_ok, true_and,
        eq_comm (a := insert)]
      constructor
      · rintro ⟨partitionKey, hpartition, entityKey, hentity, serialized, hvalue, payload, rfl,
          hinsert⟩
        exact ⟨partitionKey, hpartition, entityKey, hentity, payload, hvalue, hinsert⟩
      · rintro ⟨partitionKey, hpartition, entityKey, hentity, payload, hvalue, hinsert⟩
        exact ⟨partitionKey, hpartition, entityKey, hentity, _, hvalue, payload, rfl, hinsert⟩

/-- `WHERE` of the supersede statement, on the rows the snapshot shows. -/
def supersedes (visible : Uuid → Bool) (entityKey : String) (row : OutboxRow) : Bool :=
  visible row.messageId && row.entityKey = some entityKey && row.status = .pending

def supersedePendingOutboxRows (visible : Uuid → Bool) (entityKey : String) (t : OutboxTable) :
    OutboxTable :=
  t.updateWhere (supersedes visible entityKey) supersedeRow messageId_supersedeRow

def uniqueViolation : Error :=
  .sqlx "duplicate key value violates unique constraint"

/-- The statements of `enqueue_inner`, committed together.  A request without an idempotency
identity leaves a `Failed` audit row behind and is refused all the same. -/
def enqueueInner (visible : Uuid → Bool) (now : Timestamp) (order : Nat)
    (insert : InsertOutboxRow) (t : OutboxTable) : OutboxTable × Except Error Unit :=
  match insert.idempotencyKey with
  | none =>
      match t.insert? (insert.row now order .failed (some "missing idempotency identity")) with
      | none => (t, .error uniqueViolation)
      | some t' => (t', .error .missingIdempotencyKey)
  | some _ =>
      let superseded := supersedePendingOutboxRows visible insert.entityKey t
      match superseded.insert? (insert.row now order .pending none) with
      -- The nested transaction is rolled back with the supersede in it.
      | none => (t, .error uniqueViolation)
      | some t' => (t', .ok ())

/-! ## What one enqueue does to the table -/

/-- The row an enqueue that reaches its `INSERT` writes. -/
def InsertOutboxRow.inserted (insert : InsertOutboxRow) (now : Timestamp) (order : Nat) :
    OutboxRow :=
  match insert.idempotencyKey with
  | none => insert.row now order .failed (some "missing idempotency identity")
  | some _ => insert.row now order .pending none

theorem enqueueInner_of_hasKey {visible : Uuid → Bool} {now : Timestamp} {order : Nat}
    {insert : InsertOutboxRow} {t : OutboxTable} (h : t.HasKey insert.messageId) :
    (enqueueInner visible now order insert t).1 = t := by
  cases hkey : insert.idempotencyKey with
  | none =>
      have hins : t.insert? (insert.row now order .failed (some "missing idempotency identity"))
          = none :=
        Table.insert?_eq_none.2 h
      simp [enqueueInner, hkey, hins]
  | some k =>
      have hins : (supersedePendingOutboxRows visible insert.entityKey t).insert?
          (insert.row now order .pending none) = none :=
        Table.insert?_eq_none.2 (Table.hasKey_updateWhere.2 h)
      simp [enqueueInner, hkey, hins]

/-- Which rows an enqueue supersedes: none if it is refused. -/
def InsertOutboxRow.overtakes (insert : InsertOutboxRow) (visible : Uuid → Bool)
    (row : OutboxRow) : Bool :=
  insert.idempotencyKey.isSome && supersedes visible insert.entityKey row

theorem mem_enqueueInner {visible : Uuid → Bool} {now : Timestamp} {order : Nat}
    {insert : InsertOutboxRow} {t : OutboxTable} (h : ¬ t.HasKey insert.messageId)
    {r : OutboxRow} :
    r ∈ (enqueueInner visible now order insert t).1 ↔
      (∃ r₀ ∈ t, (if insert.overtakes visible r₀ then supersedeRow r₀ else r₀) = r) ∨
        r = insert.inserted now order := by
  cases hkey : insert.idempotencyKey with
  | none =>
      cases hins : t.insert? (insert.row now order .failed (some "missing idempotency identity")) with
      | none =>
          exact absurd (Table.insert?_eq_none.1 hins) h
      | some t' =>
          have hmem : r ∈ t' ↔ _ := Table.mem_of_insert? hins
          simp [enqueueInner, hkey, hins, InsertOutboxRow.inserted, InsertOutboxRow.overtakes, hmem]
  | some k =>
      -- Superseding moves no primary key, so the insert finds no conflict either.
      have hfree : ¬ (supersedePendingOutboxRows visible insert.entityKey t).HasKey
          insert.messageId := by
        intro hhas
        exact h (Table.hasKey_updateWhere.1 hhas)
      cases hins : (supersedePendingOutboxRows visible insert.entityKey t).insert?
          (insert.row now order .pending none) with
      | none =>
          exact absurd (Table.insert?_eq_none.1 hins) hfree
      | some t' =>
          have hmem : r ∈ t' ↔ _ := Table.mem_of_insert? hins
          have hupd : r ∈ supersedePendingOutboxRows visible insert.entityKey t ↔
              ∃ r₀ ∈ t, (if supersedes visible insert.entityKey r₀ then supersedeRow r₀ else r₀)
                = r :=
            Table.mem_updateWhere
          simp [enqueueInner, hkey, hins, InsertOutboxRow.inserted, InsertOutboxRow.overtakes,
            hmem, hupd]

section Inserted

variable {insert : InsertOutboxRow} {now : Timestamp} {order : Nat}

@[simp] theorem enqueueOrder_inserted : (insert.inserted now order).enqueueOrder = order := by
  unfold InsertOutboxRow.inserted
  split <;> rfl

@[simp] theorem entityKey_inserted :
    (insert.inserted now order).entityKey = some insert.entityKey := by
  unfold InsertOutboxRow.inserted
  split <;> rfl

theorem messageId_inserted : (insert.inserted now order).messageId = insert.messageId := by
  unfold InsertOutboxRow.inserted
  split <;> rfl

theorem status_inserted :
    (insert.inserted now order).status =
      if insert.idempotencyKey.isSome then .pending else .failed := by
  unfold InsertOutboxRow.inserted
  split <;> simp_all [InsertOutboxRow.row]

end Inserted

end Outbox
end Kafkaman
