import Kafkaman.Core.Basic
import Kafkaman.Core.Idempotency

/-!
# Core.Rows — messages, envelopes and the rows of the three tables

The columns are those the source's statements read or write.  Counters (`attempts`,
`enqueue_order`) are unbounded naturals, offsets and partitions are integers.

* `KafkaMessage` — the application's message type, its methods possibly unwinding;
* `Envelope` — a payload with its identity and causation;
* `OutboxRow`, `ReceivedRow`, `CacheRow` — the stored rows;
* `ReceivedMeta` — what a dispatch handler is shown of a received row.
-/

namespace Kafkaman

/-! ## Messages -/

structure MessageDescriptor where
  messageType : String
  topic : String
  deriving DecidableEq, Repr

/-- The application-owned surface of a message type: the two trait methods and the `Serialize`
impl.  Each is application code, so each may unwind. -/
structure KafkaMessage (P : Type) where
  partitionKey : P → AppCall (Option String)
  entityKey : P → AppCall String
  /-- `serde_json::to_value` on the payload. -/
  toValue : P → AppCall (Except String Json)

structure IdempotencyIdentity where
  key : IdempotencyKey
  source : Option Json

structure TraceContext where
  traceparent : String
  tracestate : Option String
  deriving DecidableEq, Repr

/-- A payload plus the metadata that travels with it. -/
structure Envelope (P : Type) where
  messageId : Uuid
  idempotencyKey : Option IdempotencyIdentity
  correlationId : Uuid
  causationId : Option Uuid
  headers : HeaderMap
  payload : P
  occurredAt : Timestamp

/-! ## Outbox -/

/-- A row of an outbox table; `enqueueOrder` is the column the table allocates from its sequence
at `INSERT`. -/
structure OutboxRow where
  messageId : Uuid
  idempotencyKey : Option IdempotencyKey
  idempotencySource : Option Json
  status : OutboxStatus
  attempts : Nat
  nextAttemptAt : Timestamp
  lastError : Option String
  claimId : Option Uuid
  claimedBy : Option String
  claimExpiresAt : Option Timestamp
  topic : String
  partitionKey : Option String
  entityKey : Option String
  correlationId : Uuid
  causationId : Option Uuid
  trace : Option TraceContext
  headers : HeaderMap
  payload : Json
  occurredAt : Timestamp
  createdAt : Timestamp
  publishedAt : Option Timestamp
  enqueueOrder : Nat

/-- `record_key`: the declared partition key, else the entity key. -/
def OutboxRow.recordKey (row : OutboxRow) : Option String :=
  row.partitionKey <|> row.entityKey

/-- A row a worker has taken, with the claim generation that authorises it to report. -/
structure ClaimedOutboxRow where
  row : OutboxRow
  claimId : Uuid

def ClaimedOutboxRow.messageId (claimed : ClaimedOutboxRow) : Uuid :=
  claimed.row.messageId

/-! ## Receive side -/

/-- One entry of a received row's audit trail. -/
structure ReceivedError where
  kind : ReceivedFailureKind
  title : String
  detail : String
  /-- Kept in the JSON text, so to the nanosecond. -/
  occurredAt : Instant
  stage : Option FailureStage
  deriving DecidableEq, Repr

/-- `ReceivedError::new`: the title follows from the class. -/
def ReceivedError.new (kind : ReceivedFailureKind) (detail : String) (occurredAt : Instant)
    (stage : Option FailureStage) : ReceivedError :=
  { kind := kind
    title := kind.title
    detail := detail
    occurredAt := occurredAt
    stage := stage }

structure ReceivedRow where
  messageId : Uuid
  idempotencyKey : IdempotencyKey
  idempotencySource : Option Json
  entityKey : Option String
  status : ReceiveStatus
  attempts : Nat
  nextAttemptAt : Option Timestamp
  errors : List ReceivedError
  lastFailedAt : Option Timestamp
  lastFailureKind : Option ReceivedFailureKind
  sourceTopic : String
  sourcePartition : Int
  sourceOffset : Int
  key : Option Bytes
  messageType : String
  messageVersion : Int
  headers : HeaderMap
  payload : Json
  correlationId : Option Uuid
  causationId : Option Uuid
  trace : Option TraceContext
  occurredAt : Timestamp
  createdAt : Timestamp
  processedAt : Option Timestamp

/-- A record that could not become a received row, kept verbatim for triage. -/
structure ReceivedIngestFailure where
  sourceTopic : String
  sourcePartition : Int
  sourceOffset : Int
  key : Option Bytes
  headers : Json
  payload : Option Bytes
  messageType : String
  expectedTopic : String
  kind : ReceivedIngestFailureKind
  error : String

/-- Read-only metadata handed to a dispatch handler. -/
structure ReceivedMeta where
  messageId : Uuid
  idempotencyKey : IdempotencyKey
  idempotencySource : Option Json
  entityKey : Option String
  messageType : String
  messageVersion : Int
  attempts : Nat
  headers : HeaderMap
  sourceTopic : String
  sourcePartition : Int
  sourceOffset : Int
  key : Option Bytes
  correlationId : Option Uuid
  causationId : Option Uuid
  occurredAt : Timestamp
  createdAt : Timestamp
  deleted : Bool

def ReceivedMeta.ofRow (row : ReceivedRow) : ReceivedMeta :=
  { messageId := row.messageId
    idempotencyKey := row.idempotencyKey
    idempotencySource := row.idempotencySource
    entityKey := row.entityKey
    messageType := row.messageType
    messageVersion := row.messageVersion
    attempts := row.attempts
    headers := row.headers
    sourceTopic := row.sourceTopic
    sourcePartition := row.sourcePartition
    sourceOffset := row.sourceOffset
    key := row.key
    correlationId := row.correlationId
    causationId := row.causationId
    occurredAt := row.occurredAt
    createdAt := row.createdAt
    -- Reserved: nothing writes a tombstone yet.
    deleted := false }

/-- The converged state of one entity and the log position it was applied from. -/
structure CacheRow where
  entityKey : String
  payload : Json
  appliedTopic : String
  appliedPartition : Int
  appliedOffset : Int
  deleted : Bool
  updatedAt : Timestamp

end Kafkaman
