import Kafkaman.Lib.Fallible
import Kafkaman.Core.Error
import Kafkaman.Core.Trace
import Kafkaman.Broker.Record

/-!
# Broker.Decode — from a record to an envelope, or to a reason it has none

`RecordHeaders.of` splits the headers into their three namespaces in one pass; `recordEnvelope`
decodes payload and reserved metadata in the source's order, so the first defect of a record is the
one reported.  `IngestError.ingestFailureKind` is the poison-record policy: which errors are a
property of the record.
-/

namespace Kafkaman
namespace Broker

open Lib

/-! ## Errors -/

/-- `kafkaman_rdkafka::Error`, restricted to the ingest path. -/
inductive IngestError where
  | kafka (text : String)
  | sqlx (error : Error)
  | database (text : String)
  | serde (text : String)
  | missingPayload
  | payloadPanicked (message : String)
  | missingIdempotencyKey
  | invalidHeader (name message : String)
  | unexpectedTopic (expected actual : String)
  | consecutiveSkipLimitExceeded (limit : Nat) (partition offset : Int)
  deriving DecidableEq

def IngestError.ingestFailureKind : IngestError → Option ReceivedIngestFailureKind
  | .missingPayload => some .missingPayload
  | .payloadPanicked _ => some .invalidPayload
  | .missingIdempotencyKey => some .missingIdempotencyKey
  | .serde _ => some .invalidPayload
  | .invalidHeader _ _ => some .invalidHeader
  | .unexpectedTopic _ _ => some .unexpectedTopic
  | .kafka _ | .sqlx _ | .database _ | .consecutiveSkipLimitExceeded _ _ _ => none

def IngestError.display (codec : Codec) : IngestError → String
  | .kafka text | .database text | .serde text => text
  | .sqlx error => error.display codec.uuidText
  | .missingPayload => "Kafka record had no payload"
  | .payloadPanicked message => "payload deserializer panicked: " ++ message
  | .missingIdempotencyKey => "Kafka record must include kafkaman-idempotency-key"
  | .invalidHeader name message => "invalid Kafka header `" ++ name ++ "`: " ++ message
  | .unexpectedTopic expected actual =>
      "Kafka record arrived on topic `" ++ actual ++ "` while `" ++ expected ++ "` was expected"
  | .consecutiveSkipLimitExceeded limit partition offset =>
      "consecutive ingest skip limit " ++ toString limit ++ " reached at partition " ++
        toString partition ++ " offset " ++ toString offset

/-! ## Headers -/

structure RecordHeaders where
  user : HeaderMap
  reserved : HeaderMap
  trace : HeaderMap

namespace RecordHeaders

def empty : RecordHeaders :=
  { user := SortedMap.empty
    reserved := SortedMap.empty
    trace := SortedMap.empty }

/-- One header of the scan: reserved and trace keys keep their first value, user keys their last. -/
def add (headers : RecordHeaders) (header : RecordHeader) : RecordHeaders :=
  match header.value with
  | none => headers
  | some bytes =>
      let value := Utf8.fromUtf8Lossy bytes
      let lowercased := asciiLower header.key
      if isTraceHeader lowercased then
        { headers with trace := headers.trace.insertIfAbsent lowercased value }
      else if reservedHeaderNamespace.toList.isPrefixOf lowercased.toList then
        { headers with reserved := headers.reserved.insertIfAbsent lowercased value }
      else
        { headers with user := headers.user.insert header.key value }

def of (record : KafkaRecord) : RecordHeaders :=
  record.headers.foldl add empty

theorem user_of_add {headers : RecordHeaders} {header : RecordHeader}
    (h : ∀ key ∈ headers.user.keys, ¬ isReservedHeader key = true) :
    ∀ key ∈ (add headers header).user.keys, ¬ isReservedHeader key = true := by
  unfold add
  cases header.value with
  | none =>
      exact h
  | some bytes =>
      dsimp only
      split
      · exact h
      · split
        · exact h
        · rename_i hplain
          intro key hkey
          rcases SortedMap.mem_keys_insert hkey with rfl | hold
          · exact hplain
          · exact h key hold

theorem reservedHeader_user (record : KafkaRecord) :
    reservedHeader (of record).user = none := by
  have hscan : ∀ (scanned : List RecordHeader) (headers : RecordHeaders),
      (∀ key ∈ headers.user.keys, ¬ isReservedHeader key = true) →
      ∀ key ∈ (scanned.foldl add headers).user.keys, ¬ isReservedHeader key = true := by
    intro scanned
    induction scanned with
    | nil =>
        intro headers h
        exact h
    | cons header rest ih =>
        intro headers h
        exact ih _ (user_of_add h)
  exact List.find?_eq_none.2 (hscan record.headers empty fun key hkey => (nomatch hkey))

/-- The producer's trace context, if the record carries a usable one. -/
def traceContext (headers : RecordHeaders) : Option TraceContext :=
  TraceContext.fromParts (headers.trace.get? "traceparent") (headers.trace.get? "tracestate")

/-- A reserved header's value. -/
def get (headers : RecordHeaders) (name : String) : Option String :=
  headers.reserved.get? name

end RecordHeaders

/-- `all_headers`: every header of the record, a list of values per key. -/
def allHeaders (record : KafkaRecord) : Json :=
  let grouped : SortedMap String (List String) :=
    record.headers.foldl
      (fun grouped header =>
        let value := (header.value.map Utf8.fromUtf8Lossy).getD ""
        grouped.insert header.key ((grouped.get? header.key).getD [] ++ [value]))
      SortedMap.empty
  .object (grouped.entries.map fun entry => (entry.1, .array (entry.2.map .string)))

def ingestFailureRecord (descriptor : MessageDescriptor) (record : KafkaRecord)
    (kind : ReceivedIngestFailureKind) (error : String) : ReceivedIngestFailure :=
  { sourceTopic := record.topic
    sourcePartition := record.partition
    sourceOffset := record.offset
    key := record.key
    headers := allHeaders record
    payload := record.payload
    messageType := descriptor.messageType
    expectedTopic := descriptor.topic
    kind := kind
    error := error }

/-! ## Envelopes -/

/-- A message type as a consumer needs it: the `DeserializeOwned` impl comes on top. -/
structure ConsumedMessage (P : Type) extends KafkaMessage P where
  /-- `serde_json::from_slice`. -/
  fromSlice : Bytes → AppCall (Except String P)

/-- What `Envelope::new` draws from its environment. -/
structure Arrival where
  messageId : Uuid
  correlationId : Uuid
  now : Timestamp

structure DecodedRecord (P : Type) where
  envelope : Envelope P
  key : Option Bytes

def parseUuidHeader (codec : Codec) (name value : String) : Except IngestError Uuid :=
  (codec.parseUuid value).mapError (IngestError.invalidHeader name)

/-- An optional header that must parse when it is there. -/
def parseOptional {α : Type} (parse : String → Except IngestError α) :
    Option String → Except IngestError (Option α)
  | none => .ok none
  | some value => (parse value).map some

section Envelope

variable {P : Type} (message : ConsumedMessage P) (codec : Codec)

/-- The payload, through the application's deserializer. -/
def decodePayload (record : KafkaRecord) : Except IngestError P :=
  match record.payload with
  | none => .error .missingPayload
  | some bytes =>
      match message.fromSlice bytes with
      | .panicked text => .error (.payloadPanicked text)
      | .returned (.error text) => .error (.serde text)
      | .returned (.ok payload) => .ok payload

/-- The identity; an unparseable source is dropped, an unparseable digest is not. -/
def decodeIdentity (headers : RecordHeaders) : Except IngestError IdempotencyIdentity :=
  match headers.get "kafkaman-idempotency-key" with
  | none => .error .missingIdempotencyKey
  | some text =>
      match IdempotencyKey.fromHex text with
      | .error e => .error (.invalidHeader "kafkaman-idempotency-key" e.display)
      | .ok key =>
          .ok
            { key := key
              source := (headers.get "kafkaman-idempotency-source").bind codec.parseJson }

def recordEnvelope (arrival : Arrival) (record : KafkaRecord) (expectedTopic : String)
    (headers : RecordHeaders) : Except IngestError (DecodedRecord P) := do
  if record.topic ≠ expectedTopic then
    throw (.unexpectedTopic expectedTopic record.topic)
  let payload ← decodePayload message record
  let identity ← decodeIdentity codec headers
  let occurredAt ← parseOptional
    (fun text => (Rfc9557.parse codec text).mapError
      (IngestError.invalidHeader "kafkaman-occurred-at"))
    (headers.get "kafkaman-occurred-at")
  let messageId ← parseOptional (parseUuidHeader codec "kafkaman-message-id")
    (headers.get "kafkaman-message-id")
  let correlationId ← parseOptional (parseUuidHeader codec "kafkaman-correlation-id")
    (headers.get "kafkaman-correlation-id")
  let causationId ← parseOptional (parseUuidHeader codec "kafkaman-causation-id")
    (headers.get "kafkaman-causation-id")
  return {
    envelope :=
      -- What the producer left out is stamped on arrival.
      { messageId := messageId.getD arrival.messageId
        idempotencyKey := some identity
        correlationId := correlationId.getD arrival.correlationId
        causationId := causationId
        headers := headers.user
        payload := payload
        occurredAt := occurredAt.getD arrival.now }
    key := record.key }

variable {message codec}

/-- What a record has to carry, and what becomes of it; an arrival only fills in what is missing. -/
theorem recordEnvelope_eq_ok {arrival : Arrival} {record : KafkaRecord} {expectedTopic : String}
    {headers : RecordHeaders} {decoded : DecodedRecord P} :
    recordEnvelope message codec arrival record expectedTopic headers = .ok decoded ↔
      record.topic = expectedTopic ∧
      ∃ payload, decodePayload message record = .ok payload ∧
      ∃ identity, decodeIdentity codec headers = .ok identity ∧
      ∃ occurredAt, parseOptional
          (fun text => (Rfc9557.parse codec text).mapError
            (IngestError.invalidHeader "kafkaman-occurred-at"))
          (headers.get "kafkaman-occurred-at") = .ok occurredAt ∧
      ∃ messageId, parseOptional (parseUuidHeader codec "kafkaman-message-id")
          (headers.get "kafkaman-message-id") = .ok messageId ∧
      ∃ correlationId, parseOptional (parseUuidHeader codec "kafkaman-correlation-id")
          (headers.get "kafkaman-correlation-id") = .ok correlationId ∧
      ∃ causationId, parseOptional (parseUuidHeader codec "kafkaman-causation-id")
          (headers.get "kafkaman-causation-id") = .ok causationId ∧
        decoded =
          { envelope :=
              { messageId := messageId.getD arrival.messageId
                idempotencyKey := some identity
                correlationId := correlationId.getD arrival.correlationId
                causationId := causationId
                headers := headers.user
                payload := payload
                occurredAt := occurredAt.getD arrival.now }
            key := record.key } := by
  unfold recordEnvelope
  by_cases htopic : record.topic = expectedTopic
  · simp only [htopic, ne_eq, not_true_eq_false, if_false, bind_eq_ok, pure_eq_ok, true_and,
      eq_comm (a := decoded)]
  · simp [htopic, bind_eq_ok, throw_eq_ok]

theorem recordEnvelope_ok {arrival : Arrival} {record : KafkaRecord} {expectedTopic : String}
    {headers : RecordHeaders} {decoded : DecodedRecord P}
    (h : recordEnvelope message codec arrival record expectedTopic headers = .ok decoded) :
    record.topic = expectedTopic ∧
      decodePayload message record = .ok decoded.envelope.payload ∧
      ∃ identity, decodeIdentity codec headers = .ok identity ∧
        decoded.envelope.idempotencyKey = some identity := by
  rcases recordEnvelope_eq_ok.1 h with ⟨htopic, payload, hpayload, identity, hidentity, _, _, _, _,
    _, _, _, _, rfl⟩
  exact ⟨htopic, hpayload, identity, hidentity, rfl⟩

theorem headers_of_recordEnvelope {arrival : Arrival} {record : KafkaRecord}
    {expectedTopic : String} {headers : RecordHeaders} {decoded : DecodedRecord P}
    (h : recordEnvelope message codec arrival record expectedTopic headers = .ok decoded) :
    decoded.envelope.headers = headers.user := by
  rcases recordEnvelope_eq_ok.1 h with ⟨_, _, _, _, _, _, _, _, _, _, _, _, _, rfl⟩
  rfl

theorem ingestFailureKind_of_parseOptional {α : Type} {parse : String → Except IngestError α}
    {value : Option String} {error : IngestError}
    (hparse : ∀ text e, parse text = .error e → (e.ingestFailureKind).isSome = true)
    (h : parseOptional parse value = .error error) :
    (error.ingestFailureKind).isSome = true := by
  cases value with
  | none =>
      cases h
  | some text =>
      cases hresult : parse text with
      | ok a =>
          rw [parseOptional, hresult] at h
          cases h
      | error e =>
          rw [parseOptional, hresult] at h
          cases h
          exact hparse text _ hresult

theorem ingestFailureKind_of_parseUuidHeader {name text : String} {error : IngestError}
    (h : parseUuidHeader codec name text = .error error) :
    (error.ingestFailureKind).isSome = true := by
  rcases mapError_eq_error.1 h with ⟨_, _, rfl⟩
  rfl

theorem ingestFailureKind_of_recordEnvelope {arrival : Arrival} {record : KafkaRecord}
    {expectedTopic : String} {headers : RecordHeaders} {error : IngestError}
    (h : recordEnvelope message codec arrival record expectedTopic headers = .error error) :
    (error.ingestFailureKind).isSome = true := by
  unfold recordEnvelope at h
  split at h
  · rcases bind_eq_error.1 h with h | ⟨_, h, _⟩
    · cases h
      rfl
    · cases h
  · rcases bind_eq_error.1 h with h | ⟨_, _, h⟩
    -- The steps of `record_envelope` in their order; each raises an error with a kind.
    · unfold decodePayload at h
      split at h
      · cases h
        rfl
      · split at h <;> cases h <;> rfl
    rcases bind_eq_error.1 h with h | ⟨_, _, h⟩
    · unfold decodeIdentity at h
      split at h
      · cases h
        rfl
      · split at h <;> cases h
        rfl
    rcases bind_eq_error.1 h with h | ⟨_, _, h⟩
    · refine ingestFailureKind_of_parseOptional (fun text e he => ?_) h
      rcases mapError_eq_error.1 he with ⟨_, _, rfl⟩
      rfl
    iterate 3
      rcases bind_eq_error.1 h with h | ⟨_, _, h⟩
      · exact ingestFailureKind_of_parseOptional
          (fun text e => ingestFailureKind_of_parseUuidHeader) h
    cases h

end Envelope

end Broker
end Kafkaman
