import Kafkaman.Broker.Record

/-!
# Broker.Publish — from an outbox row to a record

`publishRowTraced` builds what `publish_row_traced` hands to the producer: the user headers in map
order without the trace keys, then the headers kafkaman manages.  What the broker does with it is
not here; `OutgoingRecord.land` is the record a consumer will see once it has a position.
-/

namespace Kafkaman
namespace Broker

open Lib.Utf8 (textBytes)

inductive PublishError where
  | serde (text : String)
  | invalidHeader (name message : String)
  | delivery (text : String)
  deriving DecidableEq, Repr

def PublishError.display : PublishError → String
  | .serde text => text
  | .invalidHeader name message => "invalid Kafka header `" ++ name ++ "`: " ++ message
  | .delivery text => "delivery failed: " ++ text

structure OutgoingRecord where
  topic : String
  key : Option String
  payload : Bytes
  headers : List (String × String)
  deriving DecidableEq

/-- W3C trace headers: the publishing span's context, else the one stored at enqueue. -/
def traceHeaders (trace stored : Option TraceContext) : List (String × String) :=
  match trace <|> stored with
  | none => []
  | some context =>
      ("traceparent", context.traceparent) ::
        match context.tracestate with
        | none => []
        | some state => [("tracestate", state)]

def managedHeaders (codec : Codec) (row : OutboxRow) (trace : Option TraceContext) :
    Except PublishError (List (String × String)) := do
  let occurredAt ← (Rfc9557.render codec row.occurredAt).mapError
    (PublishError.invalidHeader "kafkaman-occurred-at")
  return [("kafkaman-message-id", codec.uuidText row.messageId),
      ("kafkaman-correlation-id", codec.uuidText row.correlationId),
      ("kafkaman-occurred-at", occurredAt)] ++
    (row.idempotencyKey.map fun key => ("kafkaman-idempotency-key", key.toHex)).toList ++
    (row.idempotencySource.map fun source =>
      ("kafkaman-idempotency-source", codec.jsonText source)).toList ++
    (row.causationId.map fun id => ("kafkaman-causation-id", codec.uuidText id)).toList ++
    traceHeaders trace row.trace

def publishRowTraced (codec : Codec) (row : OutboxRow) (trace : Option TraceContext) :
    Except PublishError OutgoingRecord := do
  let payload ← (codec.jsonBytes row.payload).mapError PublishError.serde
  let managed ← managedHeaders codec row trace
  return {
    topic := row.topic
    key := row.recordKey
    payload := payload
    headers := row.headers.entries.filter (fun header => !isTraceHeader header.1) ++ managed }

/-- The record at its position in the log. -/
def OutgoingRecord.land (record : OutgoingRecord) (partition offset : Int) :
    KafkaRecord :=
  { topic := record.topic
    partition := partition
    offset := offset
    key := record.key.map textBytes
    payload := some record.payload
    headers := record.headers.map fun header =>
      { key := header.1
        value := some (textBytes header.2) } }

end Broker
end Kafkaman
