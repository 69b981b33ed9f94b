import Kafkaman.Broker.Wire
import Kafkaman.Ingest.Accounting
import Kafkaman.Outbox.Contents

/-!
# EndToEnd.Passage — an accepted envelope, stored, published and decoded

Between `enqueue` and a consumer's `Envelope` the metadata of a message is spread over columns and
headers, an entity-key header is slipped in on the way, and the trace context goes through its
constructor twice.  None of it shows at the other end: the consumer holds the envelope that was
enqueued, less its trace headers, and the trace context that was published.

* `Holds`, `holds_of_enqueue` — what a stored row has of its envelope;
* `Restores` — what is assumed of the libraries and of the payload type;
* `envelope_round_trip` — from `enqueue` to the consumer.
-/

namespace Kafkaman
namespace EndToEnd

open Lib Outbox Broker

variable {P : Type}

/-! ## The stored row -/

/-- What a stored row has of the envelope it was written from. -/
structure Holds (message : KafkaMessage P) (evt : Envelope P) (row : OutboxRow) : Prop where
  messageId : row.messageId = evt.messageId
  correlationId : row.correlationId = evt.correlationId
  causationId : row.causationId = evt.causationId
  idempotencyKey : row.idempotencyKey = evt.idempotencyKey.map IdempotencyIdentity.key
  idempotencySource : row.idempotencySource = evt.idempotencyKey.bind IdempotencyIdentity.source
  occurredAt : row.occurredAt = evt.occurredAt
  payload : message.toValue evt.payload = .returned (.ok row.payload)
  own : OwnHeaders row.headers
  user : row.headers.filterKeys isUserHeader =
    evt.headers.filterKeys fun key => !isTraceHeader key

theorem frozen_inserted {insert : InsertOutboxRow} {now : Timestamp} {order : Nat} :
    (insert.inserted now order).frozen = (insert.row now order .pending none).frozen := by
  unfold InsertOutboxRow.inserted
  split <;> rfl

/-- Without the reserved headers a row's headers are the envelope's: the entity key is one of
them, and an envelope with any is refused. -/
theorem filterKeys_prepared {headers : HeaderMap} (hreserved : reservedHeader headers = none)
    (entityKey : String) (keyed : Prop) [Decidable keyed] :
    (if keyed then headers else headers.insert "kafkaman-entity-key" entityKey).filterKeys
        isUserHeader = headers.filterKeys fun key => !isTraceHeader key := by
  have hinserted : (headers.insert "kafkaman-entity-key" entityKey).filterKeys isUserHeader =
      headers.filterKeys isUserHeader :=
    SortedMap.filterKeys_insert headers entityKey (by decide)
  have hown : headers.filterKeys isUserHeader =
      headers.filterKeys fun key => !isTraceHeader key := by
    refine SortedMap.ext (List.filter_congr fun header hheader => ?_)
    have hplain : ¬ isReservedHeader header.1 = true :=
      not_reserved_of_reservedHeader hreserved (List.mem_map_of_mem hheader)
    simp [isUserHeader, hplain]
  split
  · exact hown
  · exact hinserted.trans hown

/-- No statement touches what an enqueue has written of the envelope. -/
theorem holds_of_enqueue {message : KafkaMessage P} {descriptor : MessageDescriptor}
    {evt : Envelope P} {captured : Option TraceContext} {insert : InsertOutboxRow}
    {row : OutboxRow} {now : Timestamp} {order : Nat}
    (hprepare : prepareInsert message descriptor evt captured = .ok insert)
    (hrow : row.frozen = (insert.inserted now order).frozen) :
    Holds message evt row ∧ row.trace = captured := by
  have hprepared := preparedInsert_of_prepareInsert hprepare
  rcases prepareInsert_eq_ok.1 hprepare with ⟨hreserved, partitionKey, -, entityKey, -, payload,
    hvalue, rfl⟩
  rw [frozen_inserted] at hrow
  have hheaders := congrArg OutboxRow.headers hrow
  have hpayload : row.payload = payload := congrArg OutboxRow.payload hrow
  refine ⟨?_, congrArg OutboxRow.trace hrow⟩
  refine
    { messageId := congrArg OutboxRow.messageId hrow
      correlationId := congrArg OutboxRow.correlationId hrow
      causationId := congrArg OutboxRow.causationId hrow
      idempotencyKey := congrArg OutboxRow.idempotencyKey hrow
      idempotencySource := congrArg OutboxRow.idempotencySource hrow
      occurredAt := congrArg OutboxRow.occurredAt hrow
      payload := ?_
      own := ?_
      user := ?_ }
  · rw [hpayload]
    exact hvalue
  · change OwnHeaders row.frozen.headers
    rw [hheaders]
    exact hprepared.headers
  · change row.frozen.headers.filterKeys isUserHeader = _
    rw [hheaders]
    exact filterKeys_prepared hreserved entityKey _

/-! ## The passage -/

/-- The instants that RFC 3339 has a text for: years 0 to 9999. -/
def FourDigitYear (t : Timestamp) : Prop :=
  -62167219200000000 ≤ t ∧ t < 253402300800000000

/-- The libraries read back what they wrote, and so does the payload type. -/
structure Restores (codec : Codec) (message : ConsumedMessage P) (evt : Envelope P) : Prop where
  lawful : codec.Lawful
  formats : ∀ t, FourDigitYear t → ∃ text, codec.formatRfc3339 t = .ok text
  source : ∀ source ∈ evt.idempotencyKey.bind IdempotencyIdentity.source,
    codec.parseJson (codec.jsonText source) = some source
  payload : ∀ value, message.toValue evt.payload = .returned (.ok value) →
    ∃ bytes, codec.jsonBytes value = .ok bytes ∧
      message.fromSlice bytes = .returned (.ok evt.payload)

/-- What a consumer's scan has filed, decoded. -/
theorem recordEnvelope_of_readsBack {codec : Codec} {message : ConsumedMessage P}
    {evt : Envelope P} {identity : IdempotencyIdentity} {row : OutboxRow} {occurredAt : String}
    {trace : Option TraceContext} {arrival : Arrival} {record : KafkaRecord} {bytes : Bytes}
    {headers : RecordHeaders} {topic : String} (hrestores : Restores codec message evt)
    (hidentity : evt.idempotencyKey = some identity)
    (hholds : Holds message.toKafkaMessage evt row)
    (hrender : Rfc9557.render codec evt.occurredAt = .ok occurredAt)
    (hread : ReadsBack codec row trace occurredAt headers)
    (htopic : record.topic = topic) (hpayload : record.payload = some bytes)
    (hslice : message.fromSlice bytes = .returned (.ok evt.payload)) :
    recordEnvelope message codec arrival record topic headers = .ok
      { envelope := { evt with headers := evt.headers.filterKeys fun key => !isTraceHeader key }
        key := record.key } := by
  have hlawful := hrestores.lawful
  have hkey : row.idempotencyKey = some identity.key := by
    rw [hholds.idempotencyKey, hidentity]
    rfl
  have hsource : (row.idempotencySource.map codec.jsonText).bind codec.parseJson =
      identity.source := by
    have hstored : row.idempotencySource = identity.source := by
      rw [hholds.idempotencySource, hidentity]
      rfl
    cases hsome : identity.source with
    | none =>
        rw [hstored, hsome]
        rfl
    | some source =>
        rw [hstored, hsome]
        refine hrestores.source source ?_
        rw [hidentity]
        exact hsome
  refine recordEnvelope_eq_ok.2 ⟨htopic, evt.payload, ?_, identity, ?_, some evt.occurredAt, ?_,
    some evt.messageId, ?_, some evt.correlationId, ?_, evt.causationId, ?_, ?_⟩
  · rw [decodePayload, hpayload]
    simp only [hslice]
  · rw [decodeIdentity, hread.idempotencyKey, hkey]
    simp only [Option.map_some, IdempotencyKey.fromHex_toHex, hread.idempotencySource, hsource]
  · rw [hread.occurredAt]
    simp only [parseOptional, Rfc9557.parse_render hlawful hrender]
    rfl
  · rw [hread.messageId, hholds.messageId]
    simp only [parseOptional, parseUuidHeader, hlawful.parseUuid_uuidText]
    rfl
  · rw [hread.correlationId, hholds.correlationId]
    simp only [parseOptional, parseUuidHeader, hlawful.parseUuid_uuidText]
    rfl
  · rw [hread.causationId, hholds.causationId]
    cases evt.causationId with
    | none =>
        rfl
    | some id =>
        simp only [Option.map_some, parseOptional, parseUuidHeader, hlawful.parseUuid_uuidText]
        rfl
  · rw [hread.user, hholds.user, ← hidentity]
    rfl

/-- What is enqueued arrives.  `captured` is the context the enqueue found, `passed` the one of the
publishing span; `row` is the stored row at any later point of its life. -/
theorem envelope_round_trip {codec : Codec} {message : ConsumedMessage P}
    {descriptor : MessageDescriptor} {evt : Envelope P} {identity : IdempotencyIdentity}
    {captured passed : Option TraceContext} {insert : InsertOutboxRow} {row : OutboxRow}
    {now : Timestamp} {order : Nat} (hrestores : Restores codec message evt)
    (hyear : FourDigitYear evt.occurredAt) (hidentity : evt.idempotencyKey = some identity)
    (hpassed : ∀ c ∈ passed, ∃ traceparent tracestate,
      TraceContext.fromParts traceparent tracestate = some c)
    (hprepare : prepareInsert message.toKafkaMessage descriptor evt captured = .ok insert)
    (hrow : row.frozen = (insert.inserted now order).frozen) :
    ∃ record, publishRowTraced codec row.fromPg passed = .ok record ∧
      ∀ arrival partition offset, ∃ decoded,
        recordEnvelope message codec arrival (record.land partition offset) row.topic
          (RecordHeaders.of (record.land partition offset)) = .ok decoded ∧
        decoded.envelope =
          { evt with headers := evt.headers.filterKeys fun key => !isTraceHeader key } ∧
        (RecordHeaders.of (record.land partition offset)).traceContext =
          (passed <|> row.fromPg.trace) ∧
        ((∀ c ∈ captured, ∃ traceparent tracestate,
            TraceContext.fromParts traceparent tracestate = some c) →
          row.fromPg.trace = captured) := by
  rcases holds_of_enqueue hprepare hrow with ⟨hstored, hcaptured⟩
  have hholds : Holds message.toKafkaMessage evt row.fromPg :=
    { messageId := hstored.messageId
      correlationId := hstored.correlationId
      causationId := hstored.causationId
      idempotencyKey := hstored.idempotencyKey
      idempotencySource := hstored.idempotencySource
      occurredAt := hstored.occurredAt
      payload := hstored.payload
      own := hstored.own
      user := hstored.user }
  rcases hrestores.formats evt.occurredAt hyear with ⟨text, hformat⟩
  have hrender : Rfc9557.render codec evt.occurredAt = .ok (text ++ "[UTC]") := by
    rw [Rfc9557.render, hformat]
    rfl
  rcases hrestores.payload _ hholds.payload with ⟨bytes, hbytes, hslice⟩
  obtain ⟨record, hpublish, htopic, hpayload, hheaders⟩ :=
    exists_publishRowTraced passed hbytes (hholds.occurredAt ▸ hrender)
  refine ⟨record, hpublish, ?_⟩
  intro arrival partition offset
  have hread : ReadsBack codec row.fromPg passed (text ++ "[UTC]")
      (RecordHeaders.of (record.land partition offset)) :=
    readsBack_of_wire hholds.own (by rw [headers_land, hheaders])
  refine ⟨_, recordEnvelope_of_readsBack hrestores hidentity hholds hrender hread htopic
    (congrArg some hpayload) hslice, rfl, ?_, ?_⟩
  -- The context on the wire is parsed again, which changes nothing in a context that was parsed.
  · rw [hread.traceContext]
    refine TraceContext.fromParts_of_produced fun c hc => ?_
    cases passed with
    | some context =>
        exact hpassed c hc
    | none =>
        exact ⟨_, _, hc⟩
  · intro hproduced
    rw [← hcaptured] at hproduced ⊢
    exact TraceContext.fromParts_of_produced hproduced

/-! ### A labelled text -/

namespace Labelled

def context : TraceContext :=
  { traceparent := "00-0123456789abcdef0123456789abcdef-0123456789abcdef-01"
    tracestate := some "a=1" }

/-- A text with a header of its own and one left over from an incoming request. -/
def envelope : Envelope String :=
  { messageId := 1
    idempotencyKey := some { key := .ofByte 1, source := some .null }
    correlationId := 2
    causationId := some 3
    headers := (SortedMap.empty.insert "TraceParent" "stale").insert "tenant" "t"
    payload := "text"
    occurredAt := 4 }

theorem restores : Restores Spelling.codec Spelling.textMessage envelope :=
  { lawful := Spelling.codec_lawful
    formats := fun _ h => Spelling.exists_format h
    source := by
      intro source hsource
      cases hsource
      rfl
    payload := by
      intro value hvalue
      cases hvalue
      exact ⟨_, rfl, congrArg AppCall.returned (Spelling.stringFromSlice_jsonText "text")⟩ }

end Labelled

open Labelled in
theorem envelope_round_trip_labelled :
    ∃ insert record decoded,
      prepareInsert Spelling.textMessage.toKafkaMessage Ingest.textConsumer.descriptor envelope
        (some context) = .ok insert ∧
      publishRowTraced Spelling.codec (insert.inserted 5 1).fromPg none = .ok record ∧
      recordEnvelope Spelling.textMessage Spelling.codec { messageId := 9, correlationId := 9, now := 9 }
        (record.land 0 0) "texts"
        (RecordHeaders.of (record.land 0 0)) = .ok decoded ∧
      decoded.envelope.messageId = 1 ∧ decoded.envelope.headers.entries = [("tenant", "t")] ∧
      (RecordHeaders.of (record.land 0 0)).traceContext = some context := by
  have hproduced : ∀ c ∈ some context, ∃ traceparent tracestate,
      TraceContext.fromParts traceparent tracestate = some c := by
    intro c hc
    cases hc
    exact ⟨some context.traceparent, context.tracestate, by decide⟩
  obtain ⟨insert, hprepare, htopic⟩ : ∃ insert,
      prepareInsert Spelling.textMessage.toKafkaMessage Ingest.textConsumer.descriptor envelope
        (some context) = .ok insert ∧ (insert.inserted 5 1).topic = "texts" :=
    ⟨_, rfl, rfl⟩
  have hrow : (insert.inserted 5 1).frozen = (insert.inserted 5 1).frozen := rfl
  have hnone : ∀ c ∈ (none : Option TraceContext), ∃ traceparent tracestate,
      TraceContext.fromParts traceparent tracestate = some c := fun c hc => by cases hc
  obtain ⟨record, hpublish, hdecoded⟩ :=
    envelope_round_trip restores ⟨by decide, by decide⟩ rfl hnone hprepare hrow
  obtain ⟨decoded, hread, henvelope, htrace, hcaptured⟩ :=
    hdecoded { messageId := 9, correlationId := 9, now := 9 } 0 0
  rw [htopic] at hread
  refine ⟨insert, record, decoded, hprepare, hpublish, hread, ?_, ?_, ?_⟩
  · rw [henvelope]
    rfl
  · rw [henvelope]
    decide
  · rw [htrace, hcaptured hproduced]
    rfl

end EndToEnd
end Kafkaman
