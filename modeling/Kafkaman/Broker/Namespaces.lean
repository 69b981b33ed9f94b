import Kafkaman.Broker.Spelling
import Kafkaman.Lib.Utf8
import Kafkaman.Received.Table

/-!
# Broker.Namespaces — what foreign headers can do to a record

Anyone may put headers on a record.  The scan at ingest files each of them under one of three
namespaces, and the insert into a received table refuses an envelope whose own headers intrude on
the reserved one.  The two tests are written differently, one on a lowercased text and one on bytes;
they agree on every key.

* `intrudes` — the test of the insert, on bytes;
* `intrudes_eq` — it is the test of the scan;
* `KeepsManaged` — what the scan has under a managed key stays there;
* `SameMetadata` — what two envelopes have in common when one set of headers supplied it to both;
* `foreign_headers_harmless` — a record's headers cannot pose as metadata, and headers that are
  appended to it cannot replace any.
-/

namespace Kafkaman
namespace Broker

open Lib Lib.Utf8

/-! ## The two tests -/

/-- The test of `reserved_header`, on the bytes of a key. -/
def intrudes (key : String) : Bool :=
  let bytes := utf8 key.toList
  let reserved := utf8 reservedHeaderNamespace.toList
  decide (reserved.length ≤ bytes.length) &&
    eqIgnoreAsciiCase (bytes.take reserved.length) reserved

/-- `reserved_header`. -/
def intrudingHeader (headers : HeaderMap) : Option String :=
  headers.keys.find? intrudes

theorem ascii_reservedHeaderNamespace :
    ∀ c ∈ reservedHeaderNamespace.toList, IsAscii c := by
  have hall : reservedHeaderNamespace.toList.all (fun c => decide (IsAscii c)) = true := by decide
  exact fun c hc => of_decide_eq_true (List.all_eq_true.1 hall c hc)

theorem intrudes_eq (key : String) : intrudes key = isReservedHeader key := by
  have hlower : (utf8 reservedHeaderNamespace.toList).map lowerByte =
      utf8 reservedHeaderNamespace.toList := by
    decide
  rw [Bool.eq_iff_iff]
  calc
    intrudes key = true ↔ utf8 reservedHeaderNamespace.toList <+:
        (utf8 key.toList).map lowerByte := by
      simp only [intrudes, eqIgnoreAsciiCase, hlower, Bool.and_eq_true, decide_eq_true_eq,
        List.map_take]
      constructor
      · rintro ⟨-, htake⟩
        rw [← htake]
        exact List.take_prefix _ _
      · intro hfront
        refine ⟨?_, (List.prefix_iff_eq_take.1 hfront).symm⟩
        simpa using hfront.length_le
    _ ↔ reservedHeaderNamespace.toList <+: key.toList.map Char.toLower := by
      rw [map_lower_utf8, utf8_isPrefix_iff ascii_reservedHeaderNamespace]
    _ ↔ isReservedHeader key = true := by
      rw [isReservedHeader, asciiLower, String.toList_ofList, List.isPrefixOf_iff_prefix]

theorem intrudingHeader_eq (headers : HeaderMap) : intrudingHeader headers = reservedHeader headers := by
  rw [intrudingHeader, reservedHeader, funext intrudes_eq]

/-- `str::eq_ignore_ascii_case` compares the lowered texts. -/
theorem eqIgnoreAsciiCase_iff {key name : String} :
    eqIgnoreAsciiCase (utf8 key.toList) (utf8 name.toList) = true ↔
      asciiLower key = asciiLower name := by
  rw [eqIgnoreAsciiCase, decide_eq_true_eq, map_lower_utf8, map_lower_utf8, asciiLower, asciiLower,
    String.ofList_inj]
  exact ⟨fun h => utf8_injective h, fun h => congrArg utf8 h⟩

theorem isTraceHeader_iff (key : String) :
    isTraceHeader key = true ↔
      eqIgnoreAsciiCase (utf8 key.toList) (utf8 "traceparent".toList) = true ∨
        eqIgnoreAsciiCase (utf8 key.toList) (utf8 "tracestate".toList) = true := by
  have hparent : asciiLower "traceparent" = "traceparent" := by decide
  have hstate : asciiLower "tracestate" = "tracestate" := by decide
  rw [eqIgnoreAsciiCase_iff, eqIgnoreAsciiCase_iff, hparent, hstate, isTraceHeader,
    Bool.or_eq_true, decide_eq_true_eq, decide_eq_true_eq]

/-! ## The scan -/

namespace RecordHeaders

variable {codec : Codec} {headers : RecordHeaders}

theorem trace_of_add {header : RecordHeader}
    (h : ∀ key ∈ headers.user.keys, isTraceHeader key = false) :
    ∀ key ∈ (add headers header).user.keys, isTraceHeader key = false := by
  unfold add
  cases header.value with
  | none =>
      exact h
  | some bytes =>
      dsimp only
      split
      · exact h
      · rename_i hplain
        split
        · exact h
        · intro key hkey
          rcases SortedMap.mem_keys_insert hkey with rfl | hold
          · -- the scan asks about the lowered key, the claim is about the key
            rw [isTraceHeader, asciiLower_asciiLower] at hplain
            exact Bool.eq_false_iff.2 hplain
          · exact h key hold

theorem isTraceHeader_user (record : KafkaRecord) :
    ∀ key ∈ (of record).user.keys, isTraceHeader key = false := by
  unfold of
  refine List.foldlRecOn record.headers add
    (motive := fun headers => ∀ key ∈ headers.user.keys, isTraceHeader key = false)
    ?_ ?_
  · intro key hkey
    cases hkey
  · intro headers h header _
    exact trace_of_add h

/-- Whatever `headers` has under a managed key, `later` has too. -/
structure KeepsManaged (headers later : RecordHeaders) : Prop where
  reserved : ∀ name value, headers.get name = some value → later.get name = some value
  trace : ∀ name value, headers.trace.get? name = some value → later.trace.get? name = some value

theorem get?_insertIfAbsent_of_some {map : HeaderMap} {name value key new : String}
    (h : map.get? name = some value) : (map.insertIfAbsent key new).get? name = some value := by
  rw [SortedMap.get?_insertIfAbsent, h]
  rfl

theorem keepsManaged_add (headers : RecordHeaders) (header : RecordHeader) :
    KeepsManaged headers (add headers header) := by
  unfold add
  cases header.value with
  | none =>
      exact { reserved := fun _ _ h => h, trace := fun _ _ h => h }
  | some bytes =>
      dsimp only
      split
      · exact { reserved := fun _ _ h => h, trace := fun _ _ h => get?_insertIfAbsent_of_some h }
      · split
        · exact { reserved := fun _ _ h => get?_insertIfAbsent_of_some h, trace := fun _ _ h => h }
        · exact { reserved := fun _ _ h => h, trace := fun _ _ h => h }

theorem keepsManaged_append (record : KafkaRecord) (appended : List RecordHeader) :
    KeepsManaged (of record)
      (of { record with headers := record.headers ++ appended }) := by
  unfold of
  rw [List.foldl_append]
  refine List.foldlRecOn appended add
    (motive := fun later => KeepsManaged (record.headers.foldl add empty) later)
    { reserved := fun _ _ h => h, trace := fun _ _ h => h } ?_
  intro later hlater header _
  have hadd := keepsManaged_add later header
  exact
    { reserved := fun name value h => hadd.reserved name value (hlater.reserved name value h)
      trace := fun name value h => hadd.trace name value (hlater.trace name value h) }

end RecordHeaders

/-! ## Envelopes -/

theorem traceparent_fromParts (traceparent tracestate tracestate' : Option String) :
    (TraceContext.fromParts traceparent tracestate).map TraceContext.traceparent =
      (TraceContext.fromParts traceparent tracestate').map TraceContext.traceparent := by
  cases traceparent with
  | none =>
      rfl
  | some text =>
      simp only [TraceContext.fromParts, Option.bind_some]
      split <;> rfl

/-- What two envelopes agree on when both took it from `headers`. -/
structure SameMetadata {P : Type} (headers : RecordHeaders) (first second : Envelope P) : Prop where
  key : first.idempotencyKey.map IdempotencyIdentity.key =
    second.idempotencyKey.map IdempotencyIdentity.key
  source : (headers.get "kafkaman-idempotency-source").isSome = true →
    first.idempotencyKey.bind IdempotencyIdentity.source =
      second.idempotencyKey.bind IdempotencyIdentity.source
  occurredAt : (headers.get "kafkaman-occurred-at").isSome = true →
    first.occurredAt = second.occurredAt
  messageId : (headers.get "kafkaman-message-id").isSome = true →
    first.messageId = second.messageId
  correlationId : (headers.get "kafkaman-correlation-id").isSome = true →
    first.correlationId = second.correlationId
  causationId : (headers.get "kafkaman-causation-id").isSome = true →
    first.causationId = second.causationId

/-- The same for the two parts of the trace context. -/
structure SameTrace (headers later : RecordHeaders) : Prop where
  traceparent : (headers.trace.get? "traceparent").isSome = true →
    headers.traceContext.map TraceContext.traceparent =
      later.traceContext.map TraceContext.traceparent
  context : (headers.trace.get? "traceparent").isSome = true →
    (headers.trace.get? "tracestate").isSome = true → headers.traceContext = later.traceContext

section Envelope

variable {P : Type} {message : ConsumedMessage P} {codec : Codec} {headers later : RecordHeaders}

theorem RecordHeaders.KeepsManaged.get_eq (h : headers.KeepsManaged later) {name : String}
    (hsome : (headers.get name).isSome = true) : later.get name = headers.get name := by
  rcases Option.isSome_iff_exists.1 hsome with ⟨value, hvalue⟩
  rw [hvalue]
  exact h.reserved name value hvalue

theorem RecordHeaders.KeepsManaged.trace_eq (h : headers.KeepsManaged later) {name : String}
    (hsome : (headers.trace.get? name).isSome = true) :
    later.trace.get? name = headers.trace.get? name := by
  rcases Option.isSome_iff_exists.1 hsome with ⟨value, hvalue⟩
  rw [hvalue]
  exact h.trace name value hvalue

theorem sameTrace_of_keepsManaged (h : headers.KeepsManaged later) : SameTrace headers later := by
  refine
    { traceparent := ?_
      context := ?_ }
  · intro hparent
    rw [RecordHeaders.traceContext, RecordHeaders.traceContext, h.trace_eq hparent]
    exact traceparent_fromParts _ _ _
  · intro hparent hstate
    rw [RecordHeaders.traceContext, RecordHeaders.traceContext, h.trace_eq hparent,
      h.trace_eq hstate]

theorem parseOptional_same {α : Type} {parse : String → Except IngestError α}
    {text text' : Option String} {value value' : Option α} (hsome : text.isSome = true)
    (htext : text' = text) (h : parseOptional parse text = .ok value)
    (h' : parseOptional parse text' = .ok value') : ∃ a, value = some a ∧ value' = some a := by
  subst htext
  rw [h] at h'
  cases h'
  rcases Option.isSome_iff_exists.1 hsome with ⟨read, rfl⟩
  cases hread : parse read with
  | error error =>
      simp [parseOptional, hread, Except.map] at h
  | ok a =>
      simp only [parseOptional, hread, Except.map, Except.ok.injEq] at h
      exact ⟨a, h.symm, h.symm⟩

theorem getD_same {α : Type} {value value' : Option α} (h : ∃ a, value = some a ∧ value' = some a)
    (stamp stamp' : α) : value.getD stamp = value'.getD stamp' := by
  rcases h with ⟨a, rfl, rfl⟩
  rfl

theorem decodeIdentity_eq_ok {identity : IdempotencyIdentity} :
    decodeIdentity codec headers = .ok identity ↔
      ∃ text key, headers.get "kafkaman-idempotency-key" = some text ∧
        IdempotencyKey.fromHex text = .ok key ∧
        identity =
          { key := key
            source := (headers.get "kafkaman-idempotency-source").bind codec.parseJson } := by
  unfold decodeIdentity
  cases hget : headers.get "kafkaman-idempotency-key" with
  | none =>
      simp
  | some text =>
      cases hhex : IdempotencyKey.fromHex text with
      | error error =>
          simp [hhex]
      | ok key =>
          simp [hhex, eq_comm]

theorem sameMetadata_of_keepsManaged {arrival arrival' : Arrival} {record record' : KafkaRecord}
    {expectedTopic : String} {decoded decoded' : DecodedRecord P}
    (hmanaged : headers.KeepsManaged later)
    (h : recordEnvelope message codec arrival record expectedTopic headers = .ok decoded)
    (h' : recordEnvelope message codec arrival' record' expectedTopic later = .ok decoded') :
    SameMetadata headers decoded.envelope decoded'.envelope := by
  rcases recordEnvelope_eq_ok.1 h with ⟨-, _, -, _, hidentity, _, hoccurred, _, hid, _, hcorrelation,
    _, hcausation, rfl⟩
  rcases recordEnvelope_eq_ok.1 h' with ⟨-, _, -, _, hidentity', _, hoccurred', _, hid', _,
    hcorrelation', _, hcausation', rfl⟩
  -- The identity has no default, so both records have set it.
  rcases decodeIdentity_eq_ok.1 hidentity with ⟨text, key, htext, hkey, rfl⟩
  rcases decodeIdentity_eq_ok.1 hidentity' with ⟨text', key', htext', hkey', rfl⟩
  refine
    { key := ?_
      source := ?_
      occurredAt := fun hsome =>
        getD_same (parseOptional_same hsome (hmanaged.get_eq hsome) hoccurred hoccurred') _ _
      messageId := fun hsome =>
        getD_same (parseOptional_same hsome (hmanaged.get_eq hsome) hid hid') _ _
      correlationId := fun hsome =>
        getD_same (parseOptional_same hsome (hmanaged.get_eq hsome) hcorrelation hcorrelation') _ _
      causationId := ?_ }
  · rw [hmanaged.reserved _ _ htext] at htext'
    cases htext'
    rw [hkey] at hkey'
    cases hkey'
    rfl
  · intro hsome
    simp only [Option.bind_some, hmanaged.get_eq hsome]
  · intro hsome
    rcases parseOptional_same hsome (hmanaged.get_eq hsome) hcausation hcausation' with
      ⟨_, rfl, rfl⟩
    rfl

theorem get_none_of_parseOptional {α : Type} {parse : String → Except IngestError α}
    {name : String} {value : Option α} {error : IngestError} (hmanaged : headers.KeepsManaged later)
    (h : parseOptional parse (headers.get name) = .ok value)
    (h' : parseOptional parse (later.get name) = .error error) : headers.get name = none := by
  cases hget : headers.get name with
  | none =>
      rfl
  | some text =>
      rw [hmanaged.reserved name text hget, ← hget, h] at h'
      cases h'

theorem parseOptional_eq_error {α : Type} {parse : String → Except IngestError α}
    {text : Option String} {error : IngestError} (h : parseOptional parse text = .error error) :
    ∃ read, parse read = .error error := by
  cases text with
  | none =>
      cases h
  | some read =>
      refine ⟨read, ?_⟩
      cases hread : parse read with
      | ok a =>
          rw [parseOptional, hread] at h
          cases h
      | error e =>
          rw [parseOptional, hread] at h
          cases h
          rfl

/-- Appended headers that spoil a record do so under a name that was still free. -/
theorem invalidHeader_of_keepsManaged {arrival arrival' : Arrival} {record record' : KafkaRecord}
    {expectedTopic : String} {decoded : DecodedRecord P} {error : IngestError}
    (hmanaged : headers.KeepsManaged later) (htopic : record'.topic = record.topic)
    (hpayload : record'.payload = record.payload)
    (h : recordEnvelope message codec arrival record expectedTopic headers = .ok decoded)
    (h' : recordEnvelope message codec arrival' record' expectedTopic later = .error error) :
    ∃ name text, error = .invalidHeader name text ∧ headers.get name = none := by
  rcases recordEnvelope_eq_ok.1 h with ⟨hexpected, payload, hdecode, _, hidentity, _, hoccurred, _,
    hid, _, hcorrelation, _, hcausation, -⟩
  have hdecode' : decodePayload message record' = .ok payload := by
    rw [← hdecode, decodePayload, decodePayload, hpayload]
  rcases decodeIdentity_eq_ok.1 hidentity with ⟨text, key, htext, hkey, -⟩
  have hidentity' : decodeIdentity codec later = .ok _ :=
    decodeIdentity_eq_ok.2 ⟨text, key, hmanaged.reserved _ _ htext, hkey, rfl⟩
  have hinvalid : ∀ {α : Type} {parse : String → Except String α} {name : String}
      {value : Option α},
      parseOptional (fun text => (parse text).mapError (IngestError.invalidHeader name))
        (headers.get name) = .ok value →
      parseOptional (fun text => (parse text).mapError (IngestError.invalidHeader name))
        (later.get name) = .error error →
      ∃ name text, error = .invalidHeader name text ∧ headers.get name = none := by
    intro α parse name value hread hfailed
    rcases parseOptional_eq_error hfailed with ⟨_, herror⟩
    rcases mapError_eq_error.1 herror with ⟨text, -, rfl⟩
    exact ⟨name, text, rfl, get_none_of_parseOptional hmanaged hread hfailed⟩
  unfold recordEnvelope at h'
  rw [if_neg (by rw [htopic]; exact not_not.2 hexpected)] at h'
  -- topic, payload and identity passed before and pass again; what fails is one of the other four
  rcases bind_eq_error.1 h' with hfailed | ⟨_, -, h'⟩
  · rw [hdecode'] at hfailed
    cases hfailed
  rcases bind_eq_error.1 h' with hfailed | ⟨_, -, h'⟩
  · rw [hidentity'] at hfailed
    cases hfailed
  rcases bind_eq_error.1 h' with hfailed | ⟨_, -, h'⟩
  · exact hinvalid hoccurred hfailed
  rcases bind_eq_error.1 h' with hfailed | ⟨_, -, h'⟩
  · exact hinvalid hid hfailed
  rcases bind_eq_error.1 h' with hfailed | ⟨_, -, h'⟩
  · exact hinvalid hcorrelation hfailed
  rcases bind_eq_error.1 h' with hfailed | ⟨_, -, h'⟩
  · exact hinvalid hcausation hfailed
  cases h'

theorem intrudingHeader_of_prepareReceived {message : KafkaMessage P}
    {descriptor : MessageDescriptor} {evt : Envelope P} {partition offset : Int}
    {key : Option Bytes} {trace : Option TraceContext} {name : String}
    (h : Received.prepareReceived message descriptor evt partition offset key trace =
      .error (.reservedHeader name)) : intrudingHeader evt.headers = some name := by
  rw [intrudingHeader_eq]
  unfold Received.prepareReceived at h
  cases hreserved : reservedHeader evt.headers with
  | some reserved =>
      rw [hreserved] at h
      cases h
      rfl
  | none =>
      rw [hreserved] at h
      cases hidentity : evt.idempotencyKey with
      | none =>
          rw [hidentity] at h
          cases h
      | some identity =>
          rw [hidentity] at h
          -- What is left to fail are the application's calls, with errors of their own.
          rcases bind_eq_error.1 h with hfailed | ⟨_, -, h⟩
          · rcases Outbox.catchApplicationPanic_eq_error.1 hfailed with ⟨_, _, hother⟩
            cases hother
          rcases bind_eq_error.1 h with hfailed | ⟨_, -, h⟩
          · rcases mapError_eq_error.1 hfailed with ⟨_, _, hother⟩
            cases hother
          rcases bind_eq_error.1 h with hfailed | ⟨_, -, h⟩
          · rcases Outbox.catchApplicationPanic_eq_error.1 hfailed with ⟨_, _, hother⟩
            cases hother
          cases h

variable (message codec) in
/-- The headers of a record are filed so that none of them can pose as metadata further on, and
headers appended to it change nothing that it had set: whatever both records decode to agrees, and a
record they spoil is refused for a header it did not have. -/
theorem foreign_headers_harmless (record : KafkaRecord) (appended : List RecordHeader) :
    let headers := RecordHeaders.of record
    let longer : KafkaRecord := { record with headers := record.headers ++ appended }
    let later := RecordHeaders.of longer
    (intrudingHeader headers.user = none ∧
      ∀ key ∈ headers.user.keys,
        eqIgnoreAsciiCase (utf8 key.toList) (utf8 "traceparent".toList) = false ∧
        eqIgnoreAsciiCase (utf8 key.toList) (utf8 "tracestate".toList) = false) ∧
    (∀ arrival expectedTopic decoded,
      recordEnvelope message codec arrival record expectedTopic headers = .ok decoded →
      ∀ descriptor partition offset key trace name,
        Received.prepareReceived message.toKafkaMessage descriptor decoded.envelope partition offset
          key trace ≠ .error (.reservedHeader name)) ∧
    headers.KeepsManaged later ∧ SameTrace headers later ∧
    ∀ arrival arrival' expectedTopic decoded,
      recordEnvelope message codec arrival record expectedTopic headers = .ok decoded →
      match recordEnvelope message codec arrival' longer expectedTopic later with
      | .ok decoded' => SameMetadata headers decoded.envelope decoded'.envelope
      | .error error => ∃ name text, error = .invalidHeader name text ∧ headers.get name = none := by
  intro headers longer later
  have hclean : intrudingHeader headers.user = none := by
    rw [intrudingHeader_eq]
    exact RecordHeaders.reservedHeader_user record
  have hmanaged : headers.KeepsManaged later :=
    RecordHeaders.keepsManaged_append record appended
  refine ⟨⟨hclean, ?_⟩, ?_, hmanaged, sameTrace_of_keepsManaged hmanaged, ?_⟩
  · intro key hkey
    have hplain := RecordHeaders.isTraceHeader_user record key hkey
    rw [← Bool.not_eq_true, isTraceHeader_iff, not_or] at hplain
    simpa only [Bool.not_eq_true] using hplain
  · intro arrival expectedTopic decoded hdecoded descriptor partition offset key trace name hinsert
    have hintrudes := intrudingHeader_of_prepareReceived hinsert
    rw [headers_of_recordEnvelope hdecoded, hclean] at hintrudes
    cases hintrudes
  · intro arrival arrival' expectedTopic decoded hdecoded
    cases hlonger : recordEnvelope message codec arrival' longer expectedTopic later with
    | ok decoded' =>
        exact sameMetadata_of_keepsManaged hmanaged hdecoded hlonger
    | error error =>
        exact invalidHeader_of_keepsManaged hmanaged rfl rfl hdecoded hlonger

end Envelope

/-! ### A header that H does not set -/

/-- A text with an idempotency key and a time, under an odd letter case. -/
def headedRecord : KafkaRecord :=
  { topic := "texts"
    partition := 0
    offset := 0
    key := none
    payload := some (textBytes (Spelling.jsonText (.string "x")))
    headers :=
      [{ key := "kafkaman-idempotency-key"
         value := some (textBytes (IdempotencyKey.ofByte 1).toHex) },
        { key := "Kafkaman-Occurred-At"
          value := some (textBytes "2024-10-27T03:33:20Z[UTC]") }] }

def emptyArrival : Arrival :=
  { messageId := 0, correlationId := 0, now := 0 }

/-- The record with more headers behind its own. -/
def headedRecordWith (appended : List RecordHeader) : KafkaRecord :=
  { headedRecord with headers := headedRecord.headers ++ appended }

def decodeHeaded (record : KafkaRecord) : Except IngestError (DecodedRecord String) :=
  recordEnvelope Spelling.textMessage Spelling.codec emptyArrival record "texts"
    (RecordHeaders.of record)

/-- A second time and a user header of no value: both records decode, to one time. -/
theorem foreign_headers_harmless_second_time :
    ∃ decoded decoded', decodeHeaded headedRecord = .ok decoded ∧
      decodeHeaded (headedRecordWith
        [{ key := "kafkaman-occurred-at", value := some (textBytes "never") },
          { key := "tenant", value := none }]) = .ok decoded' ∧
      decoded.envelope.occurredAt = decoded'.envelope.occurredAt := by
  obtain ⟨decoded, hdecoded⟩ : ∃ decoded, decodeHeaded headedRecord = .ok decoded :=
    exists_ok_of_isOk (by decide +kernel)
  obtain ⟨decoded', hdecoded'⟩ : ∃ decoded', decodeHeaded (headedRecordWith
      [{ key := "kafkaman-occurred-at", value := some (textBytes "never") },
        { key := "tenant", value := none }]) = .ok decoded' :=
    exists_ok_of_isOk (by decide +kernel)
  refine ⟨decoded, decoded', hdecoded, hdecoded', ?_⟩
  have hsame := (foreign_headers_harmless Spelling.textMessage Spelling.codec headedRecord
    [{ key := "kafkaman-occurred-at", value := some (textBytes "never") },
      { key := "tenant", value := none }]).2.2.2.2 emptyArrival emptyArrival "texts" decoded hdecoded
  split at hsame
  · rename_i hlonger
    cases hlonger.symm.trans hdecoded'
    exact hsame.occurredAt (by decide +kernel)
  · rename_i hlonger
    cases hlonger.symm.trans hdecoded'

/-- A causation id that does not parse is no value of the record's own, and the record is refused for
it. -/
theorem appended_header_refused :
    (decodeHeaded headedRecord).isOk = true ∧
      ∃ text, decodeHeaded (headedRecordWith
        [{ key := "Kafkaman-Causation-Id", value := some (textBytes "none") }]) =
          .error (.invalidHeader "kafkaman-causation-id" text) :=
  ⟨by decide +kernel, "invalid character", rfl⟩

end Broker
end Kafkaman
