import Kafkaman.Broker.RoundTrip

/-!
# Broker.Wire — all headers of a published row, read back

Three namespaces share a record's header list: the reserved keys and the trace keys, where the first
value counts, and the producer's own, where the last one does.  A publisher writes each managed key
once and after the row's own headers, so the scan of `RecordHeaders.of` undoes it.

* `managed` — what a publisher adds to a row's own headers;
* `RecordHeaders.user_of_wire` — the producer's own headers, in the order they come;
* `ReadsBack`, `readsBack_of_wire` — the headers of a record, as a consumer's scan files them.
-/

namespace Kafkaman
namespace Broker

open Lib

/-! ## What a publisher adds -/

section Managed

variable (codec : Codec) (row : OutboxRow) (trace : Option TraceContext) (occurredAt : String)

/-- The managed headers, once the time has been rendered. -/
def managed : List (String × String) :=
  [("kafkaman-message-id", codec.uuidText row.messageId),
      ("kafkaman-correlation-id", codec.uuidText row.correlationId),
      ("kafkaman-occurred-at", occurredAt)] ++
    (row.idempotencyKey.map fun key => ("kafkaman-idempotency-key", key.toHex)).toList ++
    (row.idempotencySource.map fun source =>
      ("kafkaman-idempotency-source", codec.jsonText source)).toList ++
    (row.causationId.map fun id => ("kafkaman-causation-id", codec.uuidText id)).toList ++
    traceHeaders trace row.trace

variable {codec row trace occurredAt}

theorem exists_publishRowTraced (trace : Option TraceContext) {payload : Bytes}
    (hpayload : codec.jsonBytes row.payload = .ok payload)
    (htime : Rfc9557.render codec row.occurredAt = .ok occurredAt) :
    ∃ record, publishRowTraced codec row trace = .ok record ∧ record.topic = row.topic ∧
      record.payload = payload ∧
      record.headers = row.headers.entries.filter (fun header => !isTraceHeader header.1) ++
        managed codec row trace occurredAt := by
  have hmanaged : managedHeaders codec row trace = .ok (managed codec row trace occurredAt) := by
    simp only [managedHeaders, bind_eq_ok, pure_eq_ok, mapError_eq_ok]
    exact ⟨occurredAt, htime, rfl⟩
  rw [publishRowTraced, hpayload, hmanaged]
  exact ⟨_, rfl, rfl, rfl, rfl⟩

theorem isTraceHeader_of_mem {stored : Option TraceContext} {header : String × String}
    (h : header ∈ traceHeaders trace stored) : isTraceHeader header.1 = true := by
  unfold traceHeaders at h
  split at h
  · cases h
  · rcases List.mem_cons.1 h with rfl | hstate
    · exact (by decide : isTraceHeader "traceparent" = true)
    · split at hstate
      · cases hstate
      · rw [List.mem_singleton.1 hstate]
        exact (by decide : isTraceHeader "tracestate" = true)

theorem firstValue_traceHeaders {name : String} {stored : Option TraceContext}
    (h : isTraceHeader name = false) : firstValue name (traceHeaders trace stored) = none := by
  refine firstValue_eq_none fun header hheader heq => ?_
  have htrace := isTraceHeader_of_mem hheader
  rw [← isTraceHeader_asciiLower, heq, h] at htrace
  cases htrace

theorem firstValue_traceparent {stored : Option TraceContext} :
    firstValue "traceparent" (traceHeaders trace stored) =
      (trace <|> stored).map TraceContext.traceparent := by
  unfold traceHeaders
  cases (trace <|> stored) with
  | none =>
      rfl
  | some context =>
      simp +decide [firstValue_cons]

theorem firstValue_tracestate {stored : Option TraceContext} :
    firstValue "tracestate" (traceHeaders trace stored) =
      (trace <|> stored).bind TraceContext.tracestate := by
  unfold traceHeaders
  cases (trace <|> stored) with
  | none =>
      rfl
  | some context =>
      cases hstate : context.tracestate with
      | none =>
          simp +decide [firstValue_cons, firstValue_nil, hstate]
      | some state =>
          simp +decide [firstValue_cons, hstate]

end Managed

/-! ## Headers of the producer's own -/

/-- A header in neither of the managed namespaces. -/
def isUserHeader (key : String) : Bool :=
  !isTraceHeader key && !isReservedHeader key

/-- User headers are filed in the order they come, whatever stands between them. -/
theorem RecordHeaders.user_of_wire {record : KafkaRecord}
    {headers : List (String × String)} (hheaders : record.headers = headers.map wire) :
    (of record).user =
      (headers.filter fun header => isUserHeader header.1).foldl
        (fun user header => user.insert header.1 header.2) SortedMap.empty := by
  have hscan : ∀ (headers : List (String × String)) (acc : RecordHeaders),
      ((headers.map wire).foldl add acc).user =
        (headers.filter fun header => isUserHeader header.1).foldl
          (fun user header => user.insert header.1 header.2) acc.user := by
    intro headers
    induction headers with
    | nil =>
        intro acc
        rfl
    | cons header rest ih =>
        intro acc
        rw [List.map_cons, List.foldl_cons, ih, add_wire, List.filter_cons]
        cases htrace : isTraceHeader header.1 with
        | true =>
            simp [isUserHeader, htrace]
        | false =>
            cases hreserved : isReservedHeader header.1 <;>
              simp [isUserHeader, htrace, hreserved]
  rw [of, hheaders, hscan]
  rfl

section Read

variable {codec : Codec} {row : OutboxRow} {trace : Option TraceContext} {occurredAt : String}

theorem filter_toList_eq_nil {α : Type} {key : String} (h : isUserHeader key = false)
    (f : α → String) (value : Option α) :
    ((value.map fun a => (key, f a)).toList.filter fun header => isUserHeader header.1) = [] := by
  cases value with
  | none =>
      rfl
  | some a =>
      simp [h]

theorem filter_managed :
    ((managed codec row trace occurredAt).filter fun header => isUserHeader header.1) = [] := by
  have htrace : ((traceHeaders trace row.trace).filter fun header => isUserHeader header.1) = [] := by
    refine List.filter_eq_nil_iff.2 fun header hheader => ?_
    simp [isUserHeader, isTraceHeader_of_mem hheader]
  have hkey := filter_toList_eq_nil (by decide : isUserHeader "kafkaman-idempotency-key" = false)
    IdempotencyKey.toHex row.idempotencyKey
  have hsource := filter_toList_eq_nil
    (by decide : isUserHeader "kafkaman-idempotency-source" = false) codec.jsonText
    row.idempotencySource
  have hcausation := filter_toList_eq_nil
    (by decide : isUserHeader "kafkaman-causation-id" = false) codec.uuidText row.causationId
  have hmessage : isUserHeader "kafkaman-message-id" = false := by decide
  have hcorrelation : isUserHeader "kafkaman-correlation-id" = false := by decide
  have htime : isUserHeader "kafkaman-occurred-at" = false := by decide
  simp only [managed, List.filter_append, List.filter_cons, List.filter_nil, htrace, hkey, hsource,
    hcausation, hmessage, hcorrelation, htime, Bool.false_eq_true, if_false, List.append_nil]

/-- What a consumer's scan files of the headers a row was published with. -/
structure ReadsBack (codec : Codec) (row : OutboxRow) (trace : Option TraceContext)
    (occurredAt : String) (headers : RecordHeaders) : Prop where
  messageId : headers.get "kafkaman-message-id" = some (codec.uuidText row.messageId)
  correlationId : headers.get "kafkaman-correlation-id" = some (codec.uuidText row.correlationId)
  occurredAt : headers.get "kafkaman-occurred-at" = some occurredAt
  idempotencyKey : headers.get "kafkaman-idempotency-key" =
    row.idempotencyKey.map IdempotencyKey.toHex
  idempotencySource : headers.get "kafkaman-idempotency-source" =
    row.idempotencySource.map codec.jsonText
  causationId : headers.get "kafkaman-causation-id" = row.causationId.map codec.uuidText
  traceContext : headers.traceContext = TraceContext.fromParts
    ((trace <|> row.trace).map TraceContext.traceparent)
    ((trace <|> row.trace).bind TraceContext.tracestate)
  user : headers.user = row.headers.filterKeys isUserHeader

theorem readsBack_of_wire (hown : OwnHeaders row.headers)
    {record : KafkaRecord}
    (hheaders : record.headers =
      (row.headers.entries.filter (fun header => !isTraceHeader header.1) ++
        managed codec row trace occurredAt).map wire) :
    ReadsBack codec row trace occurredAt (RecordHeaders.of record) := by
  have hreserved : ∀ name, isTraceHeader name = false →
      reservedHeaderNamespace.toList.isPrefixOf name.toList = true →
      name ≠ "kafkaman-entity-key" →
      (RecordHeaders.of record).get name =
        firstValue name (managed codec row trace occurredAt) := by
    intro name htrace hprefix hentity
    rw [RecordHeaders.get_of_wire htrace hprefix hheaders, firstValue_append,
      firstValue_ownHeaders hown hprefix hentity, Option.none_or]
  have htrace : ∀ name, isTraceHeader name = true →
      (RecordHeaders.of record).trace.get? name =
        firstValue name (managed codec row trace occurredAt) := by
    intro name htrace
    have hnone : firstValue name
        (row.headers.entries.filter fun header => !isTraceHeader header.1) = none := by
      refine firstValue_eq_none fun header hheader heq => ?_
      have hother := (List.mem_filter.1 hheader).2
      rw [← isTraceHeader_asciiLower, heq, htrace] at hother
      cases hother
    rw [RecordHeaders.trace_of_wire htrace hheaders, firstValue_append, hnone,
      Option.none_or]
  refine
    { messageId := ?_
      correlationId := ?_
      occurredAt := ?_
      idempotencyKey := ?_
      idempotencySource := ?_
      causationId := ?_
      traceContext := ?trace
      user := ?user }
  case trace =>
    rw [RecordHeaders.traceContext, htrace _ (by decide), htrace _ (by decide)]
    simp +decide [managed, firstValue_cons, firstValue_append, firstValue_toList,
      firstValue_traceparent, firstValue_tracestate]
  case user =>
    have hfilter : (row.headers.entries.filter fun header =>
        isUserHeader header.1 && !isTraceHeader header.1) =
        (row.headers.filterKeys isUserHeader).entries := by
      refine List.filter_congr fun header _ => ?_
      cases htrace : isTraceHeader header.1 <;> simp [isUserHeader, htrace]
    rw [RecordHeaders.user_of_wire hheaders, List.filter_append, filter_managed,
      List.append_nil, List.filter_filter, hfilter, SortedMap.foldl_insert_entries]
  -- The names differ from each other and from the trace keys.
  all_goals
    rw [hreserved _ (by decide) (by decide) (by decide)]
    simp +decide [managed, firstValue_cons, firstValue_append, firstValue_toList,
      firstValue_traceHeaders]

end Read

end Broker
end Kafkaman
