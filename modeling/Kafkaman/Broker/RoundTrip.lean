import Kafkaman.Broker.Decode
import Kafkaman.Broker.Publish

/-!
# Broker.RoundTrip — a published row, read back

The managed headers follow the row's own, and the scan keeps the first value of a reserved key.  So
what a consumer reads under a managed key is what the publisher wrote, provided the row's own headers
stay out of the reserved namespace (`OwnHeaders`), which enqueue sees to.

* `firstValue` — what a scan finds under a name;
* `RecordHeaders.get_of_wire`, `trace_of_wire` — a managed key reads back its first value;
* `Published` — what a record has of the row it was published from;
* `decodeIdentity_of_published` — the identity comes back.
-/

namespace Kafkaman
namespace Broker

open Lib

/-! ## Scanning the headers -/

theorem isTraceHeader_asciiLower (key : String) :
    isTraceHeader (asciiLower key) = isTraceHeader key := by
  simp only [isTraceHeader, asciiLower_asciiLower]

/-- A header as the publisher writes it. -/
def wire (header : String × String) : RecordHeader :=
  { key := header.1
    value := some (Utf8.textBytes header.2) }

theorem headers_land (record : OutgoingRecord) {partition offset : Int} :
    (record.land partition offset).headers = record.headers.map wire :=
  rfl

/-- The first value under a name, in any letter case. -/
def firstValue (name : String) (headers : List (String × String)) : Option String :=
  (headers.find? fun header => asciiLower header.1 = name).map Prod.snd

section FirstValue

variable {name : String}

theorem firstValue_nil : firstValue name [] = none :=
  rfl

theorem firstValue_cons (header : String × String) (rest : List (String × String)) :
    firstValue name (header :: rest) =
      (if asciiLower header.1 = name then some header.2 else none).or (firstValue name rest) := by
  by_cases h : asciiLower header.1 = name <;> simp [firstValue, h]

theorem firstValue_append (headers rest : List (String × String)) :
    firstValue name (headers ++ rest) = (firstValue name headers).or (firstValue name rest) := by
  simp [firstValue, List.find?_append, Option.map_or]

theorem firstValue_toList {α : Type} (key : String) (f : α → String) (value : Option α) :
    firstValue name (value.map fun a => (key, f a)).toList =
      if asciiLower key = name then value.map f else none := by
  cases value with
  | none =>
      simp [firstValue]
  | some a =>
      by_cases h : asciiLower key = name <;> simp [firstValue, h]

theorem firstValue_eq_none {headers : List (String × String)}
    (h : ∀ header ∈ headers, asciiLower header.1 ≠ name) : firstValue name headers = none := by
  rw [firstValue, Option.map_eq_none_iff, List.find?_eq_none]
  intro header hheader
  simpa using h header hheader

end FirstValue

namespace RecordHeaders

section Scan

variable {name : String}

theorem add_wire (headers : RecordHeaders) (header : String × String) :
    add headers (wire header) =
      if isTraceHeader header.1 then
        { headers with trace := headers.trace.insertIfAbsent (asciiLower header.1) header.2 }
      else if isReservedHeader header.1 then
        { headers with
          reserved := headers.reserved.insertIfAbsent (asciiLower header.1) header.2 }
      else
        { headers with user := headers.user.insert header.1 header.2 } := by
  simp only [add, wire, Utf8.textBytes, Utf8.fromUtf8Lossy_utf8, isTraceHeader_asciiLower, isReservedHeader]
  rfl

theorem foldl_wire (read : RecordHeaders → Option String)
    (hread : ∀ acc header, read (add acc (wire header)) =
      (read acc).or (if asciiLower header.1 = name then some header.2 else none))
    (headers : List (String × String)) (acc : RecordHeaders) :
    read ((headers.map wire).foldl add acc) =
      (read acc).or (firstValue name headers) := by
  induction headers generalizing acc with
  | nil =>
      simp [firstValue_nil]
  | cons header rest ih =>
      rw [List.map_cons, List.foldl_cons, ih, hread, firstValue_cons]
      exact Option.or_assoc

/-- A reserved key reads back its first value. -/
theorem get_of_wire (htrace : isTraceHeader name = false)
    (hreserved : reservedHeaderNamespace.toList.isPrefixOf name.toList = true)
    {record : KafkaRecord} {headers : List (String × String)}
    (hheaders : record.headers = headers.map wire) :
    (of record).get name = firstValue name headers := by
  rw [of, hheaders]
  refine (foldl_wire (fun headers => headers.get name) ?_ headers empty).trans Option.none_or
  intro acc header
  rw [add_wire]
  by_cases hkey : asciiLower header.1 = name
  -- The first header of the name is kept, and later ones of it are ignored.
  · have hother : isTraceHeader header.1 = false := by
      rw [← isTraceHeader_asciiLower, hkey, htrace]
    have hown : isReservedHeader header.1 = true := by
      rw [isReservedHeader, hkey, hreserved]
    simp only [hother, hown, get, SortedMap.get?_insertIfAbsent, hkey, if_true,
      Bool.false_eq_true, if_false]
  · have hsame : ∀ value, (acc.reserved.insertIfAbsent (asciiLower header.1) value).get? name =
        acc.reserved.get? name := by
      intro value
      rw [SortedMap.get?_insertIfAbsent, if_neg hkey]
      exact Option.or_none
    rw [if_neg hkey]
    split
    · exact Option.or_none.symm
    · split
      · exact (hsame header.2).trans Option.or_none.symm
      · exact Option.or_none.symm

/-- A trace key reads back its first value. -/
theorem trace_of_wire (htrace : isTraceHeader name = true)
    {record : KafkaRecord} {headers : List (String × String)}
    (hheaders : record.headers = headers.map wire) :
    (of record).trace.get? name = firstValue name headers := by
  rw [of, hheaders]
  refine (foldl_wire (fun headers => headers.trace.get? name) ?_ headers empty).trans
    Option.none_or
  intro acc header
  rw [add_wire]
  by_cases hkey : asciiLower header.1 = name
  · have hother : isTraceHeader header.1 = true := by
      rw [← isTraceHeader_asciiLower, hkey, htrace]
    simp only [hother, SortedMap.get?_insertIfAbsent, hkey, if_true]
  · rw [if_neg hkey]
    split
    · simp only [SortedMap.get?_insertIfAbsent, if_neg hkey]
    · split <;> exact Option.or_none.symm

end Scan

end RecordHeaders

/-! ## What a publisher writes -/

/-- A row's own headers keep out of the reserved namespace, the entity key apart. -/
def OwnHeaders (headers : HeaderMap) : Prop :=
  ∀ key ∈ headers.keys, isReservedHeader key = true → key = "kafkaman-entity-key"

/-- What a record has of the row it was published from. -/
structure Published (codec : Codec) (row : OutboxRow) (record : OutgoingRecord) : Prop where
  topic : record.topic = row.topic
  key : record.key = row.recordKey
  payload : codec.jsonBytes row.payload = .ok record.payload
  headers : ∃ occurredAt rest, record.headers =
    row.headers.entries.filter (fun header => !isTraceHeader header.1) ++
      ([("kafkaman-message-id", codec.uuidText row.messageId),
        ("kafkaman-correlation-id", codec.uuidText row.correlationId),
        ("kafkaman-occurred-at", occurredAt)] ++
      ((row.idempotencyKey.map fun key => ("kafkaman-idempotency-key", key.toHex)).toList ++ rest))

section Identity

variable {codec : Codec} {row : OutboxRow} {trace : Option TraceContext} {record : OutgoingRecord}

theorem published_of_publishRowTraced (h : publishRowTraced codec row trace = .ok record) :
    Published codec row record := by
  simp only [publishRowTraced, managedHeaders, bind_eq_ok, pure_eq_ok, mapError_eq_ok] at h
  rcases h with ⟨payload, hpayload, headers, ⟨occurredAt, -, rfl⟩, rfl⟩
  exact
    { topic := rfl
      key := rfl
      payload := hpayload
      headers := ⟨occurredAt, _, by simp only [List.append_assoc]; rfl⟩ }

theorem ne_of_ownHeaders {name key : String} (hown : OwnHeaders row.headers)
    (hmem : key ∈ row.headers.keys)
    (hreserved : reservedHeaderNamespace.toList.isPrefixOf name.toList = true)
    (hentity : name ≠ "kafkaman-entity-key") : asciiLower key ≠ name := by
  intro heq
  have hkey : key = "kafkaman-entity-key" := by
    apply hown key hmem
    rw [isReservedHeader, heq]
    exact hreserved
  apply hentity
  rw [← heq, hkey]
  decide

theorem firstValue_ownHeaders {name : String} (hown : OwnHeaders row.headers)
    (hreserved : reservedHeaderNamespace.toList.isPrefixOf name.toList = true)
    (hentity : name ≠ "kafkaman-entity-key") :
    firstValue name (row.headers.entries.filter fun header => !isTraceHeader header.1) = none := by
  refine firstValue_eq_none fun header hheader => ?_
  refine ne_of_ownHeaders hown ?_ hreserved hentity
  exact List.mem_map.2 ⟨header, (List.mem_filter.1 hheader).1, rfl⟩

/-- The idempotency identity survives the broker. -/
theorem decodeIdentity_of_published (h : Published codec row record)
    (hown : OwnHeaders row.headers) {key : IdempotencyKey} (hkey : row.idempotencyKey = some key)
    (partition offset : Int) :
    ∃ identity, decodeIdentity codec
        (RecordHeaders.of (record.land partition offset)) = .ok identity ∧
      identity.key = key := by
  have hread : (RecordHeaders.of (record.land partition offset)).get
      "kafkaman-idempotency-key" = some key.toHex := by
    rcases h.headers with ⟨occurredAt, rest, hheaders⟩
    rw [RecordHeaders.get_of_wire (by decide) (by decide) (headers_land record), hheaders,
      firstValue_append, firstValue_ownHeaders hown (by decide) (by decide)]
    simp +decide [firstValue_cons, hkey]
  rw [decodeIdentity, hread]
  simp only [IdempotencyKey.fromHex_toHex]
  exact ⟨_, rfl, rfl⟩

end Identity

end Broker
end Kafkaman
