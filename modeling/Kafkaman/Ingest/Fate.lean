import Kafkaman.Core.Calendar
import Kafkaman.Core.Storable
import Kafkaman.Ingest.Accounting

/-!
# Ingest.Fate — what becomes of a record when nothing but the record is wrong

With the database and the broker available a cycle has three durable endings: the record is stored,
it is a duplicate, or it is quarantined; each acknowledges its offset.  What stands in the way is
data that no retry changes: a payload whose `Serialize` fails, values with the one character that
PostgreSQL takes in neither `text` nor `jsonb`, and a time that no UTC date is left for.

* `refusal` — why the cycle quarantines the record, if it does;
* `ingestOrPanic` — the cycle, with the panic that `ingestOnce` leaves out;
* `Carries`, `Diagnosed`, `Storable` — what the record says, what is wrong with it, and the conditions
  on both;
* `record_reaches_fate_iff` — a cycle below the skip limit settles its record exactly under them.
-/

namespace Kafkaman

open Lib

/-- The values a received insert binds as `text` or `jsonb`. -/
def Received.InsertReceivedRow.storable (insert : Received.InsertReceivedRow) : Bool :=
  insert.idempotencySource.all Json.storable && storableText insert.topic &&
    storableText insert.entityKey && storableText insert.messageType &&
    HeaderMap.storable insert.headers && insert.payload.storable &&
    insert.trace.all fun trace =>
      storableText trace.traceparent && trace.tracestate.all storableText

/-- The values a quarantine insert binds as `text` or `jsonb`; key and payload are `bytea`. -/
def ReceivedIngestFailure.storable (failure : ReceivedIngestFailure) : Bool :=
  storableText failure.sourceTopic && failure.headers.storable &&
    storableText failure.messageType && storableText failure.expectedTopic &&
    storableText failure.error

namespace Ingest

open Broker Received

section Data

variable {P : Type} (consumer : Consumer P) (env : CycleEnv) (record : KafkaRecord)
  (store : Store)

/-- The cycle's view of the record. -/
def decoded : Except IngestError (DecodedRecord P) :=
  recordEnvelope consumer.message consumer.codec env.arrival record consumer.descriptor.topic
    (RecordHeaders.of record)

/-- The insert of a decoded record. -/
def prepared (d : DecodedRecord P) : Except Error InsertReceivedRow :=
  prepareReceived consumer.message.toKafkaMessage consumer.descriptor d.envelope record.partition
    record.offset d.key env.trace

/-- The insert the record comes to, unless it is refused before. -/
def reading : Option InsertReceivedRow :=
  (decoded consumer env record).toOption.bind fun d => (prepared consumer env record d).toOption

/-- What the cycle quarantines the record for, if it does. -/
def refusal : Option (ReceivedIngestFailureKind × String) :=
  match decoded consumer env record with
  | .error error =>
      error.ingestFailureKind.map fun kind => (kind, error.display consumer.codec)
  | .ok d =>
      match prepared consumer env record d with
      -- Of what the preparation refuses, only a panic of the application condemns the record.
      | .error (.applicationPanicked messageType operation text) =>
          some (.invalidPayload, Error.display consumer.codec.uuidText
            (.applicationPanicked messageType operation text))
      | .error _ => none
      | .ok insert =>
          if (insertReceivedRow env.now insert store.received).2 = .messageIdConflict then
            some (.messageIdConflict, conflictText consumer insert.messageId)
          else
            none

/-- The received insert, if the cycle comes to one, binds values PostgreSQL takes. -/
def InsertAccepted : Prop :=
  ∀ insert ∈ reading consumer env record, insert.storable = true

instance : Decidable (InsertAccepted consumer env record) :=
  inferInstanceAs (Decidable (∀ insert ∈ reading consumer env record, insert.storable = true))

/-- The quarantine row of a refusal. -/
def refusedRecord (refused : ReceivedIngestFailureKind × String) : ReceivedIngestFailure :=
  ingestFailureRecord consumer.descriptor record refused.1 refused.2

/-- The quarantine insert, if the cycle comes to one, binds values PostgreSQL takes. -/
def RefusalAccepted : Prop :=
  ∀ refused ∈ refusal consumer env record store,
    (refusedRecord consumer record refused).storable = true

instance : Decidable (RefusalAccepted consumer env record store) :=
  inferInstanceAs (Decidable (∀ refused ∈ refusal consumer env record store,
    (refusedRecord consumer record refused).storable = true))

/-- Database and broker are available: nothing fails but an insert over the values it binds. -/
structure Available : Prop where
  others : ∀ point, point ≠ .insertReceived → point ≠ .insertFailure →
    point ≠ .insertQuarantine → env.fails point = none
  insertReceived : env.fails .insertReceived = none ↔ InsertAccepted consumer env record
  insertFailure : env.fails .insertFailure = none ↔ RefusalAccepted consumer env record store
  insertQuarantine :
    env.fails .insertQuarantine = none ↔ RefusalAccepted consumer env record store

/-- Nothing that the statements bind is refused. -/
structure Accepted : Prop where
  serializes : ∀ d, decoded consumer env record = .ok d →
    ∀ text, consumer.message.toValue d.envelope.payload ≠ .returned (.error text)
  insert : InsertAccepted consumer env record
  refusal : RefusalAccepted consumer env record store

/-- A time that can be bound: to bind it is to change its offset to UTC. -/
def Bindable (occurredAt : Timestamp) : Prop :=
  firstInstant ≤ occurredAt * 1000 ∧ occurredAt * 1000 ≤ lastInstant

instance (occurredAt : Timestamp) : Decidable (Bindable occurredAt) :=
  inferInstanceAs (Decidable (_ ∧ _))

/-- `ingest_once`, or `none` if it panics: no `catch_unwind` is around the insert that binds the time
of the record. -/
def ingestOrPanic : Option CycleResult :=
  if env.fails .beginStore = none ∧
      ∃ insert ∈ reading consumer env record, ¬Bindable insert.occurredAt then
    none
  else
    some (ingestOnce consumer env record store)

/-- The record is stored, recognised or quarantined, and its offset is committed. -/
structure DurableFate (result : CycleResult) : Prop where
  returned : ∃ stats, result.outcome = .ok stats
  acknowledged : result.store.committed = record.offset.toNat + 1
  kept :
    (∃ r ∈ result.store.received, r ∉ store.received ∧ r.sourceTopic = record.topic ∧
      r.sourcePartition = record.partition ∧ r.sourceOffset = record.offset) ∨
    (∃ d identity, decoded consumer env record = .ok d ∧
      d.envelope.idempotencyKey = some identity ∧
      store.received.HasIdempotencyKey identity.key) ∨
    result.store.quarantine.HasKey (record.topic, record.partition, record.offset)

/-! ## What is in the record -/

/-- The record is one of the message type, and this is what it says; what it leaves out is stamped on
arrival. -/
structure Carries (payload : P) (identity : IdempotencyIdentity) (messageId : Uuid)
    (occurredAt : Timestamp) : Prop where
  topic : record.topic = consumer.descriptor.topic
  payload : ∃ bytes, record.payload = some bytes ∧
    consumer.message.fromSlice bytes = .returned (.ok payload)
  identity : decodeIdentity consumer.codec (RecordHeaders.of record) = .ok identity
  occurredAt : ∃ stated, parseOptional
      (fun text => (Rfc9557.parse consumer.codec text).mapError
        (IngestError.invalidHeader "kafkaman-occurred-at"))
      ((RecordHeaders.of record).get "kafkaman-occurred-at") = .ok stated ∧
    stated.getD env.arrival.now = occurredAt
  messageId : ∃ stated, parseOptional (parseUuidHeader consumer.codec "kafkaman-message-id")
      ((RecordHeaders.of record).get "kafkaman-message-id") = .ok stated ∧
    stated.getD env.arrival.messageId = messageId
  correlationId : ∃ stated, parseOptional (parseUuidHeader consumer.codec "kafkaman-correlation-id")
    ((RecordHeaders.of record).get "kafkaman-correlation-id") = .ok stated
  causationId : ∃ stated, parseOptional (parseUuidHeader consumer.codec "kafkaman-causation-id")
    ((RecordHeaders.of record).get "kafkaman-causation-id") = .ok stated

/-- What is wrong with the record, in the words it is quarantined with. -/
inductive Diagnosed : String → Prop
  | unreadable (error : IngestError) :
      recordEnvelope consumer.message consumer.codec env.arrival record consumer.descriptor.topic
        (RecordHeaders.of record) = .error error →
      Diagnosed (error.display consumer.codec)
  | serializePanics {payload : P} {identity : IdempotencyIdentity} {messageId : Uuid}
      {occurredAt : Timestamp} (text : String) :
      Carries consumer env record payload identity messageId occurredAt →
      consumer.message.toValue payload = .panicked text →
      Diagnosed (Error.display consumer.codec.uuidText
        (.applicationPanicked consumer.descriptor.messageType "serialize payload" text))
  | entityKeyPanics {payload : P} {identity : IdempotencyIdentity} {messageId : Uuid}
      {occurredAt : Timestamp} (value : Json) (text : String) :
      Carries consumer env record payload identity messageId occurredAt →
      consumer.message.toValue payload = .returned (.ok value) →
      consumer.message.entityKey payload = .panicked text →
      Diagnosed (Error.display consumer.codec.uuidText
        (.applicationPanicked consumer.descriptor.messageType "resolve entity key" text))
  | conflicts {payload : P} {identity : IdempotencyIdentity} {messageId : Uuid}
      {occurredAt : Timestamp} (value : Json) (key : String) :
      Carries consumer env record payload identity messageId occurredAt →
      consumer.message.toValue payload = .returned (.ok value) →
      consumer.message.entityKey payload = .returned key →
      store.received.toTable.HasKey messageId →
      ¬store.received.HasIdempotencyKey identity.key →
      Diagnosed (conflictText consumer messageId)

/-- The texts a received row is made of have no U+0000. -/
def rowTexts (identity : IdempotencyIdentity) (value : Json) (key : String) : Bool :=
  identity.source.all Json.storable && storableText consumer.descriptor.topic &&
    storableText key && storableText consumer.descriptor.messageType &&
    (RecordHeaders.of record).user.storable && value.storable &&
    env.trace.all fun trace =>
      storableText trace.traceparent && trace.tracestate.all storableText

/-- So have those of a quarantine row. -/
def quarantineTexts (diagnosis : String) : Bool :=
  storableText record.topic && (allHeaders record).storable &&
    storableText consumer.descriptor.messageType && storableText consumer.descriptor.topic &&
    storableText diagnosis

/-- Nothing in the record keeps it from being stored or quarantined. -/
structure Storable : Prop where
  /-- `Serialize` returns a value or panics; it does not return an error. -/
  serializes : ∀ payload identity messageId occurredAt,
    Carries consumer env record payload identity messageId occurredAt →
    ∀ text, consumer.message.toValue payload ≠ .returned (.error text)
  stored : ∀ payload identity messageId occurredAt value key,
    Carries consumer env record payload identity messageId occurredAt →
    consumer.message.toValue payload = .returned (.ok value) →
    consumer.message.entityKey payload = .returned key →
    rowTexts consumer env record identity value key = true ∧ Bindable occurredAt
  quarantined : ∀ diagnosis, Diagnosed consumer env record store diagnosis →
    quarantineTexts consumer record diagnosis = true

end Data

section Cycle

variable {P : Type} {consumer : Consumer P} {env : CycleEnv} {record : KafkaRecord}
  {store : Store}

theorem reading_eq_some {insert : InsertReceivedRow} :
    reading consumer env record = some insert ↔
      ∃ d, decoded consumer env record = .ok d ∧ prepared consumer env record d = .ok insert := by
  unfold reading
  cases hdecoded : decoded consumer env record with
  | error error =>
      simp [Except.toOption]
  | ok d =>
      cases hprepared : prepared consumer env record d <;> simp [Except.toOption, hprepared]

theorem refused_of_undecodable {error : IngestError} {kind : ReceivedIngestFailureKind}
    (hdecoded : decoded consumer env record = .error error)
    (hkind : error.ingestFailureKind = some kind) :
    reading consumer env record = none ∧
      refusal consumer env record store = some (kind, error.display consumer.codec) := by
  constructor
  · simp [reading, hdecoded, Except.toOption]
  · rw [refusal, hdecoded]
    simp only [hkind, Option.map_some]

theorem refused_of_panic {d : DecodedRecord P} {messageType operation text : String}
    (hdecoded : decoded consumer env record = .ok d)
    (hprepared : prepared consumer env record d =
      .error (.applicationPanicked messageType operation text)) :
    reading consumer env record = none ∧
      refusal consumer env record store =
        some (.invalidPayload, Error.display consumer.codec.uuidText
          (.applicationPanicked messageType operation text)) := by
  constructor
  · simp [reading, hdecoded, hprepared, Except.toOption]
  · rw [refusal, hdecoded]
    dsimp only
    rw [hprepared]

theorem ingestOnce_eq :
    ingestOnce consumer env record store =
      match decoded consumer env record with
      | .ok d => storeRecord consumer env record d store
      | .error error =>
          match error.ingestFailureKind with
          | some kind => quarantine consumer env record kind (error.display consumer.codec) store
          | none => abandon store error :=
  rfl

/-! ## The tails of a cycle -/

theorem commitRecord_of_available (havail : Available consumer env record store)
    (stats : IngestStats) (after : Store) :
    commitRecord env record stats after =
      { store := { after with committed := record.offset.toNat + 1 }
        written := true
        outcome := .ok stats } := by
  have hfails := havail.others .commitRecord (by decide) (by decide) (by decide)
  rw [commitRecord, hfails]

theorem countSkip_of_available (havail : Available consumer env record store) (after : Store)
    (hbelow : after.skips + 1 < consumer.maxConsecutiveSkips) :
    (∃ stats, (countSkip consumer env record after).outcome = .ok stats) ∧
      (countSkip consumer env record after).store =
        { after with
          skips := after.skips + 1
          committed := record.offset.toNat + 1 } := by
  rw [countSkip, if_neg (Nat.not_le.2 hbelow), commitRecord_of_available havail]
  exact ⟨⟨_, rfl⟩, rfl⟩

theorem hasKey_refuse (store : Store) (kind : ReceivedIngestFailureKind) (error : String) :
    (Store.refuse consumer record store kind error).quarantine.HasKey
      (record.topic, record.partition, record.offset) :=
  hasKey_insertReceivedIngestFailure.2 (Or.inr rfl)

theorem durableFate_countSkip (havail : Available consumer env record store) {before : Store}
    {kind : ReceivedIngestFailureKind} {error : String}
    (hbelow : before.skips + 1 < consumer.maxConsecutiveSkips) :
    DurableFate consumer env record store
      (countSkip consumer env record (Store.refuse consumer record before kind error)) := by
  rcases countSkip_of_available havail (Store.refuse consumer record before kind error) hbelow with
    ⟨hreturned, hstore⟩
  refine
    { returned := hreturned
      acknowledged := by rw [hstore]
      kept := Or.inr (Or.inr ?_) }
  rw [hstore]
  exact hasKey_refuse before kind error

theorem quarantine_of_available (havail : Available consumer env record store)
    (hbelow : store.skips + 1 < consumer.maxConsecutiveSkips)
    (kind : ReceivedIngestFailureKind) (error : String) :
    (env.fails .insertQuarantine = none →
      DurableFate consumer env record store
        (quarantine consumer env record kind error store)) ∧
      (env.fails .insertQuarantine ≠ none →
        ∀ stats, (quarantine consumer env record kind error store).outcome ≠ .ok stats) := by
  have hbegin := havail.others .beginQuarantine (by decide) (by decide) (by decide)
  have hcommit := havail.others .commitQuarantine (by decide) (by decide) (by decide)
  unfold quarantine
  rw [hbegin]
  cases hinsert : env.fails .insertQuarantine with
  | none =>
      refine ⟨fun _ => ?_, fun h => absurd rfl h⟩
      simp only [commitTransaction, hcommit]
      exact durableFate_countSkip havail hbelow
  | some text =>
      exact ⟨fun h => (nomatch h), fun _ stats h => (nomatch h)⟩

theorem storeRow_of_available (havail : Available consumer env record store)
    (hbelow : store.skips + 1 < consumer.maxConsecutiveSkips) {d : DecodedRecord P}
    {insert : InsertReceivedRow} (hdecoded : decoded consumer env record = .ok d)
    (hprepared : prepared consumer env record d = .ok insert)
    (haccepted : InsertAccepted consumer env record)
    (hrefusal : RefusalAccepted consumer env record store) :
    DurableFate consumer env record store (storeRow consumer env record insert store) := by
  have hcommit := havail.others .commitStore (by decide) (by decide) (by decide)
  unfold storeRow
  rw [havail.insertReceived.2 haccepted, havail.insertFailure.2 hrefusal]
  simp only [commitTransaction, hcommit]
  by_cases hconflict : (insertReceivedRow env.now insert store.received).2 = .messageIdConflict
  · rw [if_pos hconflict]
    exact durableFate_countSkip havail hbelow
  · rw [if_neg hconflict, commitRecord_of_available havail]
    have hprep := prepared_of_prepareReceived hprepared
    rcases hprep.identity with ⟨identity, hidentity, hkey⟩
    refine
      { returned := ⟨_, rfl⟩
        acknowledged := rfl
        kept := ?_ }
    by_cases hdup : store.received.HasIdempotencyKey identity.key
    · exact Or.inr (Or.inl ⟨d, identity, hdecoded, hidentity, hdup⟩)
    · -- The key is new and there is no conflict, so the row went in.
      rcases insertReceivedRow_spec env.now insert store.received with hrow | hold | hid
      · have hnew : insert.row env.now ∉ store.received :=
          fun hmem => hdup ⟨_, hmem, hkey⟩
        have htopic : record.topic = consumer.descriptor.topic :=
          (recordEnvelope_ok hdecoded).1
        exact Or.inl ⟨_, hrow, hnew, hprep.topic.trans htopic.symm, hprep.partition,
          hprep.offset⟩
      · exact absurd (hkey ▸ hold) hdup
      · exact absurd hid hconflict

/-! ## The branches of a cycle -/

/-- A record ends in the quarantine, in the insert, or at a `Serialize` that reports an error; or
the cycle gets no transaction for it. -/
inductive Branch (consumer : Consumer P) (env : CycleEnv) (record : KafkaRecord)
    (store : Store) (result : CycleResult) : Prop
  | unopened (text : String) (hfails : env.fails .beginStore = some text)
      (hresult : result = abandon store (.database text))
  | refused (kind : ReceivedIngestFailureKind) (error : String)
      (hrefusal : refusal consumer env record store = some (kind, error))
      (hreading : reading consumer env record = none)
      (hserializes : ∀ d, decoded consumer env record = .ok d →
        ∀ text, consumer.message.toValue d.envelope.payload ≠ .returned (.error text))
      (hresult : result = quarantine consumer env record kind error store)
  | unserializable (d : DecodedRecord P) (text : String)
      (hdecoded : decoded consumer env record = .ok d)
      (hvalue : consumer.message.toValue d.envelope.payload = .returned (.error text))
      (hresult : result = abandon store (.sqlx (.serde text)))
  | stored (d : DecodedRecord P) (insert : InsertReceivedRow)
      (hdecoded : decoded consumer env record = .ok d)
      (hprepared : prepared consumer env record d = .ok insert)
      (hresult : result = storeRow consumer env record insert store)

/-- The insert of a decoded record, from what its payload serializes to and its entity key. -/
def insertOf (consumer : Consumer P) (env : CycleEnv) (record : KafkaRecord) (d : DecodedRecord P)
    (identity : IdempotencyIdentity) (value : Json) (key : String) : InsertReceivedRow :=
  { messageId := d.envelope.messageId
    idempotencyKey := identity.key
    idempotencySource := identity.source
    topic := consumer.descriptor.topic
    partition := record.partition
    offset := record.offset
    key := d.key
    entityKey := key
    messageType := consumer.descriptor.messageType
    headers := d.envelope.headers
    payload := value
    correlationId := d.envelope.correlationId
    causationId := d.envelope.causationId
    trace := env.trace
    occurredAt := d.envelope.occurredAt }

/-- The preparation of a decoded record is two calls into the application. -/
theorem prepared_eq {d : DecodedRecord P} {identity : IdempotencyIdentity}
    (hdecoded : decoded consumer env record = .ok d)
    (hidentity : d.envelope.idempotencyKey = some identity) :
    prepared consumer env record d =
      match consumer.message.toValue d.envelope.payload with
      | .panicked text =>
          .error (.applicationPanicked consumer.descriptor.messageType "serialize payload" text)
      | .returned (.error text) => .error (.serde text)
      | .returned (.ok value) =>
          match consumer.message.entityKey d.envelope.payload with
          | .panicked text =>
              .error
                (.applicationPanicked consumer.descriptor.messageType "resolve entity key" text)
          | .returned key => .ok (insertOf consumer env record d identity value key) := by
  have hheaders : reservedHeader d.envelope.headers = none := by
    rw [headers_of_recordEnvelope hdecoded]
    exact RecordHeaders.reservedHeader_user record
  unfold prepared prepareReceived
  rw [hheaders, hidentity]
  rcases consumer.message.toValue d.envelope.payload with (text | value) | text
  · rfl
  · cases consumer.message.entityKey d.envelope.payload <;> rfl
  · rfl

theorem storeRecord_eq {d : DecodedRecord P} (hbegin : env.fails .beginStore = none) :
    storeRecord consumer env record d store =
      match prepared consumer env record d with
      | .error (.applicationPanicked messageType operation text) =>
          quarantine consumer env record .invalidPayload
            (Error.display consumer.codec.uuidText
              (.applicationPanicked messageType operation text)) store
      | .error error => abandon store (.sqlx error)
      | .ok insert => storeRow consumer env record insert store := by
  rw [storeRecord, hbegin]
  rfl

theorem branch_storeRecord {d : DecodedRecord P}
    (hdecoded : decoded consumer env record = .ok d) :
    Branch consumer env record store (storeRecord consumer env record d store) := by
  cases hbegin : env.fails .beginStore with
  | some text =>
      refine .unopened text hbegin ?_
      rw [storeRecord, hbegin]
  | none =>
      rcases recordEnvelope_ok hdecoded with ⟨-, -, identity, -, hidentity⟩
      have hprepared := prepared_eq hdecoded hidentity
      -- A panic of the application is not an error that it reported.
      have hpanics : ∀ operation text, prepared consumer env record d =
            .error (.applicationPanicked consumer.descriptor.messageType operation text) →
          (∀ text, consumer.message.toValue d.envelope.payload ≠ .returned (.error text)) →
          Branch consumer env record store (storeRecord consumer env record d store) := by
        intro operation text hpanicked hvalue
        rcases refused_of_panic hdecoded hpanicked with ⟨hreading, hrefusal⟩
        refine .refused .invalidPayload _ hrefusal hreading ?_ (by rw [storeRecord_eq hbegin, hpanicked])
        intro d' hd'
        cases hd'.symm.trans hdecoded
        exact hvalue
      split at hprepared
      · rename_i hvalue
        exact hpanics _ _ hprepared (by simp [hvalue])
      · rename_i hvalue
        exact .unserializable d _ hdecoded hvalue (by rw [storeRecord_eq hbegin, hprepared])
      · rename_i hvalue
        split at hprepared
        · exact hpanics _ _ hprepared (by simp [hvalue])
        · exact .stored d _ hdecoded hprepared (by rw [storeRecord_eq hbegin, hprepared])

theorem branch_ingestOnce (consumer : Consumer P) (env : CycleEnv) (record : KafkaRecord)
    (store : Store) :
    Branch consumer env record store (ingestOnce consumer env record store) := by
  rw [ingestOnce_eq]
  cases hdecoded : decoded consumer env record with
  | ok d =>
      exact branch_storeRecord hdecoded
  | error error =>
      obtain ⟨kind, hkind⟩ := Option.isSome_iff_exists.1
        (ingestFailureKind_of_recordEnvelope hdecoded)
      rcases refused_of_undecodable hdecoded hkind with ⟨hreading, hrefusal⟩
      simp only [hkind]
      refine .refused kind _ hrefusal hreading ?_ rfl
      intro d hd
      rw [hdecoded] at hd
      cases hd

theorem insertAccepted_of_returned (havail : Available consumer env record store)
    {insert : InsertReceivedRow} {stats : IngestStats}
    (h : (storeRow consumer env record insert store).outcome = .ok stats) :
    InsertAccepted consumer env record := by
  apply havail.insertReceived.1
  cases hfails : env.fails .insertReceived with
  | none =>
      rfl
  | some text =>
      rw [storeRow, hfails] at h
      cases h

/-- So does the audit row of a conflict; without a conflict there is nothing to refuse. -/
theorem refusalAccepted_of_returned (havail : Available consumer env record store)
    {d : DecodedRecord P} {insert : InsertReceivedRow} {stats : IngestStats}
    (hdecoded : decoded consumer env record = .ok d)
    (hprepared : prepared consumer env record d = .ok insert)
    (h : (storeRow consumer env record insert store).outcome = .ok stats) :
    RefusalAccepted consumer env record store := by
  have hinsert := havail.insertReceived.2 (insertAccepted_of_returned havail h)
  by_cases hconflict : (insertReceivedRow env.now insert store.received).2 = .messageIdConflict
  · apply havail.insertFailure.1
    cases hfails : env.fails .insertFailure with
    | none =>
        rfl
    | some text =>
        rw [storeRow, hinsert] at h
        simp only [hconflict, if_true, hfails] at h
        cases h
  · have hnone : refusal consumer env record store = none := by
      rw [refusal, hdecoded]
      simp only [hprepared, hconflict, if_false]
    simp [RefusalAccepted, hnone]

end Cycle

/-! ## Every record, below the skip limit -/

theorem durableFate_iff_accepted {P : Type} {consumer : Consumer P} {env : CycleEnv}
    {record : KafkaRecord} {store : Store} (havail : Available consumer env record store)
    (hbelow : store.skips + 1 < consumer.maxConsecutiveSkips) :
    DurableFate consumer env record store (ingestOnce consumer env record store) ↔
      Accepted consumer env record store := by
  rcases branch_ingestOnce consumer env record store with ⟨text, hfails, -⟩ |
    ⟨kind, error, hrefusal, hreading, hserializes, hresult⟩ | ⟨d, text, hdecoded, hvalue, hresult⟩ |
    ⟨d, insert, hdecoded, hprepared, hresult⟩
  · rw [havail.others .beginStore (by decide) (by decide) (by decide)] at hfails
    cases hfails
  -- Refused: its fate is the quarantine row, so it all depends on that insert.
  · rw [hresult]
    have hquarantine := quarantine_of_available havail hbelow kind error
    constructor
    · rintro ⟨⟨stats, hreturned⟩, -, -⟩
      have hpassed : env.fails .insertQuarantine = none := by
        by_contra hfails
        exact hquarantine.2 hfails stats hreturned
      exact
        { serializes := hserializes
          insert := by simp [InsertAccepted, hreading]
          refusal := havail.insertQuarantine.1 hpassed }
    · intro hstorable
      exact hquarantine.1 (havail.insertQuarantine.2 hstorable.refusal)
  · rw [hresult]
    constructor
    · rintro ⟨⟨stats, hreturned⟩, -, -⟩
      cases hreturned
    · intro hstorable
      exact absurd hvalue (hstorable.serializes d hdecoded text)
  · rw [hresult]
    constructor
    · rintro ⟨⟨stats, hreturned⟩, -, -⟩
      have hprep := prepared_of_prepareReceived hprepared
      refine
        { serializes := ?_
          insert := insertAccepted_of_returned havail hreturned
          refusal := refusalAccepted_of_returned havail hdecoded hprepared hreturned }
      -- An insert was prepared, so the payload did serialize.
      intro d' hd' text hvalue
      have hsame : d' = d := Except.ok.inj (hd'.symm.trans hdecoded)
      rw [hsame, hprep.payload] at hvalue
      cases hvalue
    · intro hstorable
      exact storeRow_of_available havail hbelow hdecoded hprepared hstorable.insert
        hstorable.refusal

section Contents

variable {P : Type} {consumer : Consumer P} {env : CycleEnv} {record : KafkaRecord}
  {store : Store}

theorem decodePayload_eq_ok {message : ConsumedMessage P} {payload : P} :
    decodePayload message record = .ok payload ↔
      ∃ bytes, record.payload = some bytes ∧ message.fromSlice bytes = .returned (.ok payload) := by
  unfold decodePayload
  cases record.payload with
  | none =>
      simp
  | some bytes =>
      rcases hcall : message.fromSlice bytes with (text | payload') | text <;> simp [hcall]

theorem carries_iff {payload : P} {identity : IdempotencyIdentity} {messageId : Uuid}
    {occurredAt : Timestamp} :
    Carries consumer env record payload identity messageId occurredAt ↔
      ∃ d, decoded consumer env record = .ok d ∧ d.envelope.payload = payload ∧
        d.envelope.idempotencyKey = some identity ∧ d.envelope.messageId = messageId ∧
        d.envelope.occurredAt = occurredAt := by
  constructor
  · rintro ⟨htopic, hpayload, hidentity, ⟨time, htime, rfl⟩, ⟨id, hid, rfl⟩, ⟨correlation, hcorrelation⟩,
      causation, hcausation⟩
    exact ⟨_, recordEnvelope_eq_ok.2 ⟨htopic, payload, decodePayload_eq_ok.2 hpayload, identity,
      hidentity, time, htime, id, hid, correlation, hcorrelation, causation, hcausation, rfl⟩,
      rfl, rfl, rfl, rfl⟩
  · rintro ⟨d, hdecoded, rfl, hkey, rfl, rfl⟩
    rcases recordEnvelope_eq_ok.1 hdecoded with ⟨htopic, payload, hpayload, identity', hidentity, time,
      htime, id, hid, correlation, hcorrelation, causation, hcausation, rfl⟩
    cases hkey
    exact ⟨htopic, decodePayload_eq_ok.1 hpayload, hidentity, ⟨time, htime, rfl⟩, ⟨id, hid, rfl⟩,
      ⟨correlation, hcorrelation⟩, causation, hcausation⟩

theorem reading_eq_some_iff {insert : InsertReceivedRow} :
    reading consumer env record = some insert ↔
      ∃ d identity value key, decoded consumer env record = .ok d ∧
        d.envelope.idempotencyKey = some identity ∧
        consumer.message.toValue d.envelope.payload = .returned (.ok value) ∧
        consumer.message.entityKey d.envelope.payload = .returned key ∧
        insertOf consumer env record d identity value key = insert := by
  rw [reading_eq_some]
  constructor
  · rintro ⟨d, hdecoded, hprepared⟩
    rcases recordEnvelope_ok hdecoded with ⟨-, -, identity, -, hidentity⟩
    rw [prepared_eq hdecoded hidentity] at hprepared
    split at hprepared
    · cases hprepared
    · cases hprepared
    · rename_i value hvalue
      split at hprepared
      · cases hprepared
      · rename_i key hkey
        exact ⟨d, identity, value, key, hdecoded, hidentity, hvalue, hkey, Except.ok.inj hprepared⟩
  · rintro ⟨d, identity, value, key, hdecoded, hidentity, hvalue, hkey, rfl⟩
    refine ⟨d, hdecoded, ?_⟩
    rw [prepared_eq hdecoded hidentity, hvalue]
    simp only [hkey]

theorem storable_insertOf {d : DecodedRecord P} {identity : IdempotencyIdentity} {value : Json}
    {key : String} (hdecoded : decoded consumer env record = .ok d) :
    (insertOf consumer env record d identity value key).storable =
      rowTexts consumer env record identity value key := by
  simp only [InsertReceivedRow.storable, insertOf, rowTexts, headers_of_recordEnvelope hdecoded]

theorem diagnosed_iff {diagnosis : String} :
    Diagnosed consumer env record store diagnosis ↔
      ∃ kind, refusal consumer env record store = some (kind, diagnosis) := by
  constructor
  · rintro (⟨error, hdecoded⟩ | ⟨text, hcarries, hvalue⟩ | ⟨value, text, hcarries, hvalue, hkey⟩ |
      ⟨value, key, hcarries, hvalue, hkey, hid, hfresh⟩)
    · obtain ⟨kind, hkind⟩ := Option.isSome_iff_exists.1
        (ingestFailureKind_of_recordEnvelope hdecoded)
      exact ⟨kind, (refused_of_undecodable hdecoded hkind).2⟩
    · rcases carries_iff.1 hcarries with ⟨d, hdecoded, rfl, hidentity, rfl, rfl⟩
      refine ⟨_, (refused_of_panic hdecoded ?_).2⟩
      rw [prepared_eq hdecoded hidentity, hvalue]
    · rcases carries_iff.1 hcarries with ⟨d, hdecoded, rfl, hidentity, rfl, rfl⟩
      refine ⟨_, (refused_of_panic hdecoded ?_).2⟩
      rw [prepared_eq hdecoded hidentity, hvalue]
      simp only [hkey]
    · rcases carries_iff.1 hcarries with ⟨d, hdecoded, rfl, hidentity, rfl, rfl⟩
      have hconflict : (insertReceivedRow env.now
          (insertOf consumer env record d _ value key) store.received).2 = .messageIdConflict :=
        insertReceivedRow_conflict_iff.2 ⟨hid, hfresh⟩
      refine ⟨.messageIdConflict, ?_⟩
      simp only [refusal, hdecoded, prepared_eq hdecoded hidentity, hvalue, hkey, hconflict, if_true]
      rfl
  · rintro ⟨kind, hrefusal⟩
    unfold refusal at hrefusal
    cases hdecoded : decoded consumer env record with
    | error error =>
        simp only [hdecoded, Option.map_eq_some_iff, Prod.mk.injEq] at hrefusal
        rcases hrefusal with ⟨_, _, _, rfl⟩
        exact .unreadable error hdecoded
    | ok d =>
        rcases recordEnvelope_ok hdecoded with ⟨-, -, identity, -, hidentity⟩
        have hcarries := carries_iff.2 ⟨d, hdecoded, rfl, hidentity, rfl, rfl⟩
        simp only [hdecoded, prepared_eq hdecoded hidentity] at hrefusal
        rcases hvalue : consumer.message.toValue d.envelope.payload with (text | value) | text <;>
          simp only [hvalue] at hrefusal
        · cases hrefusal
        · cases hkey : consumer.message.entityKey d.envelope.payload with
          | panicked text =>
              simp only [hkey] at hrefusal
              cases hrefusal
              exact .entityKeyPanics value text hcarries hvalue hkey
          | returned key =>
              simp only [hkey] at hrefusal
              split at hrefusal
              · rename_i hconflict
                rcases insertReceivedRow_conflict_iff.1 hconflict with ⟨hid, hfresh⟩
                cases hrefusal
                exact .conflicts value key hcarries hvalue hkey hid hfresh
              · cases hrefusal
        · cases hrefusal
          exact .serializePanics text hcarries hvalue

theorem storable_iff :
    Storable consumer env record store ↔ Accepted consumer env record store ∧
      ∀ insert ∈ reading consumer env record, Bindable insert.occurredAt := by
  constructor
  · intro h
    have hstored : ∀ insert, reading consumer env record = some insert →
        insert.storable = true ∧ Bindable insert.occurredAt := by
      intro insert hinsert
      rcases reading_eq_some_iff.1 hinsert with
        ⟨d, identity, value, key, hdecoded, hidentity, hvalue, hkey, rfl⟩
      rw [storable_insertOf hdecoded]
      exact h.stored _ _ _ _ _ _ (carries_iff.2 ⟨d, hdecoded, rfl, hidentity, rfl, rfl⟩) hvalue hkey
    refine
      ⟨{ serializes := ?_
         insert := fun insert hinsert => (hstored insert hinsert).1
         refusal := fun refused hrefused => h.quarantined refused.2 (diagnosed_iff.2 ⟨_, hrefused⟩) },
        fun insert hinsert => (hstored insert hinsert).2⟩
    intro d hdecoded
    rcases recordEnvelope_ok hdecoded with ⟨-, -, identity, -, hidentity⟩
    exact h.serializes _ _ _ _ (carries_iff.2 ⟨d, hdecoded, rfl, hidentity, rfl, rfl⟩)
  · rintro ⟨haccepted, hbindable⟩
    refine
      { serializes := ?_
        stored := ?_
        quarantined := ?_ }
    · intro payload identity messageId occurredAt hcarries
      rcases carries_iff.1 hcarries with ⟨d, hdecoded, rfl, -⟩
      exact haccepted.serializes d hdecoded
    · intro payload identity messageId occurredAt value key hcarries hvalue hkey
      rcases carries_iff.1 hcarries with ⟨d, hdecoded, rfl, hidentity, rfl, rfl⟩
      have hreading := reading_eq_some_iff.2 ⟨d, identity, value, key, hdecoded, hidentity, hvalue,
        hkey, rfl⟩
      rw [← storable_insertOf hdecoded]
      exact ⟨haccepted.insert _ hreading, hbindable _ hreading⟩
    · intro diagnosis hdiagnosed
      rcases diagnosed_iff.1 hdiagnosed with ⟨kind, hrefusal⟩
      exact haccepted.refusal _ hrefusal

end Contents

/-- **A record reaches its fate** when nothing in it keeps it from being stored or quarantined,
and only then. -/
theorem record_reaches_fate_iff {P : Type} (consumer : Consumer P) (env : CycleEnv)
    (record : KafkaRecord) (store : Store) (havail : Available consumer env record store)
    (hbelow : store.skips + 1 < consumer.maxConsecutiveSkips) :
    (∃ result, ingestOrPanic consumer env record store = some result ∧
      DurableFate consumer env record store result) ↔ Storable consumer env record store := by
  have hbegin := havail.others .beginStore (by decide) (by decide) (by decide)
  have hresult : ∀ result, ingestOrPanic consumer env record store = some result ↔
      (∀ insert ∈ reading consumer env record, Bindable insert.occurredAt) ∧
        ingestOnce consumer env record store = result := by
    intro result
    simp only [ingestOrPanic, hbegin, true_and]
    split
    · rename_i hpanics
      rcases hpanics with ⟨insert, hinsert, hunbindable⟩
      simpa using fun hall => absurd (hall insert hinsert) hunbindable
    · rename_i hcalm
      push Not at hcalm
      simpa using fun _ => hcalm
  rw [storable_iff, ← durableFate_iff_accepted havail hbelow]
  constructor
  · rintro ⟨result, hsome, hfate⟩
    rcases (hresult result).1 hsome with ⟨hbindable, rfl⟩
    exact ⟨hfate, hbindable⟩
  · rintro ⟨hfate, hbindable⟩
    exact ⟨_, (hresult _).2 ⟨hbindable, rfl⟩, hfate⟩

/-! ### An available database, for any record -/

section Refusing

variable {P : Type} (consumer : Consumer P) (env : CycleEnv) (record : KafkaRecord)
  (store : Store)

/-- A database that answers, and refuses exactly the values it cannot hold. -/
def refusing : CycleEnv :=
  { env with
    fails := fun point =>
      match point with
      | .insertReceived =>
          if InsertAccepted consumer env record then none
          else some "unsupported Unicode escape sequence"
      | .insertFailure | .insertQuarantine =>
          if RefusalAccepted consumer env record store then none
          else some "unsupported Unicode escape sequence"
      | _ => none }

theorem available_refusing :
    Available consumer (refusing consumer env record store) record store := by
  have hite : ∀ (p : Prop) [Decidable p] (text : String),
      (if p then none else some text) = none ↔ p := by
    intro p _ text
    split <;> simp_all
  exact
    { others := fun point hreceived hfailure hquarantine => by
        cases point <;> first | rfl | contradiction
      insertReceived := hite (InsertAccepted consumer env record) _
      insertFailure := hite (RefusalAccepted consumer env record store) _
      insertQuarantine := hite (RefusalAccepted consumer env record store) _ }

end Refusing

/-! ### Three records -/

/-- The first record of the text log, with another payload and a time. -/
def textRecord (text : String) (time : String) : KafkaRecord :=
  { textLog 0 with
    payload := some (Utf8.textBytes (Spelling.jsonText (.string text)))
    headers := (textLog 0).headers ++
      [{ key := "kafkaman-occurred-at"
         value := some (Utf8.textBytes time) }] }

/-- A cycle over the record against an empty store. -/
def textFate (record : KafkaRecord) : CycleEnv :=
  refusing textConsumer
    { arrival := { messageId := 1, correlationId := 1, now := 0 }
      trace := none
      now := 0
      fails := fun _ => none
      lands := false
      cancelled := false }
    record emptyState.store

theorem record_reaches_fate_text :
    let record := textRecord "x" "2026-01-01T00:00:00Z"
    ∃ result, ingestOrPanic textConsumer (textFate record) record emptyState.store = some result ∧
      DurableFate textConsumer (textFate record) record emptyState.store result := by
  intro record
  refine (record_reaches_fate_iff textConsumer (textFate record) record emptyState.store
    (available_refusing _ _ _ _) (by decide)).2 (storable_iff.2 ⟨?_, by decide +kernel⟩)
  exact
    { serializes := fun _ _ _ h => by cases h
      insert := by decide +kernel
      refusal := by decide +kernel }

/-- A string with U+0000 is a JSON value like any other to the codec, and an error of the database
to the cycle, which leaves the record unacknowledged for a retry that ends the same way.  The last
second of 9999, an hour west of Greenwich, is a time like any other to the codec, and a panic. -/
theorem nul_text_never_settles :
    let nul := textRecord "\x00" "2026-01-01T00:00:00Z"
    let late := textRecord "x" "9999-12-31T23:59:59-01:00"
    (Available textConsumer (textFate nul) nul emptyState.store ∧
      Available textConsumer (textFate late) late emptyState.store ∧
      emptyState.store.skips + 1 < textConsumer.maxConsecutiveSkips) ∧
      ((∃ result, ingestOrPanic textConsumer (textFate nul) nul emptyState.store = some result ∧
        result.outcome.isOk = false ∧ result.trips = false ∧ result.store.committed = 0) ∧
      ingestOrPanic textConsumer (textFate late) late emptyState.store = none) := by
  refine ⟨⟨available_refusing _ _ _ _, available_refusing _ _ _ _, by decide⟩, ⟨_, rfl, ?_⟩, ?_⟩
  · decide +kernel
  · decide +kernel

end Ingest
end Kafkaman
