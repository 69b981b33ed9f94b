import Kafkaman.Ingest.Fate

/-!
# Ingest.Redelivery — ingesting a record again

After a restart or a rebalance a consumer meets records it has ingested before, in any order and
under other circumstances than the first time: another arrival, other rows, other failures.  The
system of this module delivers any record at any time, to consumers with any breaker count, while
dispatchers assign the mutable columns of the rows.

* `Outcome` — what a cycle does to the two tables, by whether its transaction took effect;
* `Settled` — why a record that was ingested once leaves nothing to do;
* `redelivery_idempotent` — redeliveries change no table, and who stored the row of a key.
-/

namespace Kafkaman
namespace Ingest

open Lib Broker Received

/-! ## What a record says, whenever it is read -/

section Reading

variable {P : Type} {consumer : Consumer P} {env : CycleEnv} {record : KafkaRecord}
  {insert : InsertReceivedRow}

/-- The message id on the wire, if there is a readable one. -/
def headerMessageId (codec : Codec) (record : KafkaRecord) : Option Uuid :=
  match parseOptional (parseUuidHeader codec "kafkaman-message-id")
      ((RecordHeaders.of record).get "kafkaman-message-id") with
  | .ok messageId => messageId
  | .error _ => none

/-- What an insert takes from its record and from the cycle. -/
structure ReadOff (consumer : Consumer P) (env : CycleEnv) (record : KafkaRecord)
    (insert : InsertReceivedRow) : Prop where
  messageId : insert.messageId =
    (headerMessageId consumer.codec record).getD env.arrival.messageId
  key : idempotencyKeyOf consumer.codec record = some insert.idempotencyKey
  topic : insert.topic = record.topic
  partition : insert.partition = record.partition
  offset : insert.offset = record.offset

theorem readOff_of_reading (h : reading consumer env record = some insert) :
    ReadOff consumer env record insert := by
  rcases reading_eq_some.1 h with ⟨d, hdecoded, hprepared⟩
  have hprep := prepared_of_prepareReceived hprepared
  rcases recordEnvelope_eq_ok.1 hdecoded with ⟨htopic, payload, -, identity, hidentity, _, -,
    messageId, hmessageId, _, -, _, -, rfl⟩
  rcases hprep.identity with ⟨identity', hsome, hkey⟩
  cases hsome
  exact
    { messageId := by rw [hprep.messageId, headerMessageId, hmessageId]
      key := by rw [idempotencyKeyOf, hidentity, hkey]
      topic := hprep.topic.trans htopic.symm
      partition := hprep.partition
      offset := hprep.offset }

/-- Whether a record comes to an insert depends on the record alone: what the arrival fills in is
copied into the row and looked at by nobody before. -/
theorem reading_of_reading (h : reading consumer env record = some insert) (env' : CycleEnv) :
    ∃ insert', reading consumer env' record = some insert' := by
  rcases reading_eq_some.1 h with ⟨d, hdecoded, hprepared⟩
  rcases recordEnvelope_eq_ok.1 hdecoded with ⟨htopic, payload, hpayload, identity, hidentity,
    occurredAt, hoccurredAt, messageId, hmessageId, correlationId, hcorrelationId, causationId,
    hcausationId, rfl⟩
  rcases prepareReceived_eq_ok.1 hprepared with ⟨hheaders, identity', hidentity', value, hvalue,
    entityKey, hentityKey, -⟩
  -- The same pieces, put together with the other arrival.
  exact ⟨_, reading_eq_some.2 ⟨_,
    recordEnvelope_eq_ok.2 ⟨htopic, payload, hpayload, identity, hidentity, occurredAt, hoccurredAt,
      messageId, hmessageId, correlationId, hcorrelationId, causationId, hcausationId, rfl⟩,
    prepareReceived_eq_ok.2
      ⟨hheaders, identity', hidentity', value, hvalue, entityKey, hentityKey, rfl⟩⟩⟩

theorem refusal_of_reading {store : Store} (h : reading consumer env record = some insert) :
    refusal consumer env record store =
      if (insertReceivedRow env.now insert store.received).2 = .messageIdConflict then
        some (.messageIdConflict, conflictText consumer insert.messageId)
      else
        none := by
  rcases reading_eq_some.1 h with ⟨d, hdecoded, hprepared⟩
  rw [refusal, hdecoded]
  dsimp only
  rw [hprepared]

end Reading

/-! ## What a cycle does to the tables -/

def Store.tables (store : Store) : ReceivedTable × QuarantineTable :=
  (store.received, store.quarantine)

/-- The cycle as the server sees it: a `COMMIT` that lands has not failed there. -/
def CycleEnv.atServer (env : CycleEnv) : CycleEnv :=
  { env with
    fails := fun point =>
      match point with
      | .commitStore | .commitQuarantine => if env.lands then none else env.fails point
      | _ => env.fails point }

section Effect

variable {P : Type} (consumer : Consumer P) (env : CycleEnv) (record : KafkaRecord)
  (store : Store)

/-- Whether the record's transaction took effect. -/
def commits : Bool :=
  (ingestOnce consumer env.atServer record store).written

/-- What the record's transaction writes. -/
def settledTables : ReceivedTable × QuarantineTable :=
  (match reading consumer env record with
    | some insert => (insertReceivedRow env.now insert store.received).1
    | none => store.received,
   match refusal consumer env record store with
    | some refused =>
        insertReceivedIngestFailure (refusedRecord consumer record refused) store.quarantine
    | none => store.quarantine)

variable {consumer env record store}

/-- A result beside the server's: the transaction took effect and left `after`, or it did not and
left `before`. -/
def Outcome (result server : CycleResult) (before after : ReceivedTable × QuarantineTable) :
    Prop :=
  (server.written = true ∧ result.store.tables = after) ∨
    (server.written = false ∧ result.store.tables = before)

theorem outcome_abandon {error error' : IngestError}
    {after : ReceivedTable × QuarantineTable} :
    Outcome (abandon store error) (abandon store error') store.tables after :=
  Or.inr ⟨rfl, rfl⟩

theorem tables_commitRecord {stats : IngestStats} :
    (commitRecord env record stats store).store.tables = store.tables ∧
      (commitRecord env record stats store).written = true := by
  unfold commitRecord
  cases env.fails .commitRecord <;> exact ⟨rfl, rfl⟩

theorem tables_countSkip :
    (countSkip consumer env record store).store.tables = store.tables ∧
      (countSkip consumer env record store).written = true := by
  unfold countSkip
  split
  · exact ⟨rfl, rfl⟩
  · exact tables_commitRecord

/-- The step that decides: the `COMMIT`. -/
theorem outcome_commitTransaction {point : Point} {after : Store}
    {andThen andThen' : Store → CycleResult}
    (hpoint : env.atServer.fails point = if env.lands then none else env.fails point)
    (hthen : (andThen after).store.tables = after.tables)
    (hwritten : (andThen' after).written = true) :
    Outcome (commitTransaction env point store after andThen)
      (commitTransaction env.atServer point store after andThen') store.tables after.tables := by
  unfold commitTransaction
  rw [hpoint]
  cases env.fails point with
  | none =>
      refine Or.inl ⟨?_, hthen⟩
      cases env.lands <;> exact hwritten
  | some text =>
      cases env.lands with
      | false =>
          exact Or.inr ⟨rfl, by simp [abandon]⟩
      | true =>
          exact Or.inl ⟨hwritten, by simp [abandon]⟩

theorem outcome_quarantine {kind : ReceivedIngestFailureKind} {error : String} :
    Outcome (quarantine consumer env record kind error store)
      (quarantine consumer env.atServer record kind error store) store.tables
      (Store.refuse consumer record store kind error).tables := by
  unfold quarantine
  have hbegin : env.atServer.fails .beginQuarantine = env.fails .beginQuarantine := rfl
  have hinsert : env.atServer.fails .insertQuarantine = env.fails .insertQuarantine := rfl
  rw [hbegin, hinsert]
  cases env.fails .beginQuarantine with
  | some text =>
      exact outcome_abandon
  | none =>
      cases env.fails .insertQuarantine with
      | some text =>
          exact outcome_abandon
      | none =>
          exact outcome_commitTransaction rfl tables_countSkip.1 tables_countSkip.2

theorem received_settledTables {insert : InsertReceivedRow}
    (hread : reading consumer env record = some insert) :
    (settledTables consumer env record store).1 =
      (insertReceivedRow env.now insert store.received).1 := by
  rw [settledTables, hread]

theorem outcome_storeRow {insert : InsertReceivedRow}
    (hreading : reading consumer env record = some insert) :
    Outcome (storeRow consumer env record insert store)
      (storeRow consumer env.atServer record insert store) store.tables
      (settledTables consumer env record store) := by
  have hinsert : env.atServer.fails .insertReceived = env.fails .insertReceived := rfl
  have hfailure : env.atServer.fails .insertFailure = env.fails .insertFailure := rfl
  have hnow : env.atServer.now = env.now := rfl
  unfold storeRow settledTables
  rw [hinsert, hfailure, hnow, hreading, refusal_of_reading hreading]
  cases env.fails .insertReceived with
  | some text =>
      exact outcome_abandon
  | none =>
      dsimp only
      by_cases hconflict :
          (insertReceivedRow env.now insert store.received).2 = .messageIdConflict
      · simp only [if_pos hconflict]
        cases env.fails .insertFailure with
        | some text =>
            exact outcome_abandon
        | none =>
            exact outcome_commitTransaction rfl tables_countSkip.1 tables_countSkip.2
      · simp only [if_neg hconflict]
        exact outcome_commitTransaction rfl tables_commitRecord.1 tables_commitRecord.2

theorem settledTables_of_refused {kind : ReceivedIngestFailureKind} {error : String}
    (h : reading consumer env record = none ∧
      refusal consumer env record store = some (kind, error)) :
    settledTables consumer env record store =
      (Store.refuse consumer record store kind error).tables := by
  rw [settledTables, h.1, h.2]
  rfl

theorem outcome_storeRecord {d : DecodedRecord P}
    (hdecoded : decoded consumer env record = .ok d) :
    Outcome (storeRecord consumer env record d store)
      (storeRecord consumer env.atServer record d store) store.tables
      (settledTables consumer env record store) := by
  have hbegin' : env.atServer.fails .beginStore = env.fails .beginStore := rfl
  have hprepared' : prepared consumer env.atServer record d = prepared consumer env record d := rfl
  cases hbegin : env.fails .beginStore with
  | some text =>
      rw [storeRecord, storeRecord, hbegin', hbegin]
      exact outcome_abandon
  | none =>
      rw [storeRecord_eq hbegin, storeRecord_eq (hbegin'.trans hbegin), hprepared']
      rcases recordEnvelope_ok hdecoded with ⟨-, -, identity, -, hidentity⟩
      have hprepared := prepared_eq hdecoded hidentity
      split at hprepared
      · rw [hprepared, settledTables_of_refused (refused_of_panic hdecoded hprepared)]
        exact outcome_quarantine
      · rw [hprepared]
        exact outcome_abandon
      · split at hprepared
        · rw [hprepared, settledTables_of_refused (refused_of_panic hdecoded hprepared)]
          exact outcome_quarantine
        · rw [hprepared]
          exact outcome_storeRow (reading_eq_some.2 ⟨d, hdecoded, hprepared⟩)

/-- The step lemma: a cycle writes what its record settles to, or nothing. -/
theorem outcome_ingestOnce (consumer : Consumer P) (env : CycleEnv) (record : KafkaRecord)
    (store : Store) :
    Outcome (ingestOnce consumer env record store)
      (ingestOnce consumer env.atServer record store) store.tables
      (settledTables consumer env record store) := by
  have hdecoded' : decoded consumer env.atServer record = decoded consumer env record := rfl
  rw [ingestOnce_eq, ingestOnce_eq, hdecoded']
  cases hdecoded : decoded consumer env record with
  | ok d =>
      exact outcome_storeRecord hdecoded
  | error error =>
      obtain ⟨kind, hkind⟩ := Option.isSome_iff_exists.1
        (ingestFailureKind_of_recordEnvelope hdecoded)
      simp only [hkind]
      rw [settledTables_of_refused (refused_of_undecodable hdecoded hkind)]
      exact outcome_quarantine

end Effect

/-! ## Settled records -/

section Settled

variable {P : Type} (consumer : Consumer P)

/-- The source a quarantine row is keyed by. -/
def sourceOf (record : KafkaRecord) : String × Int × Int :=
  (record.topic, record.partition, record.offset)

/-- Why an ingested record leaves nothing to do: its key is stored; or it is quarantined, and comes
to no insert or to one under the id of a stored row. -/
inductive Settled (tables : ReceivedTable × QuarantineTable) (record : KafkaRecord) : Prop
  | stored (key : IdempotencyKey) (hkey : idempotencyKeyOf consumer.codec record = some key)
      (hstored : tables.1.HasIdempotencyKey key)
      (hreading : ∀ env, reading consumer env record ≠ none)
  | quarantined (hsource : tables.2.HasKey (sourceOf record))
      (hreading : ∀ env insert, reading consumer env record = some insert →
        ∃ id, headerMessageId consumer.codec record = some id ∧ tables.1.toTable.HasKey id)

/-- Rows are added or reassigned, and none goes away. -/
structure Keeps (tables tables' : ReceivedTable × QuarantineTable) : Prop where
  ids : ∀ id, tables.1.toTable.HasKey id → tables'.1.toTable.HasKey id
  keys : ∀ key, tables.1.HasIdempotencyKey key → tables'.1.HasIdempotencyKey key
  sources : ∀ source, tables.2.HasKey source → tables'.2.HasKey source

variable {consumer} {env : CycleEnv} {record : KafkaRecord} {store : Store}
  {tables tables' : ReceivedTable × QuarantineTable}

theorem Settled.mono (h : Settled consumer tables record) (hkeeps : Keeps tables tables') :
    Settled consumer tables' record := by
  cases h with
  | stored key hkey hstored hreading =>
      exact .stored key hkey (hkeeps.keys key hstored) hreading
  | quarantined hsource hreading =>
      refine .quarantined (hkeeps.sources _ hsource) ?_
      intro env insert hinsert
      rcases hreading env insert hinsert with ⟨id, hid, hhas⟩
      exact ⟨id, hid, hkeeps.ids id hhas⟩

theorem insertReceivedIngestFailure_of_hasKey {failure : ReceivedIngestFailure}
    {t : QuarantineTable} (h : t.HasKey (failureSource failure)) :
    insertReceivedIngestFailure failure t = t := by
  rw [insertReceivedIngestFailure, Table.insert?_eq_none.2 h]
  rfl

theorem settledTables_of_settled (h : Settled consumer store.tables record) :
    settledTables consumer env record store = store.tables := by
  cases hread : reading consumer env record with
  | none =>
      cases h with
      | stored _ _ _ hreading =>
          exact absurd hread (hreading env)
      | quarantined hsource _ =>
          rw [settledTables, hread]
          cases refusal consumer env record store with
          | none =>
              rfl
          | some refused =>
              exact congrArg (Prod.mk store.received)
                (insertReceivedIngestFailure_of_hasKey hsource)
  | some insert =>
      have hoff := readOff_of_reading hread
      rw [settledTables, hread, refusal_of_reading hread]
      cases h with
      | stored key hkey hstored _ =>
          have hsame : insert.idempotencyKey = key := Option.some.inj (hoff.key.symm.trans hkey)
          rcases insertEnd env.now insert store.received with ⟨-, heq⟩ | ⟨hnot, -, -⟩ |
            ⟨hnot, -, -, -, -⟩
          · simp [heq, Store.tables]
          · exact absurd (hsame ▸ hstored) hnot
          · exact absurd (hsame ▸ hstored) hnot
      | quarantined hsource hreading =>
          -- The id on the wire is still taken, so the row cannot go in now either.
          rcases hreading env insert hread with ⟨id, hid, hhas⟩
          have hsame : insert.messageId = id := by rw [hoff.messageId, hid]; rfl
          rcases insertEnd env.now insert store.received with ⟨-, heq⟩ | ⟨-, -, heq⟩ |
            ⟨-, hnot, -, -, -⟩
          · simp [heq, Store.tables]
          · simp only [heq, if_true]
            exact congrArg (Prod.mk store.received)
              (insertReceivedIngestFailure_of_hasKey hsource)
          · exact absurd (hsame ▸ hhas) hnot

theorem keeps_settledTables : Keeps store.tables (settledTables consumer env record store) := by
  have hreceived : ∀ r ∈ store.received, r ∈ (settledTables consumer env record store).1 := by
    intro r hr
    unfold settledTables
    cases reading consumer env record with
    | none =>
        exact hr
    | some insert =>
        exact mem_insertReceivedRow_of_mem hr
  refine
    { ids := fun id ⟨r, hr, hid⟩ => ⟨r, hreceived r hr, hid⟩
      keys := fun key ⟨r, hr, hkey⟩ => ⟨r, hreceived r hr, hkey⟩
      sources := ?_ }
  intro source hsource
  unfold settledTables
  cases refusal consumer env record store with
  | none =>
      exact hsource
  | some refused =>
      exact hasKey_insertReceivedIngestFailure.2 (Or.inl hsource)

/-- What a committed transaction did: it came to an insert, or it quarantined the record. -/
theorem reading_or_refusal_of_commits (h : commits consumer env record store = true) :
    (∃ insert, reading consumer env record = some insert) ∨
      reading consumer env record = none ∧
        ∃ refused, refusal consumer env record store = some refused := by
  unfold commits at h
  rcases branch_ingestOnce consumer env.atServer record store with ⟨text, -, hresult⟩ |
    ⟨kind, error, hrefusal, hreading, -, -⟩ | ⟨d, text, -, -, hresult⟩ |
    ⟨d, insert, hdecoded, hprepared, -⟩
  · rw [hresult] at h
    cases h
  · exact Or.inr ⟨hreading, (kind, error), hrefusal⟩
  · rw [hresult] at h
    cases h
  · exact Or.inl ⟨insert, reading_eq_some.2 ⟨d, hdecoded, hprepared⟩⟩

theorem hasKey_settledTables {refused : ReceivedIngestFailureKind × String}
    (h : refusal consumer env record store = some refused) :
    (settledTables consumer env record store).2.HasKey (sourceOf record) := by
  rw [settledTables, h]
  exact hasKey_insertReceivedIngestFailure.2 (Or.inr rfl)

/-- Ingested once, settled for good.  The id drawn on arrival is new: a conflict is then a conflict
of the id on the wire, which is the same at every redelivery. -/
theorem settled_of_commits (hfresh : ¬ store.received.toTable.HasKey env.arrival.messageId)
    (h : commits consumer env record store = true) :
    Settled consumer (settledTables consumer env record store) record := by
  rcases reading_or_refusal_of_commits h with ⟨insert, hread⟩ | ⟨hread, refused, hrefusal⟩
  · have hoff := readOff_of_reading hread
    have hreadable : ∀ env', reading consumer env' record ≠ none := by
      intro env' hnone
      rcases reading_of_reading hread env' with ⟨insert', hsome⟩
      rw [hnone] at hsome
      cases hsome
    have htables : (settledTables consumer env record store).1 =
        (insertReceivedRow env.now insert store.received).1 :=
      received_settledTables hread
    rcases insertEnd env.now insert store.received with ⟨hkey, -⟩ | ⟨hkey, hid, heq⟩ |
      ⟨-, -, t', hins, heq⟩
    · exact .stored _ hoff.key (keeps_settledTables.keys _ hkey) hreadable
    · have hrefusal : refusal consumer env record store =
          some (.messageIdConflict, conflictText consumer insert.messageId) := by
        rw [refusal_of_reading hread, heq]
        rfl
      refine .quarantined (hasKey_settledTables hrefusal) ?_
      intro env' insert' hread'
      -- Without an id on the wire the id was drawn just now, and drawn ids are new.
      cases hheader : headerMessageId consumer.codec record with
      | none =>
          have hdrawn : insert.messageId = env.arrival.messageId := by
            rw [hoff.messageId, hheader]
            rfl
          exact absurd (hdrawn ▸ hid) hfresh
      | some id =>
          have hwire : insert.messageId = id := by
            rw [hoff.messageId, hheader]
            rfl
          exact ⟨id, rfl, keeps_settledTables.ids id (hwire ▸ hid)⟩
    · refine .stored _ hoff.key ?_ hreadable
      rw [htables, heq]
      exact ⟨_, (ReceivedTable.mem_of_insertOrIgnore hins).2 (Or.inr rfl), rfl⟩
  · refine .quarantined (hasKey_settledTables hrefusal) ?_
    intro env' insert' hread'
    rcases reading_of_reading hread' env with ⟨insert, hsome⟩
    rw [hread] at hsome
    cases hsome

end Settled

/-! ## Deliveries in any order -/

namespace Redelivery

/-- A delivery whose transaction took effect. -/
structure Delivery where
  record : KafkaRecord
  /-- The row of the insert and what the insert reported; `none` for a record refused before. -/
  reported : Option (ReceivedRow × ReceivedInsertOutcome)

structure State where
  received : ReceivedTable
  quarantine : QuarantineTable
  /-- History: the deliveries that took effect, oldest first. -/
  history : List Delivery

/-- The records ingested so far. -/
def State.Ingested (s : State) (record : KafkaRecord) : Prop :=
  ∃ d ∈ s.history, d.record = record

inductive Action
  /-- A cycle over the record, by a consumer with its own breaker count and committed offset. -/
  | deliver (env : CycleEnv) (record : KafkaRecord) (skips committed : Nat)
  /-- A dispatcher's statement, which assigns no frozen column. -/
  | assign (p : ReceivedRow → Bool) (f : ReceivedRow → ReceivedRow)
      (hf : ∀ r, (f r).frozen = r.frozen)

section System

variable {P : Type} (consumer : Consumer P)

/-- The tables as the delivering consumer's store. -/
def State.store (s : State) (skips committed : Nat) : Store :=
  { received := s.received
    quarantine := s.quarantine
    skips := skips
    committed := committed }

/-- What a delivery that takes effect reports. -/
def report (env : CycleEnv) (record : KafkaRecord) (received : ReceivedTable) :
    Option (ReceivedRow × ReceivedInsertOutcome) :=
  (reading consumer env record).map fun insert =>
    (insert.row env.now, (insertReceivedRow env.now insert received).2)

def deliveryOf (env : CycleEnv) (record : KafkaRecord) (received : ReceivedTable) : Delivery :=
  { record := record
    reported := report consumer env record received }

def next (s : State) : Action → Option State
  | .deliver env record skips committed =>
      let store := s.store skips committed
      let result := ingestOnce consumer env record store
      some
        { received := result.store.received
          quarantine := result.store.quarantine
          history :=
            if commits consumer env record store then
              s.history ++ [deliveryOf consumer env record s.received]
            else
              s.history }
  | .assign p f hf => some { s with received := s.received.updateWhere p f hf }

def system : TransitionSystem State Action :=
  { init := fun s =>
      s.received = ReceivedTable.empty ∧ s.quarantine = Table.empty ∧ s.history = []
    next := next consumer }

/-- The id that an arrival draws is nobody's yet. -/
def Fresh (s : State) : Action → Prop
  | .deliver env _ _ _ => ¬ s.received.toTable.HasKey env.arrival.messageId
  | .assign _ _ _ => True

/-- A delivery of a record out of a set, and nothing else. -/
def Redelivers (records : KafkaRecord → Prop) (s : State) : Action → Prop
  | .deliver env record _ _ => records record ∧ ¬ s.received.toTable.HasKey env.arrival.messageId
  | .assign _ _ _ => False

def State.tables (s : State) : ReceivedTable × QuarantineTable :=
  (s.received, s.quarantine)

/-- Whether the delivery is one of the key's that came to the insert and met no conflict there. -/
def Delivery.admits (codec : Codec) (key : IdempotencyKey) (d : Delivery) : Bool :=
  idempotencyKeyOf codec d.record == some key &&
    match d.reported with
    | some (_, outcome) => outcome != .messageIdConflict
    | none => false

/-! ### Steps -/

/-- What a delivery does to the state. -/
inductive Delivered (s : State) (env : CycleEnv) (record : KafkaRecord) (s' : State) : Prop
  | took (skips committed : Nat)
      (hcommits : commits consumer env record (s.store skips committed) = true)
      (htables : s'.tables = settledTables consumer env record (s.store skips committed))
      (hhistory : s'.history = s.history ++ [deliveryOf consumer env record s.received])
  | failed (htables : s'.tables = s.tables) (hhistory : s'.history = s.history)

variable {consumer} {s s' : State} {env : CycleEnv} {record : KafkaRecord} {skips committed : Nat}

theorem delivered_of_next
    (h : next consumer s (.deliver env record skips committed) = some s') :
    Delivered consumer s env record s' := by
  have hs' := Option.some.inj h
  rcases outcome_ingestOnce consumer env record (s.store skips committed) with
    ⟨hwritten, htables⟩ | ⟨hwritten, htables⟩
  · have hcommits : commits consumer env record (s.store skips committed) = true := hwritten
    refine .took skips committed hcommits ?_ ?_
    · rw [← hs']
      exact htables
    · rw [← hs']
      exact if_pos hcommits
  · have hcommits : ¬ commits consumer env record (s.store skips committed) = true := by
      rw [commits, hwritten]
      exact Bool.false_ne_true
    refine .failed ?_ ?_
    · rw [← hs']
      exact htables
    · rw [← hs']
      exact if_neg hcommits

theorem tables_of_settled (hsettled : Settled consumer s.tables record)
    (h : next consumer s (.deliver env record skips committed) = some s') :
    s'.tables = s.tables := by
  rcases delivered_of_next h with ⟨skips', committed', -, htables, -⟩ | ⟨htables, -⟩
  · rw [htables]
    exact settledTables_of_settled hsettled
  · exact htables

theorem keeps_updateWhere {t : ReceivedTable} {q : QuarantineTable} {p : ReceivedRow → Bool}
    {f : ReceivedRow → ReceivedRow} (hf : ∀ r, (f r).frozen = r.frozen) :
    Keeps (t, q) (t.updateWhere p f hf, q) := by
  refine
    { ids := fun id hid => (ReceivedTable.hasKey_updateWhere hf).2 hid
      keys := ?_
      sources := fun _ h => h }
  rintro key ⟨r, hr, rfl⟩
  rcases ReceivedTable.persists_updateWhere hf r hr with ⟨r', hr', hfrozen⟩
  exact ⟨r', hr', idempotencyKey_of_frozen hfrozen⟩

theorem keeps_of_next {a : Action} (h : next consumer s a = some s') :
    Keeps s.tables s'.tables := by
  cases a with
  | deliver env record skips committed =>
      rcases delivered_of_next h with ⟨skips', committed', -, htables, -⟩ | ⟨htables, -⟩
      · rw [htables]
        change Keeps (s.store skips' committed').tables _
        exact keeps_settledTables
      · rw [htables]
        exact
          { ids := fun _ h => h
            keys := fun _ h => h
            sources := fun _ h => h }
  | assign p f hf =>
      cases h
      exact keeps_updateWhere hf

/-! ### What every reachable state remembers -/

/-- The row of a key stems from the key's first admitted delivery. -/
structure FirstOf (codec : Codec) (history : List Delivery) (r : ReceivedRow) : Prop where
  delivered : ∃ d row, history.find? (Delivery.admits codec r.idempotencyKey) = some d ∧
    d.reported = some (row, .inserted) ∧ r.frozen = row.frozen ∧
    r.sourceTopic = d.record.topic ∧ r.sourcePartition = d.record.partition ∧
    r.sourceOffset = d.record.offset

variable (consumer) in
structure Recorded (s : State) : Prop where
  settled : ∀ d ∈ s.history, Settled consumer s.tables d.record
  admitted : ∀ d ∈ s.history, ∀ key, d.admits consumer.codec key = true →
    s.received.HasIdempotencyKey key
  first : ∀ r ∈ s.received, FirstOf consumer.codec s.history r

theorem FirstOf.append {codec : Codec} {history later : List Delivery} {r : ReceivedRow}
    (h : FirstOf codec history r) : FirstOf codec (history ++ later) r := by
  rcases h.delivered with ⟨d, row, hfind, hrest⟩
  exact ⟨d, row, by rw [List.find?_append, hfind]; rfl, hrest⟩

theorem FirstOf.frozen {codec : Codec} {history : List Delivery} {r r' : ReceivedRow}
    (h : FirstOf codec history r) (hfrozen : r'.frozen = r.frozen) : FirstOf codec history r' := by
  rcases h.delivered with ⟨d, row, hfind, hreported, hrow, htopic, hpartition, hoffset⟩
  refine ⟨d, row, ?_, hreported, hfrozen.trans hrow, ?_, ?_, ?_⟩
  · rw [idempotencyKey_of_frozen hfrozen]
    exact hfind
  · exact (congrArg ReceivedRow.sourceTopic hfrozen).trans htopic
  · exact (congrArg ReceivedRow.sourcePartition hfrozen).trans hpartition
  · exact (congrArg ReceivedRow.sourceOffset hfrozen).trans hoffset

theorem admits_iff {codec : Codec} {received : ReceivedTable} {insert : InsertReceivedRow}
    (hcodec : consumer.codec = codec) (hread : reading consumer env record = some insert)
    {key : IdempotencyKey} :
    (deliveryOf consumer env record received).admits codec key = true ↔
      insert.idempotencyKey = key ∧
        (insertReceivedRow env.now insert received).2 ≠ .messageIdConflict := by
  have hkey := (readOff_of_reading hread).key
  rw [hcodec] at hkey
  simp [Delivery.admits, deliveryOf, report, hread, hkey]

theorem firstOf_inserted {insert : InsertReceivedRow}
    (hread : reading consumer env record = some insert)
    (hadmitted : ∀ d ∈ s.history, ∀ key, d.admits consumer.codec key = true →
      s.received.HasIdempotencyKey key)
    (hkey : ¬ s.received.HasIdempotencyKey insert.idempotencyKey)
    (hinserted : (insertReceivedRow env.now insert s.received).2 = .inserted) :
    FirstOf consumer.codec (s.history ++ [deliveryOf consumer env record s.received])
      (insert.row env.now) := by
  have hoff := readOff_of_reading hread
  -- No earlier delivery of the key was admitted, or the key would be stored.
  have hnone : s.history.find? (Delivery.admits consumer.codec insert.idempotencyKey) = none := by
    rw [List.find?_eq_none]
    intro d hd hadmits
    exact hkey (hadmitted d hd _ hadmits)
  have hadmits : (deliveryOf consumer env record s.received).admits consumer.codec
      insert.idempotencyKey = true := by
    rw [admits_iff rfl hread, hinserted]
    exact ⟨rfl, by decide⟩
  refine ⟨deliveryOf consumer env record s.received, insert.row env.now, ?_, ?_, rfl, hoff.topic,
    hoff.partition, hoff.offset⟩
  · change List.find? (Delivery.admits consumer.codec insert.idempotencyKey) _ = _
    rw [List.find?_append, hnone, List.find?_cons_of_pos hadmits]
    rfl
  · simp [deliveryOf, report, hread, hinserted]

theorem stored_of_admits {key : IdempotencyKey}
    (h : (deliveryOf consumer env record s.received).admits consumer.codec key = true) :
    (settledTables consumer env record (s.store skips committed)).1.HasIdempotencyKey key := by
  cases hread : reading consumer env record with
  | none =>
      simp [Delivery.admits, deliveryOf, report, hread] at h
  | some insert =>
      rcases (admits_iff rfl hread).1 h with ⟨rfl, hconflict⟩
      rcases insertReceivedRow_spec env.now insert s.received with hrow | hkey | hid
      · rw [received_settledTables hread]
        exact ⟨_, hrow, rfl⟩
      · exact keeps_settledTables.keys _ hkey
      · exact absurd hid hconflict

theorem Recorded.deliver (hs : Recorded consumer s)
    (hfresh : ¬ s.received.toTable.HasKey env.arrival.messageId)
    (h : next consumer s (.deliver env record skips committed) = some s') :
    Recorded consumer s' := by
  have hkeeps := keeps_of_next h
  rcases delivered_of_next h with ⟨skips', committed', hcommits, htables, hhistory⟩ |
    ⟨htables, hhistory⟩
  · refine
      { settled := ?_
        admitted := ?_
        first := ?_ }
    · intro d hd
      rw [hhistory, List.mem_append, List.mem_singleton] at hd
      rcases hd with hd | rfl
      · exact (hs.settled d hd).mono hkeeps
      · rw [htables]
        exact settled_of_commits hfresh hcommits
    · intro d hd key hadmits
      rw [hhistory, List.mem_append, List.mem_singleton] at hd
      rcases hd with hd | rfl
      · exact hkeeps.keys key (hs.admitted d hd key hadmits)
      · change s'.tables.1.HasIdempotencyKey key
        rw [htables]
        exact stored_of_admits hadmits
    · intro r hr
      change r ∈ s'.tables.1 at hr
      rw [htables] at hr
      rw [hhistory]
      cases hread : reading consumer env record with
      | none =>
          rw [settledTables, hread] at hr
          exact (hs.first r hr).append
      | some insert =>
          rw [received_settledTables hread] at hr
          -- A row that was there keeps its delivery; a row that was not is this delivery's.
          rcases insertEnd env.now insert s.received with ⟨-, heq⟩ | ⟨-, -, heq⟩ |
            ⟨hkey, -, t', hins, heq⟩
          · exact (hs.first r (by simpa [State.store, heq] using hr)).append
          · exact (hs.first r (by simpa [State.store, heq] using hr)).append
          · rcases mem_of_insertReceivedRow hr with hold | rfl
            · exact (hs.first r hold).append
            · exact firstOf_inserted hread hs.admitted hkey (by rw [heq])
  · have hreceived : s'.received = s.received := congrArg Prod.fst htables
    exact
      { settled := by rw [hhistory, htables]; exact hs.settled
        admitted := by rw [hhistory, hreceived]; exact hs.admitted
        first := by rw [hhistory, hreceived]; exact hs.first }

theorem Recorded.assign (hs : Recorded consumer s) {p : ReceivedRow → Bool}
    {f : ReceivedRow → ReceivedRow} (hf : ∀ r, (f r).frozen = r.frozen) :
    Recorded consumer { s with received := s.received.updateWhere p f hf } := by
  have hkeeps : Keeps s.tables (s.received.updateWhere p f hf, s.quarantine) :=
    keeps_updateWhere hf
  refine
    { settled := fun d hd => (hs.settled d hd).mono hkeeps
      admitted := fun d hd key hadmits => hkeeps.keys key (hs.admitted d hd key hadmits)
      first := ?_ }
  intro r' hr'
  rcases (@ReceivedTable.mem_updateWhere s.received p f hf r').1 hr' with ⟨r, hr, rfl⟩
  refine (hs.first r hr).frozen ?_
  split
  · exact hf r
  · rfl

theorem recorded_of_reachable (h : (system consumer).ReachableBy Fresh s) :
    Recorded consumer s := by
  refine TransitionSystem.ReachableBy.invariant ?_ ?_ h
  · rintro s ⟨hreceived, -, hhistory⟩
    exact
      { settled := by simp [hhistory]
        admitted := by simp [hhistory]
        first := by simp [hreceived] }
  · intro s a s' hs hfresh hnext
    cases a with
    | deliver env record skips committed =>
        exact hs.deliver hfresh hnext
    | assign p f hf =>
        cases hnext
        exact hs.assign hf

/-! ### Redeliveries -/

/-- The run lemma: redeliveries of settled records, in any number and order. -/
theorem tables_of_redeliveries {records : KafkaRecord → Prop} :
    ∀ {as : List Action} {s s' : State},
      (∀ record, records record → Settled consumer s.tables record) →
      (system consumer).runOk (Redelivers records) s as → (system consumer).run s as = some s' →
      s'.tables = s.tables := by
  intro as
  induction as with
  | nil =>
      intro s s' _ _ hrun
      cases hrun
      rfl
  | cons a as ih =>
      intro s s' hsettled hok hrun
      rcases Option.bind_eq_some_iff.1 hrun with ⟨s₁, hnext, hrun'⟩
      have hok' : (system consumer).runOk (Redelivers records) s₁ as := by
        have hrest := hok.2
        rw [hnext] at hrest
        exact hrest
      cases a with
      | deliver env record skips committed =>
          have hsame : s₁.tables = s.tables :=
            tables_of_settled (hsettled record hok.1.1) hnext
          exact (ih (by rw [hsame]; exact hsettled) hok' hrun').trans hsame
      | assign p f hf =>
          exact absurd hok.1 id

theorem iterate_delivers {partition : Int} {log : Nat → KafkaRecord} {t t' : Ingest.State}
    {a : Ingest.Action} (htables : t.store.tables = s.tables)
    (h : Ingest.next consumer partition log t a = some t') :
    t'.store.tables = s.tables ∨
      ∃ env s', next consumer s (.deliver env (recordAt partition log t.position) t.store.skips
        t.store.committed) = some s' ∧ t'.store.tables = s'.tables := by
  cases a with
  | restart =>
      cases h
      exact Or.inl htables
  | cycle env =>
      simp only [Ingest.next] at h
      split at h
      · cases h
        -- The loop's own fields go into the delivery; only the tables are the state here.
        have hstore : t.store = s.store t.store.skips t.store.committed := by
          have hreceived : t.store.received = s.received := congrArg Prod.fst htables
          have hquarantine : t.store.quarantine = s.quarantine := congrArg Prod.snd htables
          rw [State.store, ← hreceived, ← hquarantine]
        unfold iterate
        cases env.fails .recv with
        | some text =>
            exact Or.inl htables
        | none =>
            refine Or.inr ⟨env, _, rfl, ?_⟩
            dsimp only
            rw [← hstore]
            rfl
      · cases h

end System

/-! ### Idempotence -/

/-- **Ingesting again changes nothing.**  From every reachable state, any sequence of redeliveries
leaves both tables as they are; ids and keys are unique; the row of a key is that of the first
delivery that came to the insert without a conflict; and a conflict is exactly an id of a stored row
under a key of none. -/
theorem redelivery_idempotent {P : Type} (consumer : Consumer P) {s : State}
    (h : (system consumer).ReachableBy Fresh s) :
    (∀ as s', (system consumer).runOk (Redelivers s.Ingested) s as →
        (system consumer).run s as = some s' →
        s'.received = s.received ∧ s'.quarantine = s.quarantine) ∧
      (s.received.rows.map ReceivedRow.messageId).Nodup ∧
      (s.received.rows.map ReceivedRow.idempotencyKey).Nodup ∧
      (∀ r ∈ s.received, FirstOf consumer.codec s.history r) ∧
      ∀ env record,
        (∃ row, report consumer env record s.received = some (row, .messageIdConflict)) ↔
          ∃ insert, reading consumer env record = some insert ∧
            s.received.toTable.HasKey insert.messageId ∧
            ¬ s.received.HasIdempotencyKey insert.idempotencyKey := by
  have hrecorded := recorded_of_reachable h
  refine ⟨?_, s.received.primaryKey, s.received.dedupe, hrecorded.first, ?_⟩
  · intro as s' hok hrun
    have hsettled : ∀ record, s.Ingested record → Settled consumer s.tables record := by
      rintro record ⟨d, hd, rfl⟩
      exact hrecorded.settled d hd
    have htables := tables_of_redeliveries hsettled hok hrun
    exact ⟨congrArg Prod.fst htables, congrArg Prod.snd htables⟩
  · intro env record
    cases hread : reading consumer env record with
    | none =>
        simp [report, hread]
    | some insert =>
        have hconflict := @insertReceivedRow_conflict_iff env.now insert s.received
        simp [report, hread, hconflict]

/-! ### Three records of two keys -/

instance (s : State) (a : Action) : Decidable (Fresh s a) :=
  match a with
  | .deliver env _ _ _ =>
      inferInstanceAs (Decidable (¬ s.received.toTable.HasKey env.arrival.messageId))
  | .assign _ _ _ => isTrue trivial

/-- A record under a key, with a payload and an id on the wire or without. -/
def keyedRecord (offset : Nat) (key : UInt8) (payload : Option String) (id : Option Uuid) :
    KafkaRecord :=
  { textLog offset with
    payload := payload.map fun text => Utf8.textBytes (Spelling.jsonText (.string text))
    headers :=
      { key := "kafkaman-idempotency-key"
        value := some (Utf8.textBytes (IdempotencyKey.ofByte key).toHex) } ::
      id.toList.map fun id =>
        { key := "kafkaman-message-id"
          value := some (Utf8.textBytes (Spelling.uuidText id)) } }

/-- An undisturbed cycle over the record that draws the id. -/
def keyedDelivery (id : Uuid) (record : KafkaRecord) : Action :=
  .deliver
    { arrival := { messageId := id, correlationId := id, now := 0 }
      trace := none
      now := 0
      fails := fun _ => none
      lands := false
      cancelled := false }
    record 0 0

def emptyTables : State :=
  { received := ReceivedTable.empty
    quarantine := Table.empty
    history := [] }

theorem reachable_emptyTables {P : Type} (consumer : Consumer P) :
    (system consumer).ReachableBy Fresh emptyTables :=
  TransitionSystem.ReachableBy.start ⟨rfl, rfl, rfl⟩

/-- A record is stored, another is refused under the same id; redelivering both changes nothing. -/
theorem redelivery_idempotent_conflict :
    ∃ s, (system textConsumer).ReachableBy Fresh s ∧ s.received.rows.length = 1 ∧
      s.quarantine.rows.length = 1 ∧ s.history.length = 2 ∧
      ∀ as s', (system textConsumer).runOk (Redelivers s.Ingested) s as →
        (system textConsumer).run s as = some s' →
        s'.received = s.received ∧ s'.quarantine = s.quarantine := by
  obtain ⟨s, hreach, hcounts⟩ : ∃ s, (system textConsumer).ReachableBy Fresh s ∧
      (s.received.rows.length = 1 ∧ s.quarantine.rows.length = 1 ∧ s.history.length = 2) :=
    TransitionSystem.exists_reachableBy_of_run (reachable_emptyTables textConsumer)
      [keyedDelivery 1 (keyedRecord 0 7 (some "x") (some 5)),
        keyedDelivery 2 (keyedRecord 1 8 (some "y") (some 5))]
      (by decide +kernel) (by decide +kernel)
  exact ⟨s, hreach, hcounts.1, hcounts.2.1, hcounts.2.2,
    (redelivery_idempotent textConsumer hreach).1⟩

/-- Whether the delivery is one of the key's that met no conflict, wherever it ended. -/
def Delivery.unconflicted (codec : Codec) (key : IdempotencyKey) (d : Delivery) : Bool :=
  idempotencyKeyOf codec d.record == some key &&
    d.reported.all fun reported => reported.2 != .messageIdConflict

/-- The first record of the key has no payload and is quarantined; it met no conflict.  The row of
the key is that of the second record. -/
theorem refused_record_precedes_row :
    ∃ s, (system textConsumer).ReachableBy Fresh s ∧ ∃ r ∈ s.received, ∃ d,
      s.history.find? (Delivery.unconflicted textConsumer.codec r.idempotencyKey) = some d ∧
        d.record.offset ≠ r.sourceOffset := by
  obtain ⟨s, hreach, r, hr, hfirst⟩ : ∃ s, (system textConsumer).ReachableBy Fresh s ∧
      ∃ r ∈ s.received.rows,
        ((s.history.find? (Delivery.unconflicted textConsumer.codec r.idempotencyKey)).any
          fun d => d.record.offset != r.sourceOffset) = true :=
    TransitionSystem.exists_reachableBy_of_run (reachable_emptyTables textConsumer)
      [keyedDelivery 1 (keyedRecord 0 7 none none),
        keyedDelivery 2 (keyedRecord 1 7 (some "x") none)]
      (by decide +kernel) (by decide +kernel)
  rcases (Option.any_eq_true _ _).1 hfirst with ⟨d, hfind, hoffset⟩
  exact ⟨s, hreach, r, hr, d, hfind, by simpa using hoffset⟩

end Redelivery
end Ingest
end Kafkaman
