import Kafkaman.EndToEnd.System
import Mathlib.Data.List.Pairwise

/-!
# EndToEnd.Convergence — a settled entity shows its newest state

A received row copies the outbox row its record was published from (`copies_of_stems`), and offsets
follow the outbox's order (`offset_lt_of_order_lt`).  So once an entity has settled on both sides, the
record of greatest offset is one of the newest accepted row, and that is what the cache shows.
-/

namespace Kafkaman
namespace EndToEnd

open Lib Outbox Broker Received

variable {P σ ω : Type}

/-! ## Assumptions -/

/-- The payload type reads back what it wrote. -/
def RoundTrips (pipeline : Pipeline P σ ω) : Prop :=
  ∀ payload value bytes, pipeline.message.toValue payload = .returned (.ok value) →
    pipeline.codec.jsonBytes value = .ok bytes →
      pipeline.message.fromSlice bytes = .returned (.ok payload)

/-- An entity always maps to the same record key. -/
def Keyed (pipeline : Pipeline P σ ω) (recordKey : String → Option String) : Prop :=
  ∀ payload entity partitionKey, pipeline.message.entityKey payload = .returned entity →
    pipeline.message.partitionKey payload = .returned partitionKey →
      (partitionKey <|> some entity) = recordKey entity

/-- Both sides are done with the entity. -/
structure Settled (w : World σ) (entity : String) : Prop where
  outbox : ∀ r ∈ w.relay.outbox.table, r.entityKey = some entity → r.status.isTerminal = true
  topic : ∀ index entry, w.relay.log[index]? = some entry → entry.row.entityKey = some entity →
    index ∈ w.ingested
  received : ∀ r ∈ w.consumer.db.received, r.entityKey = some entity → r.status = .processed

/-! ## Received rows are copies -/

/-- What a received row has of the outbox row behind it. -/
structure Copies (pipeline : Pipeline P σ ω) (r : ReceivedRow) (entry : Relay.Appended) : Prop where
  topic : r.sourceTopic = pipeline.descriptor.topic
  partition : r.sourcePartition = entry.record.partition
  offset : r.sourceOffset = entry.record.offset
  idempotencyKey : entry.row.idempotencyKey = some r.idempotencyKey
  payload : r.payload = entry.row.payload
  entityKey : r.entityKey = entry.row.entityKey

/-- The relay's side of a run, for a pipeline. -/
abbrev Delivery (pipeline : Pipeline P σ ω) (relay : Relay.World) : Prop :=
  Relay.Delivery pipeline.message.toKafkaMessage pipeline.descriptor pipeline.codec
    pipeline.partitioner relay

/-- The same without an order of the topic. -/
abbrev Carriage (pipeline : Pipeline P σ ω) (relay : Relay.World) : Prop :=
  Relay.Carriage pipeline.message.toKafkaMessage pipeline.descriptor pipeline.codec
    pipeline.partitioner relay

section Copies

variable {pipeline : Pipeline P σ ω} {relay : Relay.World} {entry : Relay.Appended}

theorem entry_spec (h : Carriage pipeline relay) (hentry : entry ∈ relay.log) :
    (∃ o ∈ relay.outbox.enqueued, o.status ≠ .failed ∧ o.frozen = entry.row.frozen) ∧
      Published pipeline.codec entry.row entry.request.record ∧
      (∃ payload entity, Written pipeline.message.toKafkaMessage pipeline.descriptor entry.row
        payload entity) ∧
      ∃ key, entry.row.idempotencyKey = some key := by
  rcases h.carried.requests entry.request (Or.inr ⟨entry, hentry, rfl⟩) with
    ⟨⟨o, ho, haccepted, hfrozen⟩, hpublished, -⟩
  rcases h.contents.written o ho with ⟨payload, entity, hwritten⟩
  rcases h.contents.identified o ho haccepted with ⟨key, hkey⟩
  have hsame : o.idempotencyKey = entry.row.idempotencyKey :=
    Outbox.idempotencyKey_of_frozen hfrozen
  exact ⟨⟨o, ho, haccepted, hfrozen⟩, hpublished,
    ⟨payload, entity, hwritten.of_frozen hfrozen⟩, key, hsame ▸ hkey⟩

theorem decodeIdentity_of_entry (h : Carriage pipeline relay)
    (hentry : entry ∈ relay.log) {identity : IdempotencyIdentity}
    (hidentity : decodeIdentity pipeline.codec (RecordHeaders.of entry.record) =
      .ok identity) : entry.row.idempotencyKey = some identity.key := by
  rcases entry_spec h hentry with ⟨-, hpublished, ⟨_, _, hwritten⟩, key, hkey⟩
  rcases h.positions.landed entry hentry with ⟨offset, hland⟩
  rcases decodeIdentity_of_published hpublished hwritten.headers hkey
    (pipeline.partitioner entry.request.record.key) offset with ⟨identity', hread, hsame⟩
  rw [← hland, hidentity] at hread
  cases hread
  rw [hkey, hsame]

theorem copies_of_stems (hround : RoundTrips pipeline) (h : Carriage pipeline relay)
    (hentry : entry ∈ relay.log) {r : ReceivedRow} (hstems : Stems pipeline r entry.record) :
    Copies pipeline r entry := by
  rcases hstems with ⟨arrival, trace, decoded, insert, now, hdecoded, hinsert, hrow⟩
  rcases recordEnvelope_ok hdecoded with ⟨-, hpayload, identity, hidentity, henvelope⟩
  rcases entry_spec h hentry with ⟨-, hpublished, ⟨payload, entity, hwritten⟩, -⟩
  rcases h.positions.landed entry hentry with ⟨offset, hland⟩
  have hprepared := prepared_of_prepareReceived hinsert
  -- The payload is serialized once more, to what the outbox row holds.
  have hbytes : entry.record.payload = some entry.request.record.payload := by
    rw [hland]
    rfl
  have hdecodes : decoded.envelope.payload = payload := by
    have hread := hround payload _ _ hwritten.payload hpublished.payload
    rw [decodePayload, hbytes] at hpayload
    simp only [hread, Except.ok.injEq] at hpayload
    exact hpayload.symm
  have hvalue : insert.payload = entry.row.payload := by
    have hagain := hprepared.payload
    rw [hdecodes, hwritten.payload] at hagain
    exact (Except.ok.inj (AppCall.returned.inj hagain)).symm
  have hentity : some insert.entityKey = entry.row.entityKey := by
    have hagain := hprepared.entityKey
    rw [hdecodes, hwritten.entityKey] at hagain
    rw [← AppCall.returned.inj hagain, hwritten.entityKey_eq]
  have hkey : entry.row.idempotencyKey = some insert.idempotencyKey := by
    rcases hprepared.identity with ⟨identity', henvelope', hsame⟩
    rw [henvelope] at henvelope'
    cases henvelope'
    rw [hsame]
    exact decodeIdentity_of_entry h hentry hidentity
  exact
    { topic := (congrArg ReceivedRow.sourceTopic hrow).trans hprepared.topic
      partition := (congrArg ReceivedRow.sourcePartition hrow).trans hprepared.partition
      offset := (congrArg ReceivedRow.sourceOffset hrow).trans hprepared.offset
      idempotencyKey := hkey.trans (congrArg some (congrArg ReceivedRow.idempotencyKey hrow).symm)
      payload := (congrArg ReceivedRow.payload hrow).trans hvalue
      entityKey := (congrArg ReceivedRow.entityKey hrow).trans hentity }

end Copies

/-! ## Positions follow the outbox -/

section Positions

variable {pipeline : Pipeline P σ ω} {relay : Relay.World} {a b : Relay.Appended}

/-- Ahead in the entity's order and in the partition. -/
def Ahead (a b : Relay.Appended) : Prop :=
  (Sibling a.row b.row → a.row.enqueueOrder ≤ b.row.enqueueOrder) ∧
    (a.record.partition = b.record.partition → a.record.offset < b.record.offset)

theorem entry_cases (h : Delivery pipeline relay) (ha : a ∈ relay.log) (hb : b ∈ relay.log) :
    a = b ∨ Ahead a b ∨ Ahead b a := by
  have hahead : relay.log.Pairwise Ahead := h.ordered.ordered.and h.positions.increasing
  refine List.Pairwise.forall_of_forall_of_flip (R := fun a b => a = b ∨ Ahead a b ∨ Ahead b a)
    (fun x _ => Or.inl rfl) (hahead.imp fun hxy => Or.inr (Or.inl hxy))
    (hahead.imp fun hxy => Or.inr (Or.inr hxy)) ha hb

theorem entry_eq_of_position (h : Carriage pipeline relay) (ha : a ∈ relay.log)
    (hb : b ∈ relay.log) (hpartition : a.record.partition = b.record.partition)
    (hoffset : a.record.offset = b.record.offset) : a = b := by
  have hcases : a = b ∨ a.record.offset < b.record.offset ∨ b.record.offset < a.record.offset := by
    refine List.Pairwise.forall_of_forall_of_flip
      (R := fun a b => a.record.partition = b.record.partition →
        a = b ∨ a.record.offset < b.record.offset ∨ b.record.offset < a.record.offset)
      (fun x _ _ => Or.inl rfl) (h.positions.increasing.imp fun hxy hsame => Or.inr (Or.inl (hxy hsame)))
      (h.positions.increasing.imp fun hxy hsame => Or.inr (Or.inr (hxy hsame.symm))) ha hb hpartition
  rcases hcases with heq | hlt | hlt
  · exact heq
  · exact absurd hlt (by omega)
  · exact absurd hlt (by omega)

/-- An older state of an entity lies before a newer one. -/
theorem offset_lt_of_order_lt (h : Delivery pipeline relay) (ha : a ∈ relay.log)
    (hb : b ∈ relay.log) (hsib : Sibling a.row b.row)
    (hpartition : a.record.partition = b.record.partition)
    (hlt : a.row.enqueueOrder < b.row.enqueueOrder) : a.record.offset < b.record.offset := by
  rcases entry_cases h ha hb with heq | ⟨-, hbefore⟩ | ⟨horder, -⟩
  · exact absurd hlt (by rw [heq]; exact lt_irrefl _)
  · exact hbefore hpartition
  · exact absurd (horder hsib.symm) (by omega)

end Positions

/-! ## The cache of a settled entity -/

section Settled

variable {pipeline : Pipeline P σ ω} {recordKey : String → Option String} {w : World σ}

theorem partition_of_entry (hkeyed : Keyed pipeline recordKey) (h : Delivery pipeline w.relay)
    {entry : Relay.Appended} (hentry : entry ∈ w.relay.log) {entity : String}
    (hentity : entry.row.entityKey = some entity) :
    entry.record.partition = pipeline.partitioner (recordKey entity) := by
  rcases entry_spec h.carriage hentry with ⟨-, hpublished, ⟨payload, entity', hwritten⟩, -⟩
  rcases h.positions.landed entry hentry with ⟨offset, hland⟩
  have hsame : entity' = entity :=
    Option.some.inj (hwritten.entityKey_eq.symm.trans hentity)
  have hkey : entry.request.record.key = recordKey entity := by
    rw [hpublished.key, OutboxRow.recordKey, hentity]
    exact hkeyed payload entity _ (hsame ▸ hwritten.entityKey) hwritten.partitionKey
  rw [hland, ← hkey]
  rfl

theorem entityKey_of_received (hround : RoundTrips pipeline) (h : Delivery pipeline w.relay)
    (hjoined : Joined pipeline w) {r : ReceivedRow} (hr : r ∈ w.consumer.db.received)
    {entity : String} (hentity : Dispatch.receivedEntityKey r = .ok entity) :
    r.entityKey = some entity := by
  rcases hjoined.stems r hr with ⟨entry, hentry, hstems⟩
  rcases entry_spec h.carriage hentry with ⟨-, -, ⟨_, entity', hwritten⟩, -⟩
  have hcolumn : r.entityKey = some entity' :=
    (copies_of_stems hround h hentry hstems).entityKey.trans hwritten.entityKey_eq
  have hsame : entity' = entity := by
    simpa [Dispatch.receivedEntityKey, hcolumn] using hentity
  rw [hcolumn, hsame]

theorem wellPlaced_received (hround : RoundTrips pipeline) (hkeyed : Keyed pipeline recordKey)
    (h : Delivery pipeline w.relay) (hjoined : Joined pipeline w) :
    Dispatch.WellPlaced pipeline.descriptor.topic pipeline.descriptor.topic
      (fun entity _ => pipeline.partitioner (recordKey entity)) w.consumer.db.received := by
  refine
    { placed := ?_
      distinct := ?_ }
  · intro r hr entity hentity
    rcases hjoined.stems r hr with ⟨entry, hentry, hstems⟩
    have hcopies := copies_of_stems hround h hentry hstems
    have hof := entityKey_of_received hround h hjoined hr hentity
    exact ⟨Or.inl hcopies.topic, hcopies.partition.trans
      (partition_of_entry hkeyed h hentry (hcopies.entityKey.symm.trans hof))⟩
  · intro a ha b hb _ hpartition hoffset
    rcases hjoined.stems a ha with ⟨ea, hea, hsa⟩
    rcases hjoined.stems b hb with ⟨eb, heb, hsb⟩
    have hca := copies_of_stems hround h hea hsa
    have hcb := copies_of_stems hround h heb hsb
    have heq : ea = eb := entry_eq_of_position h.carriage hea heb
      (hca.partition.symm.trans (hpartition.trans hcb.partition))
      (hca.offset.symm.trans (hoffset.trans hcb.offset))
    subst heq
    refine ReceivedTable.eq_of_idempotencyKey_eq ha hb ?_
    exact Option.some.inj (hca.idempotencyKey.symm.trans hcb.idempotencyKey)

theorem received_of_ingested (hround : RoundTrips pipeline) (h : Carriage pipeline w.relay)
    (hjoined : Joined pipeline w) (hquarantine : w.quarantine.rows = [])
    {index : Nat} (hindex : index ∈ w.ingested) {entry : Relay.Appended}
    (hentry : w.relay.log[index]? = some entry) :
    ∃ r ∈ w.consumer.db.received, entry.row.idempotencyKey = some r.idempotencyKey := by
  have hmem : entry ∈ w.relay.log := List.mem_of_getElem? hentry
  rcases hjoined.accounted index hindex with ⟨entry', hentry', haccounted⟩
  rw [hentry] at hentry'
  cases hentry'
  rcases haccounted with ⟨r, hr, -, hpartition, hoffset⟩ | ⟨r, hr, hkey⟩ | ⟨failure, hfailure, -⟩
  · -- The row at the record's position stems from the record at that position.
    rcases hjoined.stems r hr with ⟨other, hother, hstems⟩
    have hcopies := copies_of_stems hround h hother hstems
    have heq : other = entry := entry_eq_of_position h hother hmem
      (hcopies.partition.symm.trans hpartition) (hcopies.offset.symm.trans hoffset)
    exact ⟨r, hr, heq ▸ hcopies.idempotencyKey⟩
  · unfold Ingest.idempotencyKeyOf at hkey
    split at hkey
    · rename_i identity hidentity
      refine ⟨r, hr, ?_⟩
      rw [decodeIdentity_of_entry h hmem hidentity]
      exact hkey
    · cases hkey
  · have hfailure' : failure ∈ w.quarantine.rows := hfailure
    rw [hquarantine] at hfailure'
    cases hfailure'

theorem copy_of_newest (hround : RoundTrips pipeline) (h : Delivery pipeline w.relay)
    (hjoined : Joined pipeline w) (hquarantine : w.quarantine.rows = []) {entity : String}
    (hsettled : Settled w entity) {o : OutboxRow} (hnewest : Newest w.relay.outbox o)
    (hentity : o.entityKey = some entity) (hdistinct : Relay.Distinct w.relay.outbox) :
    ∃ r ∈ w.consumer.db.received, ∃ entry ∈ w.relay.log, Copies pipeline r entry ∧
      o.frozen = entry.row.frozen := by
  have hlineage := h.ordered.lineage
  rcases hlineage.kept o hnewest.1 with ⟨row, hrow, hfrozen⟩
  have hterminal : row.status.isTerminal = true := by
    rcases hrow with htable | hpurged
    · exact hsettled.outbox row htable ((Outbox.entityKey_of_frozen hfrozen).trans hentity)
    · exact hlineage.reclaimed row hpurged
  have hpublished := hlineage.newest_published hnewest hrow hfrozen hterminal
  rcases h.delivered row hrow hpublished with ⟨entry, hentry, hcopy⟩
  rcases List.getElem?_of_mem hentry with ⟨index, hindex⟩
  have hof : entry.row.entityKey = some entity :=
    (Outbox.entityKey_of_frozen (hcopy.trans hfrozen)).trans hentity
  rcases received_of_ingested hround h hjoined hquarantine
    (hsettled.topic index entry hindex hof) hindex with ⟨r, hr, hkey⟩
  -- The stored copy may be of another append of the same row.
  rcases hjoined.stems r hr with ⟨first, hfirst, hstems⟩
  have hcopies := copies_of_stems hround h hfirst hstems
  refine ⟨r, hr, first, hfirst, hcopies, ?_⟩
  rcases entry_spec h.carriage hfirst with ⟨⟨o', ho', -, hfrozen'⟩, -, -, -⟩
  have heq : o = o' := by
    refine hdistinct.idempotencyKey o hnewest.1 o' ho' r.idempotencyKey ?_ ?_
    · rw [← Outbox.idempotencyKey_of_frozen hfrozen, ← Outbox.idempotencyKey_of_frozen hcopy]
      exact hkey
    · rw [Outbox.idempotencyKey_of_frozen hfrozen']
      exact hcopies.idempotencyKey
  rw [heq, hfrozen']

theorem position_le_of_newest (hround : RoundTrips pipeline) (hkeyed : Keyed pipeline recordKey)
    (h : Delivery pipeline w.relay) (hjoined : Joined pipeline w) {entity : String}
    {o : OutboxRow} (hnewest : Newest w.relay.outbox o) (hentity : o.entityKey = some entity)
    {r r' : ReceivedRow} (hr : r ∈ w.consumer.db.received) (hr' : r' ∈ w.consumer.db.received)
    {entry : Relay.Appended} (hentry : entry ∈ w.relay.log) (hcopies : Copies pipeline r entry)
    (hfrozen : o.frozen = entry.row.frozen) (hof : r'.entityKey = some entity) :
    r'.sourceOffset ≤ r.sourceOffset := by
  rcases hjoined.stems r' hr' with ⟨entry', hentry', hstems'⟩
  have hcopies' := copies_of_stems hround h hentry' hstems'
  rcases entry_spec h.carriage hentry' with ⟨⟨o', ho', haccepted', hfrozen'⟩, -, -, -⟩
  have hof₁ : entry.row.entityKey = some entity :=
    (Outbox.entityKey_of_frozen hfrozen).symm.trans hentity
  have hof' : entry'.row.entityKey = some entity := hcopies'.entityKey.symm.trans hof
  have hle : o'.enqueueOrder ≤ o.enqueueOrder := by
    refine hnewest.2.2 o' ho' haccepted' ⟨entity, hentity, ?_⟩
    rw [Outbox.entityKey_of_frozen hfrozen', hof']
  rcases Nat.lt_or_eq_of_le hle with hlt | heq
  · have hoffset : entry'.record.offset < entry.record.offset := by
      refine offset_lt_of_order_lt h hentry' hentry ⟨entity, hof', hof₁⟩ ?_ ?_
      · rw [partition_of_entry hkeyed h hentry' hof', partition_of_entry hkeyed h hentry hof₁]
      · rw [← enqueueOrder_of_frozen hfrozen', ← enqueueOrder_of_frozen hfrozen]
        exact hlt
    rw [hcopies.offset, hcopies'.offset]
    exact le_of_lt hoffset
  · -- Another copy of the newest row would have been a duplicate.
    have hsame : o' = o := h.ordered.lineage.distinct o' ho' o hnewest.1 heq
    have hkeys : some r'.idempotencyKey = some r.idempotencyKey := by
      rw [← hcopies.idempotencyKey, ← hcopies'.idempotencyKey,
        ← Outbox.idempotencyKey_of_frozen hfrozen', ← Outbox.idempotencyKey_of_frozen hfrozen,
        hsame]
    rw [ReceivedTable.eq_of_idempotencyKey_eq hr' hr (Option.some.inj hkeys)]

end Settled

/-- **End-to-end convergence.**  When every outbox row of an entity is terminal, all its records are
ingested and all its received rows processed, its cache row holds the payload of the accepted row
with the greatest ordinal ever committed. -/
theorem settled_entity_converges {pipeline : Pipeline P σ ω} (hround : RoundTrips pipeline)
    {recordKey : String → Option String} (hkeyed : Keyed pipeline recordKey) {w : World σ}
    (h : (system pipeline).ReachableBy LeaseLive w) (hdistinct : Relay.Distinct w.relay.outbox)
    (hquarantine : w.quarantine.rows = []) {entity : String} (hsettled : Settled w entity)
    {o : OutboxRow} (hnewest : Newest w.relay.outbox o) (hentity : o.entityKey = some entity) :
    ∃ c, w.consumer.db.cache.lookup entity = some c ∧ c.payload = o.payload := by
  have hdelivery : Delivery pipeline w.relay :=
    Relay.delivery_of_live ((refines_relay pipeline).reachableBy h) hdistinct
  have hjoined := joined_of_run h
  have hplaced := wellPlaced_received hround hkeyed hdelivery hjoined
  rcases copy_of_newest hround hdelivery hjoined hquarantine hsettled hnewest hentity hdistinct with
    ⟨r, hr, entry, hentry, hcopies, hfrozen⟩
  have hof : r.entityKey = some entity :=
    hcopies.entityKey.trans ((Outbox.entityKey_of_frozen hfrozen).symm.trans hentity)
  have hcached : Dispatch.cached w.consumer entity = some (Dispatch.rowOrigin r) := by
    have hconsumer := (refines_consumer pipeline).reachableBy h
    refine (Dispatch.showsLatest_of_reachable hconsumer hplaced).cached_eq hplaced hr
      ⟨hsettled.received r hr hof, by simp [Dispatch.receivedEntityKey, hof]⟩ ?_
    intro r' hr' hprocessed
    rcases hjoined.stems r' hr' with ⟨entry', hentry', hstems'⟩
    have hcopies' := copies_of_stems hround hdelivery hentry' hstems'
    have hof' : r'.entityKey = some entity :=
      entityKey_of_received hround hdelivery hjoined hr' hprocessed.2
    have hle := position_le_of_newest hround hkeyed hdelivery hjoined hnewest hentity hr hr' hentry
      hcopies hfrozen hof'
    -- Both records are on the declared topic, so positions compare by offset.
    rw [← not_lt, Dispatch.position_lt_iff]
    simpa [Dispatch.rowOrigin, Pipeline.dispatcher, hcopies.topic, hcopies'.topic] using hle
  rcases Option.map_eq_some_iff.1 hcached with ⟨c, hlookup, horigin⟩
  refine ⟨c, hlookup, ?_⟩
  calc
    c.payload = r.payload := congrArg Dispatch.Origin.payload horigin
    _ = entry.row.payload := hcopies.payload
    _ = o.payload := (congrArg OutboxRow.payload hfrozen).symm

/-! ## A run with a lost report, a redelivery and a retry -/

namespace Texts

/-- Texts of one entity, counted by the consumer's handler. -/
def pipeline : Pipeline String Nat Bool :=
  { message := Spelling.textMessage
    descriptor := Dispatch.Counting.dispatcher.descriptor
    codec := Spelling.codec
    partitioner := fun _ => 0
    maxConsecutiveSkips := 10
    router := Dispatch.Counting.dispatcher.router
    retry := Dispatch.Counting.dispatcher.retry }

theorem roundTrips : RoundTrips pipeline := by
  intro payload value bytes hvalue hbytes
  cases hvalue
  cases hbytes
  exact congrArg AppCall.returned (Spelling.stringFromSlice_jsonText payload)

theorem keyed : Keyed pipeline some := by
  intro payload entity partitionKey hentity hpartition
  cases hentity
  cases hpartition
  rfl

def envelope (n : Nat) (text : String) : Envelope String :=
  { messageId := BitVec.ofNat 128 n
    idempotencyKey := some { key := .ofByte (UInt8.ofNat n), source := none }
    correlationId := 0
    causationId := none
    headers := SortedMap.empty
    payload := text
    occurredAt := 0 }

def ingest (index : Nat) : Action String Nat Bool :=
  .ingest index
    { arrival := { messageId := 9, correlationId := 9, now := 0 }
      trace := none
      now := 0
      fails := fun _ => none
      lands := false
      cancelled := false }

def dispatch (now : Timestamp) (refuses : Bool) : Action String Nat Bool :=
  .consumer (.cycle (Dispatch.Counting.env now refuses []))

/-- The report of the first publish is lost and the next state overtakes its retry; the second record
is delivered first and again, and its handler refuses once. -/
def schedule : List (Action String Nat Bool) :=
  [.relay (.enqueue 0 (envelope 1 "old") none fun _ => true),
    .relay (.claim 0 (Snapshot.claim 1 1)), .relay (.publish 0 none), .relay (.append 0),
    .relay (.fail 0 "timed out"), .relay (.mark 0 2 0),
    .relay (.enqueue 3 (envelope 2 "new") none fun _ => true),
    .relay (.claim 0 (Snapshot.claim 4 2)), .relay (.publish 0 none), .relay (.append 1),
    .relay (.acknowledge 0), .relay (.mark 0 5 0),
    ingest 1, ingest 0, dispatch 6 true, ingest 1, dispatch 7 false, dispatch 30 false]

/-- The text of a payload. -/
def text : Json → Option String
  | .string s => some s
  | _ => none

/-- What the run comes to: two records, nothing quarantined, everything done. -/
def Outcome (w : World Nat) : Prop :=
  w.relay.log.length = 2 ∧ w.ingested = [1, 0, 1] ∧ w.quarantine.rows.length = 0 ∧
    (w.relay.outbox.enqueued.map OutboxRow.messageId).Nodup ∧
    (w.relay.outbox.enqueued.map OutboxRow.idempotencyKey).Nodup ∧
    (∀ r ∈ w.relay.outbox.table.rows, r.status.isTerminal = true) ∧
    (∀ r ∈ w.consumer.db.received.rows, r.status = .processed) ∧
    ∃ o ∈ w.relay.outbox.enqueued, o.status ≠ .failed ∧ o.entityKey = some "a" ∧
      text o.payload = some "new" ∧
      ∀ o' ∈ w.relay.outbox.enqueued, o'.enqueueOrder ≤ o.enqueueOrder

instance (w : World Nat) : Decidable (Outcome w) :=
  inferInstanceAs (Decidable (_ ∧ _))

theorem outcome_of_schedule :
    ∃ w, (system pipeline).ReachableBy LeaseLive w ∧ Outcome w :=
  TransitionSystem.exists_reachableBy_of_run (TransitionSystem.ReachableBy.start ⟨0, rfl⟩) schedule
    (by decide +kernel) (by decide +kernel)

end Texts

open Texts in
theorem settled_entity_converges_texts :
    ∃ w, (system pipeline).ReachableBy LeaseLive w ∧ w.ingested = [1, 0, 1] ∧
      ∃ c, w.consumer.db.cache.lookup "a" = some c ∧ text c.payload = some "new" := by
  obtain ⟨w, hreach, hlog, hingested, hquarantine, hids, hkeys, hterminal, hprocessed, o, ho,
    haccepted, hentity, htext, hgreatest⟩ := outcome_of_schedule
  have hdistinct : Relay.Distinct w.relay.outbox :=
    { messageId := fun o ho o' ho' heq => List.inj_on_of_nodup_map hids ho ho' heq
      idempotencyKey := fun o ho o' ho' key hkey hkey' =>
        List.inj_on_of_nodup_map hkeys ho ho' (hkey.trans hkey'.symm) }
  have hsettled : Settled w "a" :=
    { outbox := fun r hr _ => hterminal r hr
      topic := fun index entry hentry _ => by
        have hlt : index < 2 := hlog ▸ (List.getElem?_eq_some_iff.1 hentry).1
        rw [hingested]
        simp only [List.mem_cons]
        omega
      received := fun r hr _ => hprocessed r hr }
  rcases settled_entity_converges roundTrips keyed hreach hdistinct
    (List.length_eq_zero_iff.1 hquarantine) hsettled
    ⟨ho, haccepted, fun o' ho' _ _ => hgreatest o' ho'⟩ hentity with ⟨c, hlookup, hpayload⟩
  exact ⟨w, hreach, hingested, c, hlookup, hpayload ▸ htext⟩

end EndToEnd
end Kafkaman
