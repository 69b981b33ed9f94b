import Kafkaman.Broker.Spelling
import Kafkaman.Ingest.Consumer

/-!
# Ingest.Accounting — what the committed offset promises

`run_ingester` as a system over a partition log, and the law that everything below the committed
offset is stored, a duplicate of something stored, or quarantined.  A single cycle respects it
(`cycle_ingestOnce`); the loop does not, because it goes on to the next record after an error.
`acknowledged_accounted` is the law under the discipline that would save it, and
`acknowledged_record_lost` a run that breaks it.
-/

namespace Kafkaman
namespace Ingest

open Lib Broker Received

/-! ## What a cycle does to the store -/

/-- The idempotency key a record carries, if it carries a readable one. -/
def idempotencyKeyOf (codec : Codec) (record : KafkaRecord) : Option IdempotencyKey :=
  match decodeIdentity codec (RecordHeaders.of record) with
  | .ok identity => some identity.key
  | .error _ => none

/-- The record has a received row, or its key is that of a stored row, or it is quarantined. -/
def Accounted (codec : Codec) (store : Store) (record : KafkaRecord) : Prop :=
  (∃ r ∈ store.received, r.sourceTopic = record.topic ∧ r.sourcePartition = record.partition ∧
      r.sourceOffset = record.offset) ∨
    (∃ r ∈ store.received, idempotencyKeyOf codec record = some r.idempotencyKey) ∨
    store.quarantine.HasKey (record.topic, record.partition, record.offset)

instance (codec : Codec) (store : Store) (record : KafkaRecord) :
    Decidable (Accounted codec store record) :=
  inferInstanceAs (Decidable
    ((∃ r ∈ store.received.rows, r.sourceTopic = record.topic ∧
        r.sourcePartition = record.partition ∧ r.sourceOffset = record.offset) ∨
      (∃ r ∈ store.received.rows, idempotencyKeyOf codec record = some r.idempotencyKey) ∨
      store.quarantine.HasKey (record.topic, record.partition, record.offset)))

/-- Rows are added, none removed, and the committed offset stays. -/
structure Store.Grows (store store' : Store) : Prop where
  received : ∀ r ∈ store.received, r ∈ store'.received
  quarantine : ∀ source, store.quarantine.HasKey source → store'.quarantine.HasKey source
  committed : store'.committed = store.committed

theorem Store.Grows.refl (store : Store) : store.Grows store :=
  { received := fun _ h => h
    quarantine := fun _ h => h
    committed := rfl }

theorem Accounted.mono {codec : Codec} {store store' : Store} {record : KafkaRecord}
    (hreceived : ∀ r ∈ store.received, r ∈ store'.received)
    (hquarantine : ∀ source, store.quarantine.HasKey source → store'.quarantine.HasKey source)
    (h : Accounted codec store record) : Accounted codec store' record := by
  rcases h with ⟨r, hr, hat⟩ | ⟨r, hr, hkey⟩ | hsource
  · exact Or.inl ⟨r, hreceived r hr, hat⟩
  · exact Or.inr (Or.inl ⟨r, hreceived r hr, hkey⟩)
  · exact Or.inr (Or.inr (hquarantine _ hsource))

/-- Everything one cycle does: it only adds rows, a transaction it saw commit accounts for its
record, and it moves the offset only after that. -/
structure Cycle (codec : Codec) (record : KafkaRecord) (store : Store)
    (result : CycleResult) : Prop where
  received : ∀ r ∈ store.received, r ∈ result.store.received
  quarantine : ∀ source, store.quarantine.HasKey source → result.store.quarantine.HasKey source
  accounted : result.written = true → Accounted codec result.store record
  committed : result.store.committed = store.committed ∨
    result.written = true ∧ result.store.committed = record.offset.toNat + 1

section Cycles

variable {P : Type} {consumer : Consumer P} {env : CycleEnv} {record : KafkaRecord}
  {codec : Codec} {store store' : Store}

theorem cycle_abandon {error : IngestError} (h : store.Grows store') :
    Cycle codec record store (abandon store' error) :=
  { received := h.received
    quarantine := h.quarantine
    accounted := fun hwritten => by simp [abandon] at hwritten
    committed := Or.inl h.committed }

theorem cycle_commitRecord {stats : IngestStats} (h : store.Grows store')
    (hacc : Accounted codec store' record) :
    Cycle codec record store (commitRecord env record stats store') := by
  unfold commitRecord
  cases env.fails .commitRecord with
  | some text =>
      refine
        { received := h.received
          quarantine := h.quarantine
          accounted := fun _ => hacc
          committed := ?_ }
      cases hl : env.lands with
      | false =>
          exact Or.inl (by simpa using h.committed)
      | true =>
          exact Or.inr ⟨rfl, by simp⟩
  | none =>
      exact
        { received := h.received
          quarantine := h.quarantine
          accounted := fun _ => hacc
          committed := Or.inr ⟨rfl, rfl⟩ }

theorem cycle_countSkip (h : store.Grows store') (hacc : Accounted codec store' record) :
    Cycle codec record store (countSkip consumer env record store') := by
  have hskip : store.Grows { store' with skips := store'.skips + 1 } :=
    { received := h.received
      quarantine := h.quarantine
      committed := h.committed }
  unfold countSkip
  split
  · exact
      { received := h.received
        quarantine := h.quarantine
        accounted := fun _ => hacc
        committed := Or.inl h.committed }
  · exact cycle_commitRecord hskip hacc

theorem cycle_commitTransaction {point : Point} {andThen : Store → CycleResult}
    (h : store.Grows store') (hthen : Cycle codec record store (andThen store')) :
    Cycle codec record store (commitTransaction env point store store' andThen) := by
  unfold commitTransaction
  cases env.fails point with
  | some text =>
      cases env.lands with
      | false =>
          exact cycle_abandon (Store.Grows.refl store)
      | true =>
          exact cycle_abandon h
  | none =>
      exact hthen

theorem grows_refuse (consumer : Consumer P) (record : KafkaRecord) (codec : Codec)
    (kind : ReceivedIngestFailureKind) (error : String) (h : store.Grows store') :
    store.Grows (Store.refuse consumer record store' kind error) ∧
      Accounted codec (Store.refuse consumer record store' kind error) record := by
  refine ⟨?_, Or.inr (Or.inr ?_)⟩
  · exact
      { received := h.received
        quarantine := fun source hs =>
          hasKey_insertReceivedIngestFailure.2 (Or.inl (h.quarantine source hs))
        committed := h.committed }
  · exact hasKey_insertReceivedIngestFailure.2 (Or.inr rfl)

theorem cycle_quarantine {kind : ReceivedIngestFailureKind} {error : String} :
    Cycle codec record store (quarantine consumer env record kind error store) := by
  unfold quarantine
  cases env.fails .beginQuarantine with
  | some text =>
      exact cycle_abandon (Store.Grows.refl store)
  | none =>
      cases env.fails .insertQuarantine with
      | some text =>
          exact cycle_abandon (Store.Grows.refl store)
      | none =>
          have hrefuse := grows_refuse consumer record codec kind error (Store.Grows.refl store)
          exact cycle_commitTransaction hrefuse.1 (cycle_countSkip hrefuse.1 hrefuse.2)

theorem cycle_storeRow {insert : InsertReceivedRow}
    (hat : insert.topic = record.topic ∧ insert.partition = record.partition ∧
      insert.offset = record.offset)
    (hkey : idempotencyKeyOf codec record = some insert.idempotencyKey) :
    Cycle codec record store (storeRow consumer env record insert store) := by
  have hgrows : store.Grows
      { store with received := (insertReceivedRow env.now insert store.received).1 } :=
    { received := fun r hr => mem_insertReceivedRow_of_mem hr
      quarantine := fun _ h => h
      committed := rfl }
  unfold storeRow
  cases env.fails .insertReceived with
  | some text =>
      exact cycle_abandon (Store.Grows.refl store)
  | none =>
      by_cases hconflict :
          (insertReceivedRow env.now insert store.received).2 = .messageIdConflict
      · simp only [hconflict, if_true]
        cases env.fails .insertFailure with
        | some text =>
            exact cycle_abandon (Store.Grows.refl store)
        | none =>
            have hrefuse := grows_refuse consumer record codec .messageIdConflict
              (conflictText consumer insert.messageId) hgrows
            exact cycle_commitTransaction hrefuse.1 (cycle_countSkip hrefuse.1 hrefuse.2)
      · simp only [hconflict, if_false]
        have hskips : store.Grows
            { store with
              received := (insertReceivedRow env.now insert store.received).1
              skips := 0 } :=
          { received := hgrows.received
            quarantine := hgrows.quarantine
            committed := hgrows.committed }
        refine cycle_commitTransaction hgrows (cycle_commitRecord hskips ?_)
        -- Stored, or dropped as the duplicate of a row with its key: either way the record has a row.
        rcases insertReceivedRow_spec env.now insert store.received with hrow | hdup | hid
        · exact Or.inl ⟨_, hrow, hat⟩
        · rcases hdup with ⟨r, hr, heq⟩
          exact Or.inr (Or.inl ⟨r, mem_insertReceivedRow_of_mem hr, heq ▸ hkey⟩)
        · exact absurd hid hconflict

theorem cycle_storeRecord {decoded : DecodedRecord P} {identity : IdempotencyIdentity}
    (htopic : record.topic = consumer.descriptor.topic)
    (hkey : idempotencyKeyOf codec record = some identity.key)
    (hidentity : decoded.envelope.idempotencyKey = some identity) :
    Cycle codec record store (storeRecord consumer env record decoded store) := by
  unfold storeRecord
  cases env.fails .beginStore with
  | some text =>
      exact cycle_abandon (Store.Grows.refl store)
  | none =>
      dsimp only
      split
      · exact cycle_quarantine
      · exact cycle_abandon (Store.Grows.refl store)
      · rename_i insert hprepare
        have hprep := prepared_of_prepareReceived hprepare
        rcases hprep.identity with ⟨identity', hsome, hinsert⟩
        have hsame : identity' = identity := Option.some.inj (hsome.symm.trans hidentity)
        refine cycle_storeRow ⟨hprep.topic.trans htopic.symm, hprep.partition, hprep.offset⟩ ?_
        rw [hkey, hinsert, hsame]

/-- The step lemma: a cycle, whatever stops it and wherever. -/
theorem cycle_ingestOnce :
    Cycle consumer.codec record store (ingestOnce consumer env record store) := by
  unfold ingestOnce
  split
  · rename_i decoded hdecoded
    rcases recordEnvelope_ok hdecoded with ⟨htopic, -, identity, hdecode, hidentity⟩
    exact cycle_storeRecord htopic (by simp [idempotencyKeyOf, hdecode]) hidentity
  · cases IngestError.ingestFailureKind _ with
    | some kind =>
        exact cycle_quarantine
    | none =>
        exact cycle_abandon (Store.Grows.refl store)

end Cycles

/-! ## The loop -/

/-- A consumer between two cycles. -/
structure State where
  store : Store
  /-- The offset `recv` returns next in this session. -/
  position : Nat
  running : Bool
  /-- History: a cycle of this session took a record and ended without seeing it written. -/
  abandoned : Bool

inductive Action
  | cycle (env : CycleEnv)
  | restart

/-- The record of the log at an offset. -/
def recordAt (partition : Int) (log : Nat → KafkaRecord) (offset : Nat) : KafkaRecord :=
  { log offset with
    partition := partition
    offset := offset }

section Loop

variable {P : Type} (consumer : Consumer P) (partition : Int) (log : Nat → KafkaRecord)

/-- One iteration of `run_ingester`.  Every error but the breaker's is answered by the next
iteration, and that one receives the next offset. -/
def iterate (env : CycleEnv) (s : State) : State :=
  match env.fails .recv with
  | some _ => { s with running := !env.cancelled }
  | none =>
      let result := ingestOnce consumer env (recordAt partition log s.position) s.store
      { store := result.store
        position := s.position + 1
        running := !env.cancelled && !result.trips
        abandoned := s.abandoned || !result.written }

/-- A new session resumes at the committed offset, with a fresh breaker. -/
def restart (s : State) : State :=
  { store := { s.store with skips := 0 }
    position := s.store.committed
    running := true
    abandoned := false }

def next : State → Action → Option State
  | s, .cycle env => if s.running then some (iterate consumer partition log env s) else none
  | s, .restart => some (restart s)

/-- The relations may hold other partitions' rows from the start. -/
def system : TransitionSystem State Action :=
  { init := fun s => s.store.committed = 0 ∧ s.position = 0 ∧ s.abandoned = false
    next := next consumer partition log }

/-! ## Acknowledged records -/

/-- A session that has abandoned a record is restarted before another record is taken. -/
def Resumes (s : State) : Action → Prop
  | .cycle env => env.fails .recv = none → s.abandoned = false
  | .restart => True

instance (s : State) (a : Action) : Decidable (Resumes s a) :=
  match a with
  | .cycle env => inferInstanceAs (Decidable (env.fails .recv = none → s.abandoned = false))
  | .restart => isTrue trivial

/-- The inductive invariant: unless the session has abandoned a record, all it took is accounted
for; and what is acknowledged always is. -/
structure Covered (s : State) : Prop where
  committed_le : s.store.committed ≤ s.position
  acknowledged : ∀ k < s.store.committed, Accounted consumer.codec s.store
    (recordAt partition log k)
  taken : s.abandoned = false → ∀ k < s.position, Accounted consumer.codec s.store
    (recordAt partition log k)

variable {consumer partition log}

theorem Covered.iterate {s : State} {env : CycleEnv} (h : Covered consumer partition log s)
    (hok : Resumes s (.cycle env)) :
    Covered consumer partition log (iterate consumer partition log env s) := by
  unfold Ingest.iterate
  cases hrecv : env.fails .recv with
  | some text =>
      exact
        { committed_le := h.committed_le
          acknowledged := h.acknowledged
          taken := h.taken }
  | none =>
      have htaken := h.taken (hok hrecv)
      have hcycle : Cycle consumer.codec (recordAt partition log s.position) s.store
          (ingestOnce consumer env (recordAt partition log s.position) s.store) :=
        cycle_ingestOnce
      have hkept : ∀ k < s.position, Accounted consumer.codec
          (ingestOnce consumer env (recordAt partition log s.position) s.store).store
          (recordAt partition log k) :=
        fun k hk => (htaken k hk).mono hcycle.received hcycle.quarantine
      -- The offset moves past this record only once the record itself is accounted for.
      have hall : (ingestOnce consumer env (recordAt partition log s.position) s.store).written =
          true → ∀ k < s.position + 1, Accounted consumer.codec
            (ingestOnce consumer env (recordAt partition log s.position) s.store).store
            (recordAt partition log k) := by
        intro hwritten k hk
        rcases Nat.lt_succ_iff_lt_or_eq.1 hk with hlt | rfl
        · exact hkept k hlt
        · exact hcycle.accounted hwritten
      have hoffset : (recordAt partition log s.position).offset.toNat = s.position := by
        simp [recordAt]
      refine
        { committed_le := ?_
          acknowledged := ?_
          taken := ?_ }
      · dsimp only
        rcases hcycle.committed with heq | ⟨_, heq⟩
        · rw [heq]
          exact Nat.le_succ_of_le h.committed_le
        · rw [heq, hoffset]
      · dsimp only
        intro k hk
        rcases hcycle.committed with heq | ⟨hwritten, heq⟩
        · rw [heq] at hk
          exact hkept k (Nat.lt_of_lt_of_le hk h.committed_le)
        · rw [heq, hoffset] at hk
          exact hall hwritten k hk
      · dsimp only
        intro habandoned k hk
        have hwritten : (ingestOnce consumer env (recordAt partition log s.position)
            s.store).written = true := by
          simpa using (Bool.or_eq_false_iff.1 habandoned).2
        exact hall hwritten k hk

theorem Covered.restart {s : State} (h : Covered consumer partition log s) :
    Covered consumer partition log (restart s) :=
  { committed_le := Nat.le_refl _
    acknowledged := h.acknowledged
    taken := fun _ => h.acknowledged }

theorem covered_of_reachable {s : State}
    (h : (system consumer partition log).ReachableBy Resumes s) :
    Covered consumer partition log s := by
  refine TransitionSystem.ReachableBy.invariant ?_ ?_ h
  · rintro s ⟨hcommitted, hposition, _⟩
    exact
      { committed_le := by omega
        acknowledged := fun k hk => by omega
        taken := fun _ k hk => by omega }
  · intro s a s' hs hok hnext
    cases a with
    | cycle env =>
        simp only [system, next] at hnext
        split at hnext
        · cases hnext
          exact hs.iterate hok
        · cases hnext
    | restart =>
        cases hnext
        exact hs.restart

end Loop

/-! ### A partition of texts -/

def textConsumer : Consumer String :=
  { message := Spelling.textMessage
    descriptor := { messageType := "text", topic := "texts" }
    codec := Spelling.codec
    maxConsecutiveSkips := 10 }

/-- Well-formed records, each with an idempotency key of its own. -/
def textLog (offset : Nat) : KafkaRecord :=
  { topic := "texts"
    partition := 0
    offset := offset
    key := none
    payload := some (Utf8.textBytes (Spelling.jsonText (.string "x")))
    headers :=
      [{ key := "kafkaman-idempotency-key"
         value := some (Utf8.textBytes (IdempotencyKey.ofByte (UInt8.ofNat offset)).toHex) }] }

/-- A cycle that runs to its end, or is stopped by an error at the point given. -/
def textCycle (id : Uuid) (stopped : Option Point) : Action :=
  .cycle
    { arrival := { messageId := id, correlationId := id, now := 0 }
      trace := none
      now := 0
      fails := fun point => if some point = stopped then some "connection reset" else none
      lands := false
      cancelled := false }

def emptyState : State :=
  { store :=
      { received := ReceivedTable.empty
        quarantine := Table.empty
        skips := 0
        committed := 0 }
    position := 0
    running := true
    abandoned := false }

/-! ### The law, and the run that breaks it -/

/-- **Nothing acknowledged is lost**, as long as a session that abandons a record ends there. -/
theorem acknowledged_accounted {P : Type} (consumer : Consumer P) (partition : Int)
    (log : Nat → KafkaRecord) {s : State}
    (h : (system consumer partition log).ReachableBy Resumes s) :
    ∀ k < s.store.committed,
      Accounted consumer.codec s.store (recordAt partition log k) :=
  (covered_of_reachable h).acknowledged

/-- The session that lost its connection under record 0 is restarted and stores both records. -/
def resumedSchedule : List Action :=
  [textCycle 1 (some .beginStore), .restart, textCycle 1 none, textCycle 2 none]

theorem acknowledged_accounted_resumed :
    ∃ s, (system textConsumer 0 textLog).ReachableBy Resumes s ∧ s.store.committed = 2 ∧
      ∀ k < 2, Accounted Spelling.codec s.store (recordAt 0 textLog k) := by
  have hstart : (system textConsumer 0 textLog).ReachableBy Resumes emptyState :=
    TransitionSystem.ReachableBy.start ⟨rfl, rfl, rfl⟩
  obtain ⟨s, hreach, hcommitted⟩ : ∃ s, (system textConsumer 0 textLog).ReachableBy Resumes s ∧
      s.store.committed = 2 :=
    TransitionSystem.exists_reachableBy_of_run hstart resumedSchedule (by decide +kernel)
      (by decide +kernel)
  refine ⟨s, hreach, hcommitted, ?_⟩
  have hall := acknowledged_accounted textConsumer 0 textLog hreach
  rw [hcommitted] at hall
  exact hall

/-- The database refuses the transaction of record 0; the loop goes on, stores record 1 and commits
offset 2, and no later session receives record 0 again. -/
theorem acknowledged_record_lost :
    ∃ s, (system textConsumer 0 textLog).Reachable s ∧ 0 < s.store.committed ∧
      ¬ Accounted Spelling.codec s.store (recordAt 0 textLog 0) := by
  have hstart : (system textConsumer 0 textLog).Reachable emptyState :=
    TransitionSystem.Reachable.start ⟨rfl, rfl, rfl⟩
  exact TransitionSystem.exists_reachable_of_run hstart
    [textCycle 1 (some .beginStore), textCycle 2 none] (by decide +kernel)

end Ingest
end Kafkaman
