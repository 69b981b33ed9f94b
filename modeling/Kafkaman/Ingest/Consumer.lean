import Kafkaman.Broker.Decode
import Kafkaman.Lib.TransitionSystem
import Kafkaman.Received.Table

/-!
# Ingest.Consumer — one consumer, one partition, one record a cycle

`ingestOnce` is the source's cycle: decode, then `storeRecord` or `quarantine`, each of which writes
in one transaction and acknowledges the offset afterwards.  Every await of the cycle is a `Point` at
which the environment may stop it, by an error of the database or the broker or by cancelling the
loop; a `COMMIT` that failed at the client may still have taken effect.

* `commitTransaction`, `commitRecord`, `countSkip` — the shared tails of the two paths;
* `received_ingestOnce` — a cycle adds nothing to the received rows, or what its record decodes to.

The loop around the cycle is in `Ingest.Accounting`.
-/

namespace Kafkaman
namespace Ingest

open Lib Broker Received

/-! ## One cycle -/

/-- The awaits of a cycle. -/
inductive Point
  | recv
  | beginStore
  | insertReceived
  | insertFailure
  | commitStore
  | beginQuarantine
  | insertQuarantine
  | commitQuarantine
  | commitRecord
  deriving DecidableEq

/-- What one cycle meets. -/
structure CycleEnv where
  arrival : Arrival
  trace : Option TraceContext
  now : Timestamp
  /-- The text of the error at a point, or `none` when the point is passed. -/
  fails : Point → Option String
  /-- Whether a commit that failed at the client took effect all the same. -/
  lands : Bool
  /-- Whether the loop is cancelled during this cycle or right after it. -/
  cancelled : Bool

structure Consumer (P : Type) where
  message : ConsumedMessage P
  descriptor : MessageDescriptor
  codec : Codec
  maxConsecutiveSkips : Nat

/-- What a cycle reads and writes: two relations, the breaker's counter, the committed offset. -/
structure Store where
  received : ReceivedTable
  quarantine : QuarantineTable
  skips : Nat
  committed : Nat

structure IngestStats where
  consumed : Nat
  inserted : Nat
  duplicates : Nat
  skipped : Nat
  committed : Nat
  partition : Int
  offset : Int
  deriving DecidableEq, Repr

/-- How a cycle ended; `written` says whether its transaction was seen to commit. -/
structure CycleResult where
  store : Store
  written : Bool
  outcome : Except IngestError IngestStats

/-- The breaker error is the only one that ends the loop. -/
def CycleResult.trips (result : CycleResult) : Bool :=
  match result.outcome with
  | .error (.consecutiveSkipLimitExceeded _ _ _) => true
  | _ => false

/-- An error before the record's transaction was seen to commit. -/
def abandon (store : Store) (error : IngestError) : CycleResult :=
  { store := store
    written := false
    outcome := .error error }

section Steps

variable {P : Type} (consumer : Consumer P) (env : CycleEnv) (record : KafkaRecord)

/-- `commit_record`, the last step of a cycle. -/
def commitRecord (stats : IngestStats) (store : Store) : CycleResult :=
  match env.fails .commitRecord with
  | some text =>
      { store :=
          { store with
            committed := if env.lands then record.offset.toNat + 1 else store.committed }
        written := true
        outcome := .error (.kafka text) }
  | none =>
      { store := { store with committed := record.offset.toNat + 1 }
        written := true
        outcome := .ok stats }

/-- `count_skip`, then the acknowledgement: a tripped breaker leaves the offset uncommitted. -/
def countSkip (store : Store) : CycleResult :=
  if consumer.maxConsecutiveSkips ≤ store.skips + 1 then
    { store := { store with skips := store.skips + 1 }
      written := true
      outcome := .error (.consecutiveSkipLimitExceeded consumer.maxConsecutiveSkips
        record.partition record.offset) }
  else
    commitRecord env record
      { consumed := 1
        inserted := 0
        duplicates := 0
        skipped := 1
        committed := 1
        partition := record.partition
        offset := record.offset }
      { store with skips := store.skips + 1 }

/-- A quarantine row for the record, added to the store. -/
def Store.refuse (store : Store) (kind : ReceivedIngestFailureKind) (error : String) : Store :=
  { store with
    quarantine := insertReceivedIngestFailure
      (ingestFailureRecord consumer.descriptor record kind error) store.quarantine }

/-- The `COMMIT` of a transaction that would leave `after` and is followed by `andThen`. -/
def commitTransaction (point : Point) (before after : Store) (andThen : Store → CycleResult) :
    CycleResult :=
  match env.fails point with
  | some text => abandon (if env.lands then after else before) (.database text)
  | none => andThen after

/-- Keep an unreadable record for triage, then acknowledge it. -/
def quarantine (kind : ReceivedIngestFailureKind) (error : String) (store : Store) :
    CycleResult :=
  match env.fails .beginQuarantine with
  | some text => abandon store (.database text)
  | none =>
      match env.fails .insertQuarantine with
      | some text => abandon store (.sqlx (.sqlx text))
      | none =>
          commitTransaction env .commitQuarantine store
            (Store.refuse consumer record store kind error) (countSkip consumer env record)

/-- The diagnosis of a record under another message's id. -/
def conflictText (messageId : Uuid) : String :=
  "message_id " ++ consumer.codec.uuidText messageId ++
    " conflicts with an existing receive row for another idempotency key"

/-- The statements of `store` after the row has been prepared. -/
def storeRow (insert : InsertReceivedRow) (store : Store) : CycleResult :=
  match env.fails .insertReceived with
  | some text => abandon store (.sqlx (.sqlx text))
  | none =>
      let inserted := insertReceivedRow env.now insert store.received
      if inserted.2 = .messageIdConflict then
        match env.fails .insertFailure with
        | some text => abandon store (.sqlx (.sqlx text))
        | none =>
            -- The audit row is part of the transaction that rejected the insert.
            commitTransaction env .commitStore store
              (Store.refuse consumer record { store with received := inserted.1 }
                .messageIdConflict (conflictText consumer insert.messageId))
              (countSkip consumer env record)
      else
        commitTransaction env .commitStore store { store with received := inserted.1 }
          fun written =>
            commitRecord env record
              { consumed := 1
                inserted := if inserted.2 = .inserted then 1 else 0
                duplicates := if inserted.2 = .duplicateIdempotencyKey then 1 else 0
                skipped := 0
                committed := 1
                partition := record.partition
                offset := record.offset }
              { written with skips := 0 }

/-- Write the receive row, then acknowledge the record. -/
def storeRecord (decoded : DecodedRecord P) (store : Store) : CycleResult :=
  match env.fails .beginStore with
  | some text => abandon store (.database text)
  | none =>
      match prepareReceived consumer.message.toKafkaMessage consumer.descriptor decoded.envelope
          record.partition record.offset decoded.key env.trace with
      -- Application code that panics on this payload panics on every redelivery of it.
      | .error (.applicationPanicked messageType operation text) =>
          quarantine consumer env record .invalidPayload
            (Error.display consumer.codec.uuidText
              (.applicationPanicked messageType operation text)) store
      | .error error => abandon store (.sqlx error)
      | .ok insert => storeRow consumer env record insert store

/-- `ingest_once` from the moment `recv` has returned the record. -/
def ingestOnce (store : Store) : CycleResult :=
  match recordEnvelope consumer.message consumer.codec env.arrival record
      consumer.descriptor.topic (RecordHeaders.of record) with
  | .ok decoded => storeRecord consumer env record decoded store
  | .error error =>
      match error.ingestFailureKind with
      | some kind => quarantine consumer env record kind (error.display consumer.codec) store
      | none => abandon store error

end Steps

/-! ## What a cycle does to the received rows -/

section Received

variable {P : Type} {consumer : Consumer P} {env : CycleEnv} {record : KafkaRecord}
  {store : Store}

theorem received_commitRecord {stats : IngestStats} :
    (commitRecord env record stats store).store.received = store.received := by
  unfold commitRecord
  split <;> rfl

theorem received_countSkip :
    (countSkip consumer env record store).store.received = store.received := by
  unfold countSkip
  split
  · rfl
  · exact received_commitRecord

theorem received_commitTransaction {point : Point} {after : Store}
    {andThen : Store → CycleResult}
    (hthen : (andThen after).store.received = after.received) :
    (commitTransaction env point store after andThen).store.received = store.received ∨
      (commitTransaction env point store after andThen).store.received = after.received := by
  unfold commitTransaction
  split
  · cases env.lands with
    | false => exact Or.inl rfl
    | true => exact Or.inr rfl
  · exact Or.inr hthen

theorem received_quarantine {kind : ReceivedIngestFailureKind} {error : String} :
    (quarantine consumer env record kind error store).store.received = store.received := by
  unfold quarantine
  split
  · rfl
  · split
    · rfl
    · -- The quarantine row is written beside the received rows.
      have hcases : (commitTransaction env .commitQuarantine store
            (Store.refuse consumer record store kind error)
            (countSkip consumer env record)).store.received = store.received ∨
          (commitTransaction env .commitQuarantine store
            (Store.refuse consumer record store kind error)
            (countSkip consumer env record)).store.received = store.received :=
        received_commitTransaction received_countSkip
      exact hcases.elim id id

theorem received_storeRow {insert : InsertReceivedRow} :
    (storeRow consumer env record insert store).store.received = store.received ∨
      (storeRow consumer env record insert store).store.received =
        (insertReceivedRow env.now insert store.received).1 := by
  unfold storeRow
  split
  · exact Or.inl rfl
  · simp only
    split
    · split
      · exact Or.inl rfl
      · exact received_commitTransaction received_countSkip
    · exact received_commitTransaction received_commitRecord

/-- A cycle adds nothing, or what its record decodes to. -/
theorem received_ingestOnce (consumer : Consumer P) (env : CycleEnv) (record : KafkaRecord)
    (store : Store) :
    (ingestOnce consumer env record store).store.received = store.received ∨
      ∃ decoded insert,
        recordEnvelope consumer.message consumer.codec env.arrival record
          consumer.descriptor.topic (RecordHeaders.of record) = .ok decoded ∧
        prepareReceived consumer.message.toKafkaMessage consumer.descriptor decoded.envelope
          record.partition record.offset decoded.key env.trace = .ok insert ∧
        (ingestOnce consumer env record store).store.received =
          (insertReceivedRow env.now insert store.received).1 := by
  unfold ingestOnce
  split
  · rename_i decoded hdecoded
    unfold storeRecord
    split
    · exact Or.inl rfl
    · split
      · exact Or.inl received_quarantine
      · exact Or.inl rfl
      · rename_i insert hinsert
        rcases received_storeRow with h | h
        · exact Or.inl h
        · exact Or.inr ⟨decoded, insert, hdecoded, hinsert, h⟩
  · split
    · exact Or.inl received_quarantine
    · exact Or.inl rfl

end Received

end Ingest
end Kafkaman
