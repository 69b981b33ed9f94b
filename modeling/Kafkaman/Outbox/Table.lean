import Kafkaman.Core.Rows
import Kafkaman.Lib.Table

/-!
# Outbox.Table — the outbox relation and the row assignments of its statements

Every statement on an outbox table assigns one of four groups of columns.  The assignments are
functions on rows here, so that the statements (`Outbox.Enqueue`, `Outbox.Claim`, `Outbox.Mark`)
are an assignment plus a `WHERE`.

`OutboxRow.frozen` blanks the columns that some statement assigns.  What is left never changes
between `INSERT` and `DELETE`; the `*_of_frozen` lemmas read single columns off it.
-/

namespace Kafkaman

/-- The row with every assignable column blanked. -/
def OutboxRow.frozen (row : OutboxRow) : OutboxRow :=
  { row with
    status := .pending
    attempts := 0
    nextAttemptAt := 0
    lastError := none
    claimId := none
    claimedBy := none
    claimExpiresAt := none
    publishedAt := none }

namespace Outbox

open Lib

/-- An outbox table; `message_id` is the primary key. -/
abbrev OutboxTable : Type := Table OutboxRow.messageId

/-! ## Row assignments -/

/-- `SET` list of the supersede statement that enqueue runs. -/
def supersedeRow (row : OutboxRow) : OutboxRow :=
  { row with
    status := .superseded
    claimId := none
    claimedBy := none
    claimExpiresAt := none }

/-- `SET` list of the two relay-side supersede statements, which also say why. -/
def supersedeOvertakenRow (row : OutboxRow) : OutboxRow :=
  { row with
    status := .superseded
    claimId := none
    claimedBy := none
    claimExpiresAt := none
    lastError := some "superseded by newer pending state for the same entity" }

/-- `SET` list of the claim. -/
def claimRow (now : Timestamp) (claimId : Uuid) (workerId : String) (leaseFor : Micros)
    (row : OutboxRow) : OutboxRow :=
  { row with
    status := .publishing
    attempts := row.attempts + 1
    claimId := some claimId
    claimedBy := some workerId
    claimExpiresAt := some (now + leaseFor) }

/-- `SET` list of `mark_published`. -/
def publishedRow (now : Timestamp) (row : OutboxRow) : OutboxRow :=
  { row with
    status := .published
    publishedAt := some now
    claimId := none
    claimedBy := none
    claimExpiresAt := none }

/-- `SET` list of `mark_publish_failed`. -/
def publishFailedRow (now : Timestamp) (error : String) (retryAfter : Micros) (row : OutboxRow) :
    OutboxRow :=
  { row with
    status := .pending
    lastError := some error
    nextAttemptAt := now + retryAfter
    claimId := none
    claimedBy := none
    claimExpiresAt := none }

/-! ## What the assignments leave alone -/

theorem messageId_supersedeRow (row : OutboxRow) : (supersedeRow row).messageId = row.messageId :=
  rfl

theorem messageId_supersedeOvertakenRow (row : OutboxRow) :
    (supersedeOvertakenRow row).messageId = row.messageId :=
  rfl

theorem messageId_claimRow (now : Timestamp) (claimId : Uuid) (workerId : String)
    (leaseFor : Micros) (row : OutboxRow) :
    (claimRow now claimId workerId leaseFor row).messageId = row.messageId :=
  rfl

section OfFrozen

variable {a b : OutboxRow}

theorem messageId_of_frozen (h : a.frozen = b.frozen) : a.messageId = b.messageId := by
  change a.frozen.messageId = b.frozen.messageId
  rw [h]

theorem entityKey_of_frozen (h : a.frozen = b.frozen) : a.entityKey = b.entityKey := by
  change a.frozen.entityKey = b.frozen.entityKey
  rw [h]

theorem idempotencyKey_of_frozen (h : a.frozen = b.frozen) :
    a.idempotencyKey = b.idempotencyKey := by
  change a.frozen.idempotencyKey = b.frozen.idempotencyKey
  rw [h]

theorem enqueueOrder_of_frozen (h : a.frozen = b.frozen) : a.enqueueOrder = b.enqueueOrder := by
  change a.frozen.enqueueOrder = b.frozen.enqueueOrder
  rw [h]

end OfFrozen

/-! ## Rows of one entity -/

/-- Two rows with the same non-null `entity_key`. -/
def Sibling (a b : OutboxRow) : Prop :=
  ∃ e, a.entityKey = some e ∧ b.entityKey = some e

theorem sqlEq_entityKey_iff {a b : OutboxRow} :
    sqlEq a.entityKey b.entityKey = true ↔ Sibling a b :=
  sqlEq_iff

instance (a b : OutboxRow) : Decidable (Sibling a b) :=
  decidable_of_iff _ sqlEq_entityKey_iff

theorem Sibling.symm {a b : OutboxRow} (h : Sibling a b) : Sibling b a := by
  rcases h with ⟨e, ha, hb⟩
  exact ⟨e, hb, ha⟩

theorem Sibling.trans {a b c : OutboxRow} (hab : Sibling a b) (hbc : Sibling b c) : Sibling a c := by
  rcases hab with ⟨e, ha, hb⟩
  rcases hbc with ⟨e', hb', hc⟩
  exact ⟨e, ha, (hb'.symm.trans hb) ▸ hc⟩

theorem Sibling.of_frozen {a a' b b' : OutboxRow} (h : Sibling a b) (ha : a.frozen = a'.frozen)
    (hb : b.frozen = b'.frozen) : Sibling a' b' := by
  rcases h with ⟨e, hae, hbe⟩
  exact ⟨e, (entityKey_of_frozen ha).symm.trans hae, (entityKey_of_frozen hb).symm.trans hbe⟩

end Outbox
end Kafkaman
