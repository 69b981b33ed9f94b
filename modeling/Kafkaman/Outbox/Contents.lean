import Kafkaman.Lib.Fallible
import Kafkaman.Outbox.Transition

/-!
# Outbox.Contents — what the rows of an outbox were written from

A row takes its content from the payload of one envelope, through the methods of the message type, and
no statement changes it afterwards.

* `Written` — a row and the payload it was written from, in terms of its frozen columns;
* `Contents`, `Contents.next` — what holds of every row ever committed;
* `published_of_next` — which step publishes a row.
-/

namespace Kafkaman
namespace Outbox

open Lib

variable {P : Type} {message : KafkaMessage P} {descriptor : MessageDescriptor}

/-- What a prepared insert is made of. -/
structure PreparedInsert (message : KafkaMessage P) (descriptor : MessageDescriptor)
    (evt : Envelope P) (insert : InsertOutboxRow) : Prop where
  topic : insert.topic = descriptor.topic
  partitionKey : message.partitionKey evt.payload = .returned insert.partitionKey
  entityKey : message.entityKey evt.payload = .returned insert.entityKey
  payload : message.toValue evt.payload = .returned (.ok insert.payload)
  headers : ∀ key ∈ insert.headers.keys, isReservedHeader key = true →
    key = "kafkaman-entity-key"

theorem preparedInsert_of_prepareInsert {evt : Envelope P} {trace : Option TraceContext}
    {insert : InsertOutboxRow} (h : prepareInsert message descriptor evt trace = .ok insert) :
    PreparedInsert message descriptor evt insert := by
  rcases prepareInsert_eq_ok.1 h with ⟨hreserved, partitionKey, hpartition, entityKey, hentity,
    payload, hvalue, rfl⟩
  refine
    { topic := rfl
      partitionKey := hpartition
      entityKey := hentity
      payload := hvalue
      headers := ?_ }
  intro key hkey hres
  have hown : key ∉ evt.headers.keys := fun hmem =>
    not_reserved_of_reservedHeader hreserved hmem hres
  simp only at hkey
  split at hkey
  · exact absurd hkey hown
  · exact (SortedMap.mem_keys_insert hkey).resolve_right hown

/-- The row was written from a payload of the message type. -/
structure Written (message : KafkaMessage P) (descriptor : MessageDescriptor) (row : OutboxRow)
    (payload : P) (entity : String) : Prop where
  topic : row.topic = descriptor.topic
  partitionKey : message.partitionKey payload = .returned row.partitionKey
  entityKey : message.entityKey payload = .returned entity
  entityKey_eq : row.entityKey = some entity
  payload : message.toValue payload = .returned (.ok row.payload)
  headers : ∀ key ∈ row.headers.keys, isReservedHeader key = true → key = "kafkaman-entity-key"

theorem written_frozen {row : OutboxRow} {payload : P} {entity : String} :
    Written message descriptor row.frozen payload entity ↔
      Written message descriptor row payload entity :=
  ⟨fun h => ⟨h.topic, h.partitionKey, h.entityKey, h.entityKey_eq, h.payload, h.headers⟩,
    fun h => ⟨h.topic, h.partitionKey, h.entityKey, h.entityKey_eq, h.payload, h.headers⟩⟩

theorem Written.of_frozen {a b : OutboxRow} {payload : P} {entity : String}
    (h : Written message descriptor a payload entity) (hfrozen : a.frozen = b.frozen) :
    Written message descriptor b payload entity := by
  rw [← written_frozen, ← hfrozen, written_frozen]
  exact h

theorem written_inserted {evt : Envelope P} {insert : InsertOutboxRow}
    (h : PreparedInsert message descriptor evt insert) (now : Timestamp) (order : Nat) :
    Written message descriptor (insert.inserted now order) evt.payload insert.entityKey := by
  unfold InsertOutboxRow.inserted
  split <;>
    exact
      { topic := h.topic
        partitionKey := h.partitionKey
        entityKey := h.entityKey
        entityKey_eq := rfl
        payload := h.payload
        headers := h.headers }

/-- What holds of every row ever committed, as it was inserted. -/
structure Contents (message : KafkaMessage P) (descriptor : MessageDescriptor) (s : State) :
    Prop where
  written : ∀ o ∈ s.enqueued, ∃ payload entity, Written message descriptor o payload entity
  identified : ∀ o ∈ s.enqueued, o.status ≠ .failed → ∃ key, o.idempotencyKey = some key

theorem contents_initial : Contents message descriptor State.initial :=
  { written := fun _ ho => nomatch ho
    identified := fun _ ho => nomatch ho }

theorem enqueued_of_next {s s' : State} {a : Action P}
    (hnext : next message descriptor s a = some s') {o : OutboxRow} (ho : o ∈ s'.enqueued) :
    o ∈ s.enqueued ∨ ∃ evt insert now, PreparedInsert message descriptor evt insert ∧
      o = insert.inserted now s.sequence := by
  cases step_of_next hnext with
  | unmoved hsame =>
      exact Or.inl (hsame.enqueued ▸ ho)
  | @inserted now evt _ _ insert hprepare hkey =>
      have hcons : o ∈ insert.inserted now s.sequence :: s.enqueued := by
        simpa only [commitInsert, hkey, if_false] using ho
      rcases List.mem_cons.1 hcons with hnew | hold
      · exact Or.inr ⟨evt, insert, now, preparedInsert_of_prepareInsert hprepare, hnew⟩
      · exact Or.inl hold
  | claimed | marked | swept =>
      exact Or.inl ho

theorem Contents.next {s s' : State} {a : Action P} (h : Contents message descriptor s)
    (hnext : next message descriptor s a = some s') : Contents message descriptor s' := by
  refine
    { written := ?_
      identified := ?_ }
  · intro o ho
    rcases enqueued_of_next hnext ho with hold | ⟨evt, insert, now, hprepared, rfl⟩
    · exact h.written o hold
    · exact ⟨evt.payload, insert.entityKey, written_inserted hprepared now s.sequence⟩
  · intro o ho hst
    rcases enqueued_of_next hnext ho with hold | ⟨evt, insert, now, hprepared, rfl⟩
    · exact h.identified o hold hst
    · cases hkey : insert.idempotencyKey with
      | none =>
          rw [status_inserted, hkey] at hst
          exact absurd rfl hst
      | some key =>
          exact ⟨key, by simp [InsertOutboxRow.inserted, InsertOutboxRow.row, hkey]⟩

/-! ## Publication -/

/-- A published row was so before, or this step is the mark that says so. -/
theorem published_of_next {s s' : State} {a : Action P}
    (hnext : next message descriptor s a = some s') {r' : OutboxRow} (hr' : r' ∈ s'.table)
    (hst : r'.status = .published) :
    r' ∈ s.table ∨ ∃ now messageId claimId, a = .mark now .published messageId claimId ∧
      r'.messageId = messageId := by
  cases step_of_next hnext with
  | unmoved hsame =>
      exact Or.inl (hsame.table ▸ hr')
  | inserted _ hkey =>
      exact Or.inl (mem_table_of_commitInsert hkey hr' (Or.inr hst))
  | claimed _ =>
      rcases mem_claimOutcome_cases hr' with hold | ⟨r, -, -, rfl, -⟩ | ⟨k, -, -, rfl⟩
      · exact Or.inl hold
      · cases hst
      · cases hst
  | @marked now mark messageId claimId _ =>
      rcases mem_markUpdate.1 hr' with ⟨r, hr, heq⟩
      split at heq
      · rename_i hfenced
        -- The row is the one the mark was for; a failed publish makes it `Pending` again.
        cases mark with
        | published =>
            refine Or.inr ⟨now, messageId, claimId, rfl, ?_⟩
            rw [← heq]
            exact (fenced_iff.1 hfenced).1
        | publishFailed error retryAfter =>
            rw [← heq] at hst
            cases hst
      · exact Or.inl (heq ▸ hr)
  | swept =>
      exact Or.inl (Table.mem_deleteWhere.1 hr').1

end Outbox
end Kafkaman
