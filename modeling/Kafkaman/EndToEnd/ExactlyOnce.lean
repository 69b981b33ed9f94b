import Kafkaman.EndToEnd.Convergence

/-!
# EndToEnd.ExactlyOnce — at-least-once delivery, processed once

The relay may append a row any number of times: after a lost report, by a worker that has died and
by one that has outlived its lease.  The consumer may be handed any record any number of times.  Both
are absorbed where the received row is inserted, which has the idempotency key of the outbox row.

* `executionsOf` — the committed executions of an outbox row;
* `sourced_execution` — an execution works on the payload of one accepted row;
* `Arrived` — a published row whose records are ingested and whose received row is processed;
* `processed_exactly_once` — at most one execution always, and exactly one of an arrived row.

Nothing here needs an order of the topic, so leases play no part.
-/

namespace Kafkaman
namespace EndToEnd

open Lib Outbox Broker Received

variable {P σ ω : Type}

/-- The committed executions of an outbox row, under its idempotency key. -/
def executionsOf (w : World σ) (o : OutboxRow) : List Dispatch.Execution :=
  w.consumer.executions.filter fun x => decide (o.idempotencyKey = some x.row.idempotencyKey)

theorem mem_executionsOf {w : World σ} {o : OutboxRow} {x : Dispatch.Execution} :
    x ∈ executionsOf w o ↔
      x ∈ w.consumer.executions ∧ o.idempotencyKey = some x.row.idempotencyKey := by
  simp [executionsOf]

/-- A row that was published, has reached the consumer and was processed there. -/
structure Arrived (w : World σ) (o : OutboxRow) : Prop where
  published : ∃ row, Committed w.relay.outbox row ∧ row.frozen = o.frozen ∧
    row.status = .published
  ingested : ∀ index entry, w.relay.log[index]? = some entry → entry.row.frozen = o.frozen →
    index ∈ w.ingested
  processed : ∀ r ∈ w.consumer.db.received, o.idempotencyKey = some r.idempotencyKey →
    r.status = .processed

section Once

variable {pipeline : Pipeline P σ ω} {w : World σ}

theorem reachable_consumer (h : (system pipeline).Reachable w) :
    (Dispatch.system pipeline.dispatcher).Reachable w.consumer :=
  (refines_consumer pipeline).reachableBy h

theorem messageId_eq_of_key (h : (system pipeline).Reachable w) {x y : Dispatch.Execution}
    (hx : x ∈ w.consumer.executions) (hy : y ∈ w.consumer.executions)
    (hkey : x.row.idempotencyKey = y.row.idempotencyKey) : x.row.messageId = y.row.messageId := by
  have hexecuted := Dispatch.reachable_executed (reachable_consumer h)
  rcases hexecuted x hx with ⟨r, hr, hrx⟩
  rcases hexecuted y hy with ⟨r', hr', hry⟩
  have heq : r = r' := by
    refine ReceivedTable.eq_of_idempotencyKey_eq hr hr' ?_
    rw [idempotencyKey_of_frozen hrx, idempotencyKey_of_frozen hry, hkey]
  rw [← messageId_of_frozen hrx, ← messageId_of_frozen hry, heq]

theorem length_executionsOf_le (h : (system pipeline).Reachable w) (o : OutboxRow) :
    (executionsOf w o).length ≤ 1 := by
  have honce : ((executionsOf w o).map fun x => x.row.messageId).Nodup :=
    (Dispatch.reachable_settlement (reachable_consumer h)).once.sublist
      (List.filter_sublist.map _)
  rcases hlist : executionsOf w o with _ | ⟨x, _ | ⟨y, rest⟩⟩
  · simp
  · simp
  · -- two of them would be two executions of one message
    have hx := mem_executionsOf.1 (hlist ▸ List.mem_cons_self : x ∈ executionsOf w o)
    have hy := mem_executionsOf.1
      (hlist ▸ List.mem_cons_of_mem _ List.mem_cons_self : y ∈ executionsOf w o)
    have hsame := messageId_eq_of_key h hx.1 hy.1 (Option.some.inj (hx.2.symm.trans hy.2))
    rw [hlist] at honce
    simp [hsame] at honce

/-- Every execution has an accepted row behind it, and works on its payload. -/
theorem sourced_execution (hround : RoundTrips pipeline) (h : (system pipeline).Reachable w)
    (hcarriage : Carriage pipeline w.relay) {x : Dispatch.Execution}
    (hx : x ∈ w.consumer.executions) :
    ∃ o ∈ w.relay.outbox.enqueued, o.status ≠ .failed ∧ x ∈ executionsOf w o ∧
      x.row.payload = o.payload ∧ x.row.entityKey = o.entityKey := by
  rcases Dispatch.reachable_executed (reachable_consumer h) x hx with ⟨r, hr, hfrozen⟩
  rcases (joined_of_run h).stems r hr with ⟨entry, hentry, hstems⟩
  have hcopies := copies_of_stems hround hcarriage hentry hstems
  rcases entry_spec hcarriage hentry with ⟨⟨o, ho, haccepted, hrow⟩, -, -, -⟩
  refine ⟨o, ho, haccepted, mem_executionsOf.2 ⟨hx, ?_⟩, ?_, ?_⟩
  · rw [Outbox.idempotencyKey_of_frozen hrow, hcopies.idempotencyKey,
      idempotencyKey_of_frozen hfrozen]
  · calc
      x.row.payload = r.payload := (congrArg ReceivedRow.payload hfrozen).symm
      _ = entry.row.payload := hcopies.payload
      _ = o.payload := (congrArg OutboxRow.payload hrow).symm
  · calc
      x.row.entityKey = r.entityKey := (congrArg ReceivedRow.entityKey hfrozen).symm
      _ = entry.row.entityKey := hcopies.entityKey
      _ = o.entityKey := (Outbox.entityKey_of_frozen hrow).symm

theorem executionsOf_ne_nil (hround : RoundTrips pipeline) (h : (system pipeline).Reachable w)
    (hcarriage : Carriage pipeline w.relay) (hquarantine : w.quarantine.rows = [])
    {o : OutboxRow} (harrived : Arrived w o) : executionsOf w o ≠ [] := by
  rcases harrived.published with ⟨row, hrow, hfrozen, hpublished⟩
  rcases hcarriage.delivered row hrow hpublished with ⟨entry, hentry, hcopy⟩
  rcases List.getElem?_of_mem hentry with ⟨index, hindex⟩
  have hof : entry.row.frozen = o.frozen := hcopy.trans hfrozen
  rcases received_of_ingested hround hcarriage (joined_of_run h) hquarantine
    (harrived.ingested index entry hindex hof) hindex with ⟨r, hr, hkey⟩
  rw [Outbox.idempotencyKey_of_frozen hof] at hkey
  -- The processed row was executed, and the execution has its key.
  have hconsumer := reachable_consumer h
  rcases (Dispatch.reachable_settlement hconsumer).executed r hr (harrived.processed r hr hkey) with
    ⟨x, hx, hid⟩
  rcases Dispatch.reachable_executed hconsumer x hx with ⟨r', hr', hfrozen'⟩
  have heq : r' = r :=
    ReceivedTable.eq_of_messageId_eq hr' hr ((messageId_of_frozen hfrozen').trans hid)
  refine List.ne_nil_of_mem (mem_executionsOf.2 ⟨hx, ?_⟩)
  rw [hkey, ← idempotencyKey_of_frozen hfrozen', heq]

end Once

/-- **Processing is exactly once.**  However often a row is published and a record delivered: a
committed execution works on the payload of an accepted outbox row, no row is executed twice, and a
row that was published, whose records are ingested and whose received row is processed, is executed
exactly once. -/
theorem processed_exactly_once {pipeline : Pipeline P σ ω} (hround : RoundTrips pipeline)
    {w : World σ} (h : (system pipeline).Reachable w)
    (hdistinct : Relay.Distinct w.relay.outbox) :
    (∀ x ∈ w.consumer.executions, ∃ o ∈ w.relay.outbox.enqueued, o.status ≠ .failed ∧
      x ∈ executionsOf w o ∧ x.row.payload = o.payload ∧ x.row.entityKey = o.entityKey) ∧
    (∀ o ∈ w.relay.outbox.enqueued, (executionsOf w o).length ≤ 1) ∧
    (w.quarantine.rows = [] → ∀ o ∈ w.relay.outbox.enqueued, Arrived w o →
      (executionsOf w o).length = 1) := by
  have hcarriage : Carriage pipeline w.relay :=
    Relay.carriage_of_run ((refines_relay_free pipeline).reachableBy h) hdistinct
  refine ⟨fun x hx => sourced_execution hround h hcarriage hx,
    fun o _ => length_executionsOf_le h o, ?_⟩
  intro hquarantine o _ harrived
  have hle := length_executionsOf_le h o
  have hpos := List.length_pos_of_ne_nil
    (executionsOf_ne_nil hround h hcarriage hquarantine harrived)
  omega

/-! ### A row that is published past its lease -/

namespace Texts

/-- The first worker holds its batch past its lease; the row is published by another worker, and by
the first one once more, behind the next state of its entity.  All three records are delivered, the
second one twice. -/
def pastLease : List (Action String Nat Bool) :=
  [.relay (.enqueue 0 (envelope 1 "old") none fun _ => true),
    .relay (.claim 0 (Snapshot.claim 1 1)), .relay (.claim 1 (Snapshot.claim 100 2)),
    .relay (.publish 1 none), .relay (.append 0), .relay (.acknowledge 1), .relay (.mark 1 101 0),
    .relay (.enqueue 102 (envelope 2 "new") none fun _ => true),
    .relay (.claim 1 (Snapshot.claim 103 3)), .relay (.publish 1 none), .relay (.append 1),
    .relay (.acknowledge 1), .relay (.mark 1 104 0), .relay (.publish 0 none), .relay (.append 2),
    ingest 0, ingest 1, ingest 2, ingest 1, dispatch 200 false, dispatch 201 false]

/-- What the run comes to: three records of two rows, both of them published and processed. -/
def TwiceAppended (w : World Nat) : Prop :=
  w.relay.log.map (fun entry => entry.row.enqueueOrder) = [1, 2, 1] ∧ w.ingested = [1, 2, 1, 0] ∧
    w.quarantine.rows.length = 0 ∧ w.relay.outbox.purged.length = 0 ∧
    (w.relay.outbox.enqueued.map OutboxRow.messageId).Nodup ∧
    (w.relay.outbox.enqueued.map OutboxRow.idempotencyKey).Nodup ∧
    (∀ r ∈ w.relay.outbox.table.rows, r.status = .published) ∧
    (∀ r ∈ w.consumer.db.received.rows, r.status = .processed) ∧
    ∃ o ∈ w.relay.outbox.enqueued, text o.payload = some "old"

instance (w : World Nat) : Decidable (TwiceAppended w) :=
  inferInstanceAs (Decidable (_ ∧ _))

end Texts

open Texts in
theorem processed_exactly_once_past_lease :
    ∃ w, (system pipeline).Reachable w ∧
      w.relay.log.map (fun entry => entry.row.enqueueOrder) = [1, 2, 1] ∧
      ∃ o ∈ w.relay.outbox.enqueued, text o.payload = some "old" ∧
        (executionsOf w o).length = 1 := by
  obtain ⟨w, hreach, hlog, hingested, hquarantine, hpurged, hids, hkeys, hpublished, hprocessed, o,
    ho, htext⟩ := TransitionSystem.exists_reachable_of_run (Q := TwiceAppended)
      (TransitionSystem.Reachable.start ⟨0, rfl⟩ : (system pipeline).Reachable (World.initial 0))
      pastLease (by decide +kernel)
  have hdistinct : Relay.Distinct w.relay.outbox :=
    { messageId := fun o ho o' ho' heq => List.inj_on_of_nodup_map hids ho ho' heq
      idempotencyKey := fun o ho o' ho' key hkey hkey' =>
        List.inj_on_of_nodup_map hkeys ho ho' (hkey.trans hkey'.symm) }
  have harrived : Arrived w o :=
    { published := by
        have hlineage := Relay.lineage_of_run ((refines_relay_free pipeline).reachableBy hreach)
        rcases hlineage.kept o ho with ⟨row, hrow | hrow, hfrozen⟩
        · exact ⟨row, Or.inl hrow, hfrozen, hpublished row hrow⟩
        · rw [List.length_eq_zero_iff.1 hpurged] at hrow
          cases hrow
      ingested := fun index entry hentry _ => by
        have hlength : w.relay.log.length = 3 := by simpa using congrArg List.length hlog
        have hlt : index < 3 := hlength ▸ (List.getElem?_eq_some_iff.1 hentry).1
        rw [hingested]
        simp only [List.mem_cons]
        omega
      processed := fun r hr _ => hprocessed r hr }
  exact ⟨w, hreach, hlog, o, ho, htext, (processed_exactly_once roundTrips hreach hdistinct).2.2
    (List.length_eq_zero_iff.1 hquarantine) o ho harrived⟩

end EndToEnd
end Kafkaman
