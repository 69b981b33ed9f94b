import Kafkaman.Broker.Spelling
import Kafkaman.Relay.System

/-!
# Relay.Order — in which order an entity's states reach the topic

`PublishOrder` is what every consumer's convergence guard depends on: the records of one entity
carry non-decreasing ordinals.  It is not a law of the relay: a worker does not look at its lease
before it publishes, so a row that was reclaimed, published and overtaken by a newer one can still be
appended by its first owner (`publish_order_broken`).  It is a law of every run whose appends land
while their row is `Publishing` (`publish_order_of_landing`).
-/

namespace Kafkaman
namespace Relay

open Lib Outbox Broker

/-- No record follows a record of the same entity with a greater ordinal. -/
def PublishOrder (log : List Appended) : Prop :=
  log.Pairwise fun earlier later =>
    Sibling earlier.row later.row → earlier.row.enqueueOrder ≤ later.row.enqueueOrder

instance (log : List Appended) : Decidable (PublishOrder log) :=
  inferInstanceAs (Decidable (log.Pairwise _))

/-- If the step is an append, the row it appends is `Publishing` in the outbox. -/
def Landing {P : Type} (w : World) : Action P → Prop
  | .append id =>
      ∀ request ∈ w.inFlight, request.id = id →
        ∃ r ∈ w.outbox.table, r.frozen = request.claimed.row.frozen ∧ r.status = .publishing
  | _ => True

/-! ## The invariant -/

/-- Everything behind an appended row is settled, so it cannot be appended again. -/
structure Ordered (w : World) : Prop where
  lineage : Lineage w.outbox
  issued : ∀ entry ∈ w.log, entry.row.enqueueOrder < w.outbox.sequence
  settled : ∀ entry ∈ w.log, ∀ q ∈ w.outbox.table, Sibling q entry.row →
    q.enqueueOrder < entry.row.enqueueOrder → q.status.isTerminal = true
  ordered : PublishOrder w.log

theorem ordered_initial : Ordered World.initial :=
  { lineage := lineage_initial
    issued := fun entry hentry => by cases hentry
    settled := fun entry hentry => by cases hentry
    ordered := List.Pairwise.nil }

namespace Ordered

variable {P : Type} {message : KafkaMessage P} {descriptor : MessageDescriptor} {codec : Codec}
  {partitioner : Option String → Int} {w w' : World}

theorem outbox_step (h : Ordered w) {b : Outbox.Action P}
    (hnext : Outbox.next message descriptor w.outbox b = some w'.outbox)
    (hlog : w'.log = w.log) : Ordered w' := by
  rcases next_transition h.lineage.table_fresh hnext with ⟨new, ht⟩
  refine
    { lineage := h.lineage.transition ht
      issued := ?_
      settled := ?_
      ordered := hlog ▸ h.ordered }
  · intro entry hentry
    exact Nat.lt_of_lt_of_le (h.issued entry (hlog ▸ hentry)) ht.sequence
  · intro entry hentry q' hq' hsib hlt
    rw [hlog] at hentry
    rcases ht.back q' hq' with hnew | ⟨q, hq, hb⟩
    · -- A new row is ahead of everything that was ever appended.
      have := (ht.inserted q' hnew).2.1
      have := h.issued entry hentry
      omega
    · have hterm : q.status.isTerminal = true := by
        refine h.settled entry hentry q hq (hsib.of_frozen hb.frozen.symm rfl) ?_
        rw [enqueueOrder_of_frozen hb.frozen]
        exact hlt
      rw [hb.status.eq_of_isTerminal hterm]
      exact hterm

theorem append_step (h : Ordered w) {request : Request}
    (hlanding : ∃ r ∈ w.outbox.table, r.frozen = request.claimed.row.frozen ∧
      r.status = .publishing) : Ordered (appendRecord partitioner w request) := by
  rcases hlanding with ⟨r, hr, hfrozen, hst⟩
  have horder := enqueueOrder_of_frozen hfrozen
  refine
    { lineage := h.lineage
      issued := ?_
      settled := ?_
      ordered := ?_ }
  · intro entry hentry
    rcases List.mem_append.1 hentry with hentry | hentry
    · exact h.issued entry hentry
    · rw [List.mem_singleton.1 hentry]
      have := h.lineage.committed_fresh (Or.inl hr)
      change request.claimed.row.enqueueOrder < w.outbox.sequence
      omega
  · intro entry hentry q hq hsib hlt
    rcases List.mem_append.1 hentry with hentry | hentry
    · exact h.settled entry hentry q hq hsib hlt
    · rw [List.mem_singleton.1 hentry] at hsib hlt
      refine h.lineage.settled r (Or.inl hr) (Or.inl hst) q hq (hsib.of_frozen rfl hfrozen.symm) ?_
      rw [horder]
      exact hlt
  · refine List.pairwise_append.2 ⟨h.ordered, List.pairwise_singleton _ _, ?_⟩
    intro earlier hearlier later hlater hsib
    rw [List.mem_singleton.1 hlater] at hsib ⊢
    by_contra hlt
    -- The row being appended would be behind an appended one, hence settled, yet it is in flight.
    have hterm : r.status.isTerminal = true := by
      refine h.settled earlier hearlier r hr (hsib.symm.of_frozen hfrozen.symm rfl) ?_
      rw [horder]
      exact Nat.lt_of_not_le hlt
    simp [hst, OutboxStatus.isTerminal] at hterm

theorem step (h : Ordered w) {a : Action P} (hok : Landing w a)
    (hstep : Step message descriptor codec partitioner w a w') : Ordered w' := by
  rcases hstep.log with hlog | ⟨request, hmem, rfl, rfl⟩
  · rcases hstep.outbox with hsame | ⟨b, hnext⟩
    · exact
        { lineage := hsame ▸ h.lineage
          issued := by
            rw [hsame, hlog]
            exact h.issued
          settled := by
            rw [hsame, hlog]
            exact h.settled
          ordered := hlog ▸ h.ordered }
    · exact h.outbox_step hnext hlog
  · exact h.append_step (hok request hmem rfl)

end Ordered

/-! ## Runs -/

section Runs

variable {P : Type} {message : KafkaMessage P} {descriptor : MessageDescriptor} {codec : Codec}
  {partitioner : Option String → Int} {w : World}

theorem ordered_of_landing
    (h : (system message descriptor codec partitioner).ReachableBy Landing w) : Ordered w := by
  refine TransitionSystem.ReachableBy.invariant ?_ ?_ h
  · intro w hw
    exact hw ▸ ordered_initial
  · intro w a w' hI hok hnext
    exact hI.step hok (step_of_next hnext)

/-- In every run whose appends all land while their row is `Publishing`, under whatever claim, one
entity's records carry non-decreasing ordinals. -/
theorem publish_order_of_landing
    (h : (system message descriptor codec partitioner).ReachableBy Landing w) :
    PublishOrder w.log :=
  (ordered_of_landing h).ordered

end Runs

/-! ## Two runs of one entity -/

def enqueueSnapshot (now : Timestamp) (n : Nat) (payload : Snapshot) : Action Snapshot :=
  .enqueue now (Snapshot.envelope n payload) none fun _ => true

/-- The relay of `Snapshot` messages on a topic with one partition. -/
def snapshotRelay : TransitionSystem World (Action Snapshot) :=
  system Snapshot.message Snapshot.descriptor Spelling.codec fun _ => 0

/-- Two states published one after the other, the first one twice: its delivery report is lost. -/
def publishedInTurn : List (Action Snapshot) :=
  [enqueueSnapshot 0 1 ⟨"a", "old"⟩, .claim 0 (Snapshot.claim 1 1), .publish 0 none, .append 0,
    .fail 0 "timed out", .mark 0 2 0, .claim 0 (Snapshot.claim 3 2), .publish 0 none, .append 1,
    .acknowledge 0, .mark 0 4 0, enqueueSnapshot 5 2 ⟨"a", "new"⟩,
    .claim 0 (Snapshot.claim 6 3), .publish 0 none, .append 2]

theorem publish_order_of_landing_in_turn :
    ∃ w, snapshotRelay.run World.initial publishedInTurn = some w ∧
      w.log.map (fun entry => entry.row.enqueueOrder) = [1, 1, 2] ∧ PublishOrder w.log := by
  have hlanding : snapshotRelay.runOk Landing World.initial publishedInTurn := by
    refine ⟨trivial, trivial, trivial, ?_, trivial, trivial, trivial, trivial, ?_, trivial,
      trivial, trivial, trivial, trivial, ?_, trivial⟩
    all_goals
      intro request hmem _
      rw [List.mem_singleton.1 hmem]
    · exact ⟨_, List.mem_singleton.2 rfl, rfl, rfl⟩
    · exact ⟨_, List.mem_singleton.2 rfl, rfl, rfl⟩
    · exact ⟨_, List.mem_cons_of_mem _ (List.mem_singleton.2 rfl), rfl, rfl⟩
  obtain ⟨w, hrun, horders⟩ :
      ∃ w, snapshotRelay.run World.initial publishedInTurn = some w ∧
        w.log.map (fun entry => entry.row.enqueueOrder) = [1, 1, 2] :=
    TransitionSystem.exists_of_run (by decide +kernel)
  refine ⟨w, hrun, horders, ?_⟩
  exact publish_order_of_landing
    (TransitionSystem.reachableBy_of_run (TransitionSystem.ReachableBy.start rfl) hlanding hrun)

/-- A worker holds a batch past its lease.  The row is reclaimed, published and overtaken by a newer
state, and then the first worker, which does not look at its lease, publishes it again. -/
def publishedPastLease : List (Action Snapshot) :=
  [enqueueSnapshot 0 1 ⟨"a", "old"⟩, .claim 0 (Snapshot.claim 1 1),
    .claim 1 (Snapshot.claim 100 2), .publish 1 none, .append 0, .acknowledge 1, .mark 1 101 0,
    enqueueSnapshot 102 2 ⟨"a", "new"⟩, .claim 1 (Snapshot.claim 103 3), .publish 1 none,
    .append 1, .acknowledge 1, .mark 1 104 0, .publish 0 none, .append 2]

/-- The stale state lands behind the newer one. -/
theorem publish_order_broken :
    ∃ w, snapshotRelay.Reachable w ∧
      w.log.map (fun entry => entry.row.enqueueOrder) = [1, 2, 1] ∧
      (∀ entry ∈ w.log, entry.row.entityKey = some "a") ∧ ¬ PublishOrder w.log := by
  have hstart : snapshotRelay.Reachable World.initial := TransitionSystem.Reachable.start rfl
  exact TransitionSystem.exists_reachable_of_run hstart publishedPastLease (by decide +kernel)

end Relay
end Kafkaman
