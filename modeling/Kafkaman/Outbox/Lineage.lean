import Kafkaman.Outbox.Transition

/-!
# Outbox.Lineage — which state of an entity survives

The invariant behind per-entity ordering.  Rows keep their identity (`origin`, `kept`), a row is
superseded only when a later accepted row of its entity exists (`overtaken`), and once a row is
being published or has been, everything behind it in its entity is settled (`settled`).

* `Lineage` — the invariant; `Lineage.transition` keeps it across any step;
* `reachable_lineage` — it holds in every reachable state;
* `newest_state_kept` — the newest accepted state of an entity is never discarded.
-/

namespace Kafkaman
namespace Outbox

open Lib

/-- A row as it stands in the table, or as it stood when it was deleted. -/
def Committed (s : State) (r : OutboxRow) : Prop :=
  r ∈ s.table ∨ r ∈ s.purged

/-- In flight, or done. -/
def Sent (r : OutboxRow) : Prop :=
  r.status = .publishing ∨ r.status = .published

structure Lineage (s : State) : Prop where
  fresh : ∀ o ∈ s.enqueued, o.enqueueOrder < s.sequence
  distinct : ∀ o ∈ s.enqueued, ∀ o' ∈ s.enqueued, o.enqueueOrder = o'.enqueueOrder → o = o'
  origin : ∀ r, Committed s r →
    ∃ o ∈ s.enqueued, o.frozen = r.frozen ∧ (o.status = .failed ↔ r.status = .failed)
  kept : ∀ o ∈ s.enqueued, ∃ r, Committed s r ∧ r.frozen = o.frozen
  reclaimed : ∀ r ∈ s.purged, r.status.isTerminal = true
  overtaken : ∀ r, Committed s r → r.status = .superseded →
    ∃ o ∈ s.enqueued, o.status ≠ .failed ∧ Sibling r o ∧ r.enqueueOrder < o.enqueueOrder
  settled : ∀ r, Committed s r → Sent r → ∀ q ∈ s.table, Sibling q r →
    q.enqueueOrder < r.enqueueOrder → q.status.isTerminal = true

theorem lineage_initial : Lineage State.initial := by
  have hnone : ∀ r, ¬ Committed State.initial r := by
    intro r h
    rcases h with h | h
    · exact Table.not_mem_empty h
    · cases h
  exact
    { fresh := fun o ho => by cases ho
      distinct := fun o ho => by cases ho
      origin := fun r hr => absurd hr (hnone r)
      kept := fun o ho => by cases ho
      reclaimed := fun r hr => by cases hr
      overtaken := fun r hr => absurd hr (hnone r)
      settled := fun r hr => absurd hr (hnone r) }

namespace Lineage

variable {s s' : State}

theorem committed_fresh (h : Lineage s) {r : OutboxRow} (hr : Committed s r) :
    r.enqueueOrder < s.sequence := by
  rcases h.origin r hr with ⟨o, ho, hfrozen, -⟩
  have horder := enqueueOrder_of_frozen hfrozen
  have hfresh := h.fresh o ho
  omega

theorem table_fresh (h : Lineage s) : ∀ r ∈ s.table, r.enqueueOrder < s.sequence :=
  fun _ hr => h.committed_fresh (Or.inl hr)

theorem eq_of_order_eq (h : Lineage s) {r r' : OutboxRow} (hr : r ∈ s.table) (hr' : r' ∈ s.table)
    (horder : r.enqueueOrder = r'.enqueueOrder) : r = r' := by
  rcases h.origin r (Or.inl hr) with ⟨o, ho, hfrozen, -⟩
  rcases h.origin r' (Or.inl hr') with ⟨o', ho', hfrozen', -⟩
  have heq : o = o' := by
    apply h.distinct o ho o' ho'
    rw [enqueueOrder_of_frozen hfrozen, enqueueOrder_of_frozen hfrozen', horder]
  subst heq
  exact Table.eq_of_key_eq hr hr' (messageId_of_frozen (hfrozen.symm.trans hfrozen'))

theorem eq_of_publishing (h : Lineage s) {r r' : OutboxRow} (hr : r ∈ s.table) (hr' : r' ∈ s.table)
    (hsib : Sibling r r') (hst : r.status = .publishing) (hst' : r'.status = .publishing) :
    r = r' := by
  rcases Nat.lt_trichotomy r.enqueueOrder r'.enqueueOrder with hlt | heq | hgt
  · have := h.settled r' (Or.inl hr') (Or.inl hst') r hr hsib hlt
    simp [hst, OutboxStatus.isTerminal] at this
  · exact h.eq_of_order_eq hr hr' heq
  · have := h.settled r (Or.inl hr) (Or.inl hst) r' hr' hsib.symm hgt
    simp [hst', OutboxStatus.isTerminal] at this

/-! ## One step -/

section Step

variable {new : Option OutboxRow}

theorem committed_cases (ht : Transition new s s') {r' : OutboxRow} (hr' : Committed s' r') :
    r' ∈ new ∨ ∃ r, Committed s r ∧ Becomes r r' := by
  rcases hr' with hr' | hr'
  · rcases ht.back r' hr' with hnew | ⟨r, hr, hb⟩
    · exact Or.inl hnew
    · exact Or.inr ⟨r, Or.inl hr, hb⟩
  · rcases ht.purged r' hr' with hr | ⟨hr, -⟩
    · exact Or.inr ⟨r', Or.inr hr, Becomes.refl r'⟩
    · exact Or.inr ⟨r', Or.inl hr, Becomes.refl r'⟩

theorem mem_enqueued_of_transition (ht : Transition new s s') {o : OutboxRow} :
    o ∈ s'.enqueued ↔ o ∈ new ∨ o ∈ s.enqueued := by
  rw [ht.enqueued]
  simp

theorem origin_of_transition (h : Lineage s) (ht : Transition new s s') {r' : OutboxRow}
    (hr' : Committed s' r') :
    ∃ o ∈ s'.enqueued, o.frozen = r'.frozen ∧ (o.status = .failed ↔ r'.status = .failed) := by
  rcases committed_cases ht hr' with hnew | ⟨r, hr, hb⟩
  · exact ⟨r', (mem_enqueued_of_transition ht).2 (Or.inl hnew), rfl, Iff.rfl⟩
  · rcases h.origin r hr with ⟨o, ho, hfrozen, hfailed⟩
    refine ⟨o, (mem_enqueued_of_transition ht).2 (Or.inr ho), hfrozen.trans hb.frozen, ?_⟩
    exact hfailed.trans hb.status.failed_iff

theorem overtaken_of_transition (h : Lineage s) (ht : Transition new s s') {r' : OutboxRow}
    (hr' : Committed s' r') (hsup : r'.status = .superseded) :
    ∃ o ∈ s'.enqueued, o.status ≠ .failed ∧ Sibling r' o ∧ r'.enqueueOrder < o.enqueueOrder := by
  have hold : ∀ r, Committed s r → r.status = .superseded → r.frozen = r'.frozen →
      ∃ o ∈ s'.enqueued, o.status ≠ .failed ∧ Sibling r' o ∧
        r'.enqueueOrder < o.enqueueOrder := by
    intro r hr hst hfrozen
    rcases h.overtaken r hr hst with ⟨o, ho, hacc, hsib, hlt⟩
    refine ⟨o, (mem_enqueued_of_transition ht).2 (Or.inr ho), hacc, hsib.of_frozen hfrozen rfl, ?_⟩
    exact (enqueueOrder_of_frozen hfrozen) ▸ hlt
  rcases hr' with hr' | hr'
  · rcases ht.back r' hr' with hnew | ⟨r, hr, hb⟩
    · rcases (ht.inserted r' hnew).2.2.2 with hst | hst <;> simp [hst] at hsup
    · cases hst : r.status with
      | pending =>
          -- This step superseded the row: its overtaker is a row of one of the two tables.
          rcases ht.overtaken r hr r' hr' hb hst hsup with ⟨n, hn, hnf, hsib, hlt⟩
          have horigin : ∃ o ∈ s'.enqueued, o.frozen = n.frozen ∧
              (o.status = .failed ↔ n.status = .failed) := by
            rcases hn with hn | hn
            · rcases h.origin n (Or.inl hn) with ⟨o, ho, hrest⟩
              exact ⟨o, (mem_enqueued_of_transition ht).2 (Or.inr ho), hrest⟩
            · exact origin_of_transition h ht (Or.inl hn)
          rcases horigin with ⟨o, ho, hfrozen, hfailed⟩
          refine ⟨o, ho, fun hf => hnf (hfailed.1 hf), hsib.of_frozen hb.frozen hfrozen.symm, ?_⟩
          rw [enqueueOrder_of_frozen hfrozen, ← enqueueOrder_of_frozen hb.frozen]
          exact hlt
      | superseded =>
          exact hold r (Or.inl hr) hst hb.frozen
      | publishing | published | failed =>
          have hstep := hb.status
          rw [hst, hsup] at hstep
          cases hstep
  · rcases ht.purged r' hr' with hr | ⟨hr, -⟩
    · exact hold r' (Or.inr hr) hsup rfl
    · exact hold r' (Or.inl hr) hsup rfl

theorem settled_of_transition (h : Lineage s) (ht : Transition new s s') {r' : OutboxRow}
    (hr' : Committed s' r') (hsent : Sent r') {q' : OutboxRow} (hq' : q' ∈ s'.table)
    (hsib : Sibling q' r') (hlt : q'.enqueueOrder < r'.enqueueOrder) :
    q'.status.isTerminal = true := by
  -- What was settled behind `r` stays settled behind its next version.
  have hold : ∀ r, Committed s r → Sent r → r.frozen = r'.frozen →
      q'.status.isTerminal = true := by
    intro r hr hsentr hfrozen
    have horder := enqueueOrder_of_frozen hfrozen
    rcases ht.back q' hq' with hnew | ⟨q, hq, hb⟩
    · have hnewest := (ht.inserted q' hnew).2.1
      have := h.committed_fresh hr
      omega
    · have hterm : q.status.isTerminal = true := by
        refine h.settled r hr hsentr q hq (hsib.of_frozen hb.frozen.symm hfrozen.symm) ?_
        rw [enqueueOrder_of_frozen hb.frozen]
        omega
      rw [hb.status.eq_of_isTerminal hterm]
      exact hterm
  rcases hr' with hr' | hr'
  · rcases ht.back r' hr' with hnew | ⟨r, hr, hb⟩
    · rcases (ht.inserted r' hnew).2.2.2 with hst | hst
      · rcases hsent with h' | h' <;> simp [hst] at h'
      · rcases hsent with h' | h' <;> simp [hst] at h'
    · cases hst : r.status with
      | pending =>
          have hstep := hb.status
          rw [hst] at hstep
          rcases hsent with hpub | hpub
          · exact ht.settles r hr r' hr' hb hst hpub q' hq' hsib hlt
          · rw [hpub] at hstep
            cases hstep
      | publishing =>
          exact hold r (Or.inl hr) (Or.inl hst) hb.frozen
      | published =>
          exact hold r (Or.inl hr) (Or.inr hst) hb.frozen
      | superseded | failed =>
          have heq : r'.status = r.status :=
            hb.status.eq_of_isTerminal (by simp [hst, OutboxStatus.isTerminal])
          rcases hsent with h' | h' <;> simp [heq, hst] at h'
  · rcases ht.purged r' hr' with hr | ⟨hr, -⟩
    · exact hold r' (Or.inr hr) hsent rfl
    · exact hold r' (Or.inl hr) hsent rfl

theorem transition (h : Lineage s) (ht : Transition new s s') : Lineage s' := by
  refine
    { fresh := ?_
      distinct := ?_
      origin := fun r hr => origin_of_transition h ht hr
      kept := ?_
      reclaimed := ?_
      overtaken := fun r hr hsup => overtaken_of_transition h ht hr hsup
      settled := fun r hr hsent q hq hsib hlt => settled_of_transition h ht hr hsent hq hsib hlt }
  · intro o ho
    rcases (mem_enqueued_of_transition ht).1 ho with hnew | ho
    · rcases ht.inserted o hnew with ⟨-, horder, hseq, -⟩
      omega
    · have := h.fresh o ho
      have := ht.sequence
      omega
  -- A new row takes the number the sequence had, which no older row holds.
  · intro o ho o' ho' horder
    rcases (mem_enqueued_of_transition ht).1 ho with hnew | ho
    · rcases (mem_enqueued_of_transition ht).1 ho' with hnew' | ho'
      · exact Option.mem_unique hnew hnew'
      · have := (ht.inserted o hnew).2.1
        have := h.fresh o' ho'
        omega
    · rcases (mem_enqueued_of_transition ht).1 ho' with hnew' | ho'
      · have := (ht.inserted o' hnew').2.1
        have := h.fresh o ho
        omega
      · exact h.distinct o ho o' ho' horder
  · intro o ho
    rcases (mem_enqueued_of_transition ht).1 ho with hnew | ho
    · exact ⟨o, Or.inl (ht.inserted o hnew).1, rfl⟩
    · rcases h.kept o ho with ⟨r, hr | hr, hfrozen⟩
      · rcases ht.forth r hr with hp | ⟨r', hr', hb⟩
        · exact ⟨r, Or.inr hp, hfrozen⟩
        · exact ⟨r', Or.inl hr', hb.frozen.symm.trans hfrozen⟩
      · exact ⟨r, Or.inr (ht.purged_subset r hr), hfrozen⟩
  · intro r hr
    rcases ht.purged r hr with hr | ⟨-, hterm⟩
    · exact h.reclaimed r hr
    · exact hterm

end Step

end Lineage

/-! ## Whole runs -/

section Runs

variable {P : Type} {message : KafkaMessage P} {descriptor : MessageDescriptor} {s : State}

theorem lineage_next {s' : State} {a : Action P} (h : Lineage s)
    (hnext : next message descriptor s a = some s') : Lineage s' := by
  rcases next_transition h.table_fresh hnext with ⟨new, ht⟩
  exact h.transition ht

theorem reachable_lineage (h : (system message descriptor).Reachable s) : Lineage s := by
  refine TransitionSystem.Reachable.invariant ?_ ?_ h
  · intro s hs
    exact hs ▸ lineage_initial
  · intro s a s' hI hnext
    exact lineage_next hI hnext

/-- `o` is the accepted row of its entity with the greatest ordinal ever committed. -/
def Newest (s : State) (o : OutboxRow) : Prop :=
  o ∈ s.enqueued ∧ o.status ≠ .failed ∧
    ∀ o' ∈ s.enqueued, o'.status ≠ .failed → Sibling o o' → o'.enqueueOrder ≤ o.enqueueOrder

theorem Lineage.ne_failed (h : Lineage s) {o r : OutboxRow} (ho : o ∈ s.enqueued)
    (hacc : o.status ≠ .failed) (hr : Committed s r) (hfrozen : r.frozen = o.frozen) :
    r.status ≠ .failed := by
  intro hfailed
  rcases h.origin r hr with ⟨o', ho', hfrozen', hiff⟩
  have heq : o' = o := h.distinct o' ho' o ho (enqueueOrder_of_frozen (hfrozen'.trans hfrozen))
  exact hacc (heq ▸ hiff.2 hfailed)

theorem Lineage.ne_superseded (h : Lineage s) {o r : OutboxRow} (ho : Newest s o)
    (hr : Committed s r) (hfrozen : r.frozen = o.frozen) : r.status ≠ .superseded := by
  intro hsup
  rcases h.overtaken r hr hsup with ⟨o', ho', hacc', hsib, hlt⟩
  have hle := ho.2.2 o' ho' hacc' (hsib.of_frozen hfrozen rfl)
  have horder := enqueueOrder_of_frozen hfrozen
  omega

theorem Lineage.newest_published (h : Lineage s) {o r : OutboxRow} (ho : Newest s o)
    (hr : Committed s r) (hfrozen : r.frozen = o.frozen) (hterm : r.status.isTerminal = true) :
    r.status = .published := by
  have hsup := h.ne_superseded ho hr hfrozen
  have hfailed := h.ne_failed ho.1 ho.2.1 hr hfrozen
  cases hst : r.status with
  | published => rfl
  | superseded => exact absurd hst hsup
  | failed => exact absurd hst hfailed
  | pending | publishing => simp [hst, OutboxStatus.isTerminal] at hterm

theorem Lineage.overtaken_next (h : Lineage s) {s' : State} {a : Action P}
    (hnext : next message descriptor s a = some s') {r r' : OutboxRow} (hr : r ∈ s.table)
    (hr' : r' ∈ s'.table) (hfrozen : r.frozen = r'.frozen) (hst : r.status ≠ .superseded)
    (hsup : r'.status = .superseded) :
    ∃ n, (n ∈ s.table ∨ n ∈ s'.table) ∧ n.status ≠ .failed ∧ Sibling r n ∧
      r.enqueueOrder < n.enqueueOrder := by
  rcases next_transition h.table_fresh hnext with ⟨new, ht⟩
  have hb : Becomes r r' := by
    rcases ht.back r' hr' with hnew | ⟨r₀, hr₀, hb⟩
    · rcases (ht.inserted r' hnew).2.2.2 with h' | h' <;> simp [h'] at hsup
    · exact (eq_of_becomes hr₀ hr hb hfrozen) ▸ hb
  have hpending : r.status = .pending :=
    StatusStep.pending_of_superseded (hsup ▸ hb.status) hst
  exact ht.overtaken r hr r' hr' hb hpending hsup

theorem Lineage.settled_behind (h : Lineage s) {r o : OutboxRow} (hr : r ∈ s.table)
    (hsent : Sent r) (ho : o ∈ s.enqueued) (hacc : o.status ≠ .failed) (hsib : Sibling o r)
    (hlt : o.enqueueOrder < r.enqueueOrder) :
    (∃ q ∈ s.table, q.frozen = o.frozen ∧ (q.status = .published ∨ q.status = .superseded)) ∨
      ∃ q ∈ s.purged, q.frozen = o.frozen := by
  rcases h.kept o ho with ⟨q, hq | hq, hfrozen⟩
  · have horder := enqueueOrder_of_frozen hfrozen
    have hterm : q.status.isTerminal = true :=
      h.settled r (Or.inl hr) hsent q hq (hsib.of_frozen hfrozen.symm rfl) (by omega)
    have hfailed := h.ne_failed ho hacc (Or.inl hq) hfrozen
    refine Or.inl ⟨q, hq, hfrozen, ?_⟩
    cases hst : q.status <;> simp_all [OutboxStatus.isTerminal]
  · exact Or.inr ⟨q, hq, hfrozen⟩

/-- The newest accepted state of an entity is never discarded.  In every reachable state, for its
newest accepted row: the row is in the table and not `Superseded`, or it was deleted and was
`Published` then.  A step turns a row `Superseded` only if, before it or by the same commit, an
accepted row of the entity was enqueued later.  And when a row is `Publishing` or `Published`, every
accepted row behind it in its entity is `Published`, `Superseded` or purged. -/
theorem newest_state_kept (h : (system message descriptor).Reachable s) :
    (∀ o, Newest s o →
      (∃ r, Committed s r ∧ r.frozen = o.frozen) ∧
      (∀ r ∈ s.table, r.frozen = o.frozen → r.status ≠ .superseded) ∧
      (∀ r ∈ s.purged, r.frozen = o.frozen → r.status = .published)) ∧
    (∀ (a : Action P) (s' : State), next message descriptor s a = some s' →
      ∀ r ∈ s.table, ∀ r' ∈ s'.table, r.frozen = r'.frozen → r.status ≠ .superseded →
        r'.status = .superseded →
          ∃ n, (n ∈ s.table ∨ n ∈ s'.table) ∧ n.status ≠ .failed ∧ Sibling r n ∧
            r.enqueueOrder < n.enqueueOrder) ∧
    (∀ r, Committed s r → r.status = .superseded →
      ∃ o ∈ s.enqueued, o.status ≠ .failed ∧ Sibling r o ∧ r.enqueueOrder < o.enqueueOrder) ∧
    (∀ r ∈ s.table, Sent r → ∀ o ∈ s.enqueued, o.status ≠ .failed → Sibling o r →
      o.enqueueOrder < r.enqueueOrder →
        (∃ q ∈ s.table, q.frozen = o.frozen ∧
          (q.status = .published ∨ q.status = .superseded)) ∨
        ∃ q ∈ s.purged, q.frozen = o.frozen) := by
  have hI := reachable_lineage h
  refine ⟨?_, ?_, hI.overtaken, ?_⟩
  · intro o ho
    refine ⟨hI.kept o ho.1, fun r hr hf => hI.ne_superseded ho (Or.inl hr) hf, ?_⟩
    intro r hr hfrozen
    exact hI.newest_published ho (Or.inr hr) hfrozen (hI.reclaimed r hr)
  · intro a s' hnext r hr r' hr' hfrozen hst hsup
    exact hI.overtaken_next hnext hr hr' hfrozen hst hsup
  · intro r hr hsent o ho hacc hsib hlt
    exact hI.settled_behind hr hsent ho hacc hsib hlt

end Runs

/-- A publish fails after a newer state arrived, and the retry finds both rows pending. -/
def retriedBehindNewer : List (Action Snapshot) :=
  [Snapshot.enqueue 0 1 ⟨"a", "old"⟩, .claim (Snapshot.claim 1 1),
    Snapshot.enqueue 2 2 ⟨"a", "new"⟩, .mark 3 (.publishFailed "timed out" 1) 1 1,
    .claim (Snapshot.claim 4 2), .mark 5 .published 2 2]

theorem newest_state_kept_behind_retry :
    ∃ s, (system Snapshot.message Snapshot.descriptor).run State.initial retriedBehindNewer
        = some s ∧
      s.table.rows.map OutboxRow.status = [.superseded, .published] ∧
      ∀ o, Newest s o → ∀ r ∈ s.table, r.frozen = o.frozen → r.status ≠ .superseded := by
  obtain ⟨s, hrun, hstatuses⟩ : ∃ s, (system Snapshot.message Snapshot.descriptor).run
      State.initial retriedBehindNewer = some s ∧
        s.table.rows.map OutboxRow.status = [.superseded, .published] :=
    TransitionSystem.exists_of_run (by decide +kernel)
  refine ⟨s, hrun, hstatuses, ?_⟩
  intro o ho
  have hreach := TransitionSystem.reachable_of_run (TransitionSystem.Reachable.start rfl) hrun
  exact ((newest_state_kept hreach).1 o ho).2.1

end Outbox
end Kafkaman
