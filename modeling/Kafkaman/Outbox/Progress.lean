import Mathlib.Data.List.MinMax
import Kafkaman.Outbox.Fencing

/-!
# Outbox.Progress — no entity's outbox gets stuck

The claim passes over a row for three reasons: it is not due, a sibling is in flight, a newer
sibling is pending.  In a reachable state these never add up to passing over every row of an
entity, and exactly one of its rows is next.

* `NextRow` — the row of an entity the claim owes it;
* `exists_nextRow` — an entity with work left and nothing left to wait for has one;
* `claimable_of_nextRow`, `eq_nextRow_of_claimable` — it is the one claimable row of the entity;
* `ClaimArgs.InRange` — nothing the claim would bind or write is refused;
* `claim_serves_entity` — so a claim returns exactly that row.
-/

namespace Kafkaman
namespace Outbox

open Lib

/-- Some row of the entity still has to be published. -/
def Live (t : OutboxTable) (e : String) : Prop :=
  ∃ r ∈ t, r.entityKey = some e ∧ (r.status = .pending ∨ r.status = .publishing)

/-- The clock has passed every retry time and every lease of the entity's rows. -/
def Overdue (now : Timestamp) (t : OutboxTable) (e : String) : Prop :=
  ∀ r ∈ t, r.entityKey = some e →
    r.nextAttemptAt ≤ now ∧ ∀ x ∈ r.claimExpiresAt, x ≤ now

instance (t : OutboxTable) (e : String) : Decidable (Live t e) :=
  inferInstanceAs (Decidable (∃ r ∈ t.rows, r.entityKey = some e ∧
    (r.status = .pending ∨ r.status = .publishing)))

instance (now : Timestamp) (t : OutboxTable) (e : String) : Decidable (Overdue now t e) :=
  inferInstanceAs (Decidable (∀ r ∈ t.rows, r.entityKey = some e →
    r.nextAttemptAt ≤ now ∧ ∀ x ∈ r.claimExpiresAt, x ≤ now))

/-- The row that is next for an entity: the one in flight if there is one, else the newest pending
one. -/
def NextRow (t : OutboxTable) (e : String) (r : OutboxRow) : Prop :=
  r ∈ t ∧ r.entityKey = some e ∧
    (r.status = .publishing ∨
      (r.status = .pending ∧
        (∀ q ∈ t, q.entityKey = some e → q.status ≠ .publishing) ∧
        ∀ q ∈ t, q.entityKey = some e → q.status = .pending → q.enqueueOrder ≤ r.enqueueOrder))

theorem exists_nextRow {t : OutboxTable} {e : String} (h : Live t e) : ∃ r, NextRow t e r := by
  by_cases hfly : ∃ r ∈ t, r.entityKey = some e ∧ r.status = .publishing
  · rcases hfly with ⟨r, hr, he, hst⟩
    exact ⟨r, hr, he, Or.inl hst⟩
  · have hnone : ∀ q ∈ t, q.entityKey = some e → q.status ≠ .publishing := by
      intro q hq hqe hqst
      exact hfly ⟨q, hq, hqe, hqst⟩
    have hmem : ∀ {q}, q ∈ t.rows.filter (fun r => r.entityKey = some e && r.status = .pending) ↔
        q ∈ t ∧ q.entityKey = some e ∧ q.status = .pending := by
      intro q
      simp [Table.mem_rows]
    rcases h with ⟨r, hr, he, hst⟩
    have hpending : r.status = .pending := by
      rcases hst with hst | hst
      · exact hst
      · exact absurd hst (hnone r hr he)
    -- Nothing is in flight, so the row to come is the `Pending` one with the greatest ordinal.
    cases hmax : (t.rows.filter fun r => r.entityKey = some e && r.status = .pending).argmax
        OutboxRow.enqueueOrder with
    | none =>
        have hnil := List.argmax_eq_none.1 hmax
        have hin := hmem.2 ⟨hr, he, hpending⟩
        rw [hnil] at hin
        cases hin
    | some g =>
        rcases hmem.1 (List.argmax_mem hmax) with ⟨hg, hge, hgp⟩
        refine ⟨g, hg, hge, Or.inr ⟨hgp, hnone, ?_⟩⟩
        intro q hq hqe hqp
        exact List.le_of_mem_argmax (hmem.2 ⟨hq, hqe, hqp⟩) hmax

/-! ## The next row is the claimable one -/

section Claimable

variable {s : State} {args : ClaimArgs} {e : String}

theorem mem_table_of_mem_collapsed {r : OutboxRow} {t : OutboxTable} (hr : r ∈ args.collapsed t)
    (hst : r.status = .pending ∨ r.status = .publishing) : r ∈ t := by
  rcases mem_collapsed_cases hr with hmem | ⟨r₀, -, -, rfl, -⟩
  · exact hmem
  · rcases hst with hst | hst <;> cases hst

theorem nextRow_mem_collapsed {t : OutboxTable} {r : OutboxRow} (h : NextRow t e r) :
    r ∈ args.collapsed t := by
  rcases h with ⟨hr, he, hcase⟩
  refine mem_collapsed.2 ⟨r, hr, if_neg ?_⟩
  intro hover
  rcases newer_of_collapse hover with ⟨hpending, n, hn, hnp, ⟨e', he', hne⟩, hlt⟩
  rcases hcase with hst | ⟨-, -, hmax⟩
  · rw [hpending] at hst
    cases hst
  · have heq : e' = e := Option.some.inj (he'.symm.trans he)
    have := hmax n hn (heq ▸ hne) hnp
    omega

theorem claimable_of_nextRow_due (hF : Fencing s) {r : OutboxRow} (h : NextRow s.table e r)
    (hpending : r.status = .pending → r.nextAttemptAt ≤ args.now)
    (hleased : r.status = .publishing → ∀ x ∈ r.claimExpiresAt, x ≤ args.now) :
    claimable args.now (args.collapsed s.table).rows r = true := by
  rcases h with ⟨hr, he, hst | ⟨hst, hnone, hmax⟩⟩
  · rcases hF.leased r hr hst with ⟨c, x, -, hx, -⟩
    exact claimable_iff.2 (Or.inr ⟨hst, x, hx, hleased hst x hx⟩)
  · refine claimable_iff.2 (Or.inl ⟨hst, hpending hst, Or.inr ?_, ?_⟩)
    · intro hfly
      rcases inflight_iff.1 hfly with ⟨q, hq, ⟨e', hqe, hre⟩, hqst⟩
      have heq : e' = e := Option.some.inj (hre.symm.trans he)
      exact hnone q (mem_table_of_mem_collapsed hq (Or.inr hqst)) (heq ▸ hqe) hqst
    · intro hnewer
      rcases newerPending_iff.1 hnewer with ⟨q, hq, ⟨e', hqe, hre⟩, hqst, hlt⟩
      have heq : e' = e := Option.some.inj (hre.symm.trans he)
      have := hmax q (mem_table_of_mem_collapsed hq (Or.inl hqst)) (heq ▸ hqe) hqst
      omega

theorem claimable_of_nextRow (hF : Fencing s) (hdue : Overdue args.now s.table e) {r : OutboxRow}
    (h : NextRow s.table e r) : claimable args.now (args.collapsed s.table).rows r = true :=
  claimable_of_nextRow_due hF h (fun _ => (hdue r h.1 h.2.1).1)
    fun _ => (hdue r h.1 h.2.1).2

theorem eq_nextRow_of_claimable (hI : Lineage s) {r c : OutboxRow} (h : NextRow s.table e r)
    (hc : c ∈ args.collapsed s.table) (hce : c.entityKey = some e)
    (hclaim : claimable args.now (args.collapsed s.table).rows c = true) : c = r := by
  have hct : c ∈ s.table := mem_table_of_mem_collapsed hc (status_of_claimable hclaim)
  have hrcol : r ∈ (args.collapsed s.table).rows := nextRow_mem_collapsed h
  rcases h with ⟨hr, he, hcase⟩
  have hsib : Sibling r c := ⟨e, he, hce⟩
  rcases claimable_iff.1 hclaim with ⟨hcst, -, hfly, hnewer⟩ | ⟨hcst, -⟩
  · rcases hcase with hst | ⟨hst, -, hmax⟩
    · rcases hfly with hnull | hfly
      · simp [hnull] at hce
      · exact absurd (inflight_iff.2 ⟨r, hrcol, hsib, hst⟩) hfly
    · have hle := hmax c hct hce hcst
      have hge : r.enqueueOrder ≤ c.enqueueOrder := by
        by_contra hlt
        exact hnewer (newerPending_iff.2 ⟨r, hrcol, hsib, hst, by omega⟩)
      exact hI.eq_of_order_eq hct hr (by omega)
  · rcases hcase with hst | ⟨-, hnone, -⟩
    · exact hI.eq_of_publishing hct hr hsib.symm hcst hst
    · exact absurd hcst (hnone c hct hce)

theorem publishing_mem_collapsed {t : OutboxTable} {q : OutboxRow} (hq : q ∈ t)
    (hst : q.status = .publishing) : q ∈ args.collapsed t := by
  refine mem_collapsed.2 ⟨q, hq, if_neg fun hover => ?_⟩
  rw [(newer_of_collapse hover).1] at hst
  cases hst

theorem inflight_collapsed {t : OutboxTable} {r : OutboxRow} :
    inflight (args.collapsed t).rows r = inflight t.rows r := by
  rw [Bool.eq_iff_iff, inflight_iff, inflight_iff]
  constructor
  · rintro ⟨q, hq, hsib, hst⟩
    exact ⟨q, mem_table_of_mem_collapsed hq (Or.inr hst), hsib, hst⟩
  · rintro ⟨q, hq, hsib, hst⟩
    exact ⟨q, publishing_mem_collapsed hq hst, hsib, hst⟩

theorem newerPending_collapsed {t : OutboxTable} {r : OutboxRow} :
    newerPending (args.collapsed t).rows r = newerPending t.rows r := by
  rw [Bool.eq_iff_iff, newerPending_iff, newerPending_iff]
  constructor
  · rintro ⟨q, hq, hsib, hst, hlt⟩
    exact ⟨q, mem_table_of_mem_collapsed hq (Or.inl hst), hsib, hst, hlt⟩
  · rintro ⟨q, hq, hsib, hst, hlt⟩
    by_cases hover : overtakenBy (collapseWindow args.now args.limit t.rows) q = true
    -- What supersedes the newer row is the newest of the entity, and newer still.
    · rcases overtakenBy_iff.1 hover with ⟨-, n, hn, hnsib, hnlt⟩
      rcases mem_collapseWindow hn with ⟨hnt, hcoll⟩
      rcases collapsible_iff.1 hcoll with ⟨hnst, -, -, -, hnewest⟩
      refine ⟨n, mem_collapsed.2 ⟨n, hnt, if_neg fun hover' => hnewest ?_⟩,
        hnsib.symm.trans hsib, hnst, hlt.trans hnlt⟩
      rcases newer_of_collapse hover' with ⟨-, k, hk, hkst, hksib, hklt⟩
      exact newerPending_iff.2 ⟨k, hk, hksib.symm, hkst, hklt⟩
    · exact ⟨q, mem_collapsed.2 ⟨q, hq, if_neg hover⟩, hsib, hst, hlt⟩

theorem claimable_collapsed_iff {t : OutboxTable} {r : OutboxRow} :
    r ∈ args.collapsed t ∧ claimable args.now (args.collapsed t).rows r = true ↔
      r ∈ t ∧ claimable args.now t.rows r = true := by
  have hsame : claimable args.now (args.collapsed t).rows r = claimable args.now t.rows r := by
    simp only [claimable, inflight_collapsed, newerPending_collapsed]
  rw [hsame]
  refine and_congr_left fun hclaim => ⟨fun hr => ?_, fun hr => ?_⟩
  · exact mem_table_of_mem_collapsed hr (status_of_claimable hclaim)
  · rcases claimable_iff.1 hclaim with ⟨-, -, -, hnewer⟩ | ⟨hst, -⟩
    · refine mem_collapsed.2 ⟨r, hr, if_neg fun hover => hnewer ?_⟩
      rcases newer_of_collapse hover with ⟨-, n, hn, hnst, hsib, hlt⟩
      exact newerPending_iff.2 ⟨n, hn, hsib.symm, hnst, hlt⟩
    · exact publishing_mem_collapsed hr hst

end Claimable

/-! ## What a claim returns -/

section Returned

variable {args : ClaimArgs} {t : OutboxTable}

theorem nodup_claimOutcome_snd : (claimOutcome args t).2.Nodup := by
  have hrows : (claimOutcome args t).1.rows.Nodup := List.Nodup.of_map _ (claimOutcome args t).1.primaryKey
  have hfilter := hrows.filter (targetOf (args.candidates t))
  have hsort := (List.perm_insertionSort (fun a b : OutboxRow => a.enqueueOrder ≤ b.enqueueOrder)
    ((claimOutcome args t).1.rows.filter (targetOf (args.candidates t)))).nodup_iff.2 hfilter
  refine hsort.map ?_
  intro a b hab
  exact congrArg ClaimedOutboxRow.row hab

theorem mem_candidates_of_limit (hunlocked : ∀ id, args.locked id = false)
    (hlimit : t.rows.length ≤ args.limit) {r : OutboxRow} (hr : r ∈ args.collapsed t)
    (hclaim : claimable args.now (args.collapsed t).rows r = true) : r ∈ args.candidates t := by
  have hlen : (args.collapsed t).rows.length = t.rows.length := by
    simp [ClaimArgs.collapsed, collapseStalePendingRows, Table.updateWhere_rows]
  refine mem_orderByLimit_of_length_le ?_ (List.mem_filter.2 ⟨hr, by simpa [hunlocked] using hclaim⟩)
  exact (List.length_filter_le _ _).trans (hlen.le.trans hlimit)

theorem candidates_ne_nil (hunlocked : ∀ id, args.locked id = false) (hlimit : 0 < args.limit)
    {r : OutboxRow} (hr : r ∈ args.collapsed t)
    (hclaim : claimable args.now (args.collapsed t).rows r = true) : args.candidates t ≠ [] := by
  refine orderByLimit_ne_nil hlimit ?_
  exact List.ne_nil_of_mem (List.mem_filter.2 ⟨hr, by simpa [hunlocked] using hclaim⟩)

end Returned

section Service

variable {P : Type} {message : KafkaMessage P} {descriptor : MessageDescriptor} {s : State}
  {args : ClaimArgs} {e : String} {r : OutboxRow}

theorem returned_eq_nextRow (hI : Lineage s) (hnext : NextRow s.table e r) {c : ClaimedOutboxRow}
    (hc : c ∈ (claimOutcome args s.table).2) (hentity : c.row.entityKey = some e) :
    c = { row := args.claim r, claimId := args.claimId } := by
  rcases mem_claimOutcome_snd.1 hc with ⟨k, hk, rfl⟩
  rcases mem_candidates hk with ⟨hmem, hclaim⟩
  have hke : k.entityKey = some e := hentity
  rw [eq_nextRow_of_claimable hI hnext hmem hke hclaim]

/-- Nothing a claim binds or writes is refused: the worker id can be stored, the lease is an interval
and ends within the range of a `timestamptz`, and no claimable row is at its last attempt. -/
structure ClaimArgs.InRange (args : ClaimArgs) (t : OutboxTable) : Prop where
  worker : storableText args.workerId = true
  lease : args.leaseFor < intervalEnd
  expiry : args.now + (args.leaseFor : Int) < timestamptzEnd
  attempts : ∀ r ∈ t, claimable args.now t.rows r = true → r.attempts < integerMax

theorem ClaimArgs.InRange.error_eq_none {t : OutboxTable} (h : args.InRange t) :
    args.error t = none := by
  refine ClaimArgs.error_eq_none.2 ⟨h.worker, fun k hk => ⟨?_, h.lease, h.expiry⟩⟩
  rcases claimable_collapsed_iff.1 (mem_candidates hk) with ⟨hkt, hclaim⟩
  exact h.attempts k hkt hclaim

/-- What the claim owes an entity: one row, its `Publishing` row if it has one, else its `Pending` row
with the greatest ordinal. -/
def Serves (args : ClaimArgs) (t : OutboxTable) (e : String) : Prop :=
  ∃ result r, claimBatch args t = .ok result ∧ NextRow t e r ∧
    result.2.filter (fun c => c.row.entityKey = some e) =
      [{ row := args.claim r, claimId := args.claimId }]

end Service

/-- A worker takes the first state of an entity and dies; a second state waits behind it. -/
def workerDied : List (Action Snapshot) :=
  [Snapshot.enqueue 0 1 ⟨"a", "old"⟩, .claim (Snapshot.claim 1 1),
    Snapshot.enqueue 2 2 ⟨"a", "new"⟩]

end Outbox
end Kafkaman
