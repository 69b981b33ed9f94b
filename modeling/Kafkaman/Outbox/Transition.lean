import Kafkaman.Outbox.System

/-!
# Outbox.Transition — what one step of the outbox can do

`Transition new s s'` says everything the ordering arguments need to know about a step: which
statuses a row can move between, where the rows of the new table come from, what was deleted, why a
row was superseded, and what a fresh claim implies about the rows behind it.  `next_transition`
proves it for every step.
-/

namespace Kafkaman
namespace Outbox

open Lib

/-! ## Row versions -/

/-- The status changes some statement makes. -/
inductive StatusStep : OutboxStatus → OutboxStatus → Prop where
  | refl (status : OutboxStatus) : StatusStep status status
  | supersede : StatusStep .pending .superseded
  | claim : StatusStep .pending .publishing
  | publish : StatusStep .publishing .published
  | retry : StatusStep .publishing .pending

theorem StatusStep.eq_of_isTerminal {a b : OutboxStatus} (h : StatusStep a b)
    (ha : a.isTerminal = true) : b = a := by
  cases h with
  | refl =>
      rfl
  | supersede | claim | publish | retry =>
      simp [OutboxStatus.isTerminal] at ha

theorem StatusStep.failed_iff {a b : OutboxStatus} (h : StatusStep a b) :
    a = .failed ↔ b = .failed := by
  cases h <;> simp

theorem StatusStep.pending_of_superseded {a : OutboxStatus} (h : StatusStep a .superseded)
    (ha : a ≠ .superseded) : a = .pending := by
  cases h with
  | refl =>
      exact absurd rfl ha
  | supersede =>
      rfl

/-- `r'` is what one step makes of `r`. -/
structure Becomes (r r' : OutboxRow) : Prop where
  frozen : r.frozen = r'.frozen
  status : StatusStep r.status r'.status

theorem Becomes.refl (r : OutboxRow) : Becomes r r :=
  ⟨rfl, StatusStep.refl _⟩

theorem Becomes.supersedeRow {r : OutboxRow} (h : r.status = .pending) :
    Becomes r (supersedeRow r) :=
  ⟨rfl, h ▸ StatusStep.supersede⟩

theorem Becomes.supersedeOvertakenRow {r : OutboxRow} (h : r.status = .pending) :
    Becomes r (supersedeOvertakenRow r) :=
  ⟨rfl, h ▸ StatusStep.supersede⟩

theorem Becomes.claim {args : ClaimArgs} {r : OutboxRow}
    (h : r.status = .pending ∨ r.status = .publishing) : Becomes r (args.claim r) := by
  refine ⟨rfl, ?_⟩
  rcases h with h | h
  · exact h ▸ StatusStep.claim
  · exact h ▸ StatusStep.refl _

theorem Becomes.assign {mark : Mark} {now : Timestamp} {r : OutboxRow}
    (h : r.status = .publishing) : Becomes r (mark.assign now r) := by
  refine ⟨frozen_assign.symm, ?_⟩
  cases mark with
  | published =>
      exact h ▸ StatusStep.publish
  | publishFailed error retryAfter =>
      exact h ▸ StatusStep.retry

theorem eq_of_becomes {t : OutboxTable} {r r₀ r' : OutboxRow} (hr : r ∈ t) (hr₀ : r₀ ∈ t)
    (h : Becomes r r') (hfrozen : r₀.frozen = r'.frozen) : r₀ = r :=
  Table.eq_of_key_eq hr₀ hr (messageId_of_frozen (hfrozen.trans h.frozen.symm))

theorem becomes_ite {p : OutboxRow → Bool} {f : OutboxRow → OutboxRow} {r : OutboxRow}
    (h : p r = true → Becomes r (f r)) : Becomes r (if p r then f r else r) := by
  split
  · rename_i hp
    exact h hp
  · exact Becomes.refl r

/-! ## Claims, row by row -/

section Claim

variable {args : ClaimArgs} {t : OutboxTable}

theorem mem_collapsed_cases {r' : OutboxRow} (h : r' ∈ args.collapsed t) :
    r' ∈ t ∨
      ∃ r ∈ t, r.status = .pending ∧ r' = supersedeOvertakenRow r ∧
        ∃ n ∈ t, n.status = .pending ∧ Sibling r n ∧ r.enqueueOrder < n.enqueueOrder := by
  rcases mem_collapsed.1 h with ⟨r, hr, heq⟩
  split at heq
  · rename_i hover
    rcases newer_of_collapse hover with ⟨hpending, hnewer⟩
    exact Or.inr ⟨r, hr, hpending, heq.symm, hnewer⟩
  · exact Or.inl (heq ▸ hr)

theorem candidate_mem_table {k : OutboxRow} (h : k ∈ args.candidates t) : k ∈ t := by
  rcases mem_candidates h with ⟨hmem, hclaim⟩
  rcases mem_collapsed_cases hmem with hk | ⟨r, -, -, rfl, -⟩
  · exact hk
  · rcases status_of_claimable hclaim with hst | hst <;> cases hst

theorem mem_claimOutcome_cases {r' : OutboxRow} (h : r' ∈ (claimOutcome args t).1) :
    r' ∈ t ∨
      (∃ r ∈ t, r.status = .pending ∧ r' = supersedeOvertakenRow r ∧
        ∃ n ∈ t, n.status ≠ .failed ∧ Sibling r n ∧ r.enqueueOrder < n.enqueueOrder) ∨
      ∃ k ∈ t, k ∈ args.candidates t ∧ r' = args.claim k := by
  have hcollapsed : ∀ {r'}, r' ∈ args.collapsed t → r' ∈ t ∨
      (∃ r ∈ t, r.status = .pending ∧ r' = supersedeOvertakenRow r ∧
        ∃ n ∈ t, n.status ≠ .failed ∧ Sibling r n ∧ r.enqueueOrder < n.enqueueOrder) := by
    intro r' hr'
    rcases mem_collapsed_cases hr' with hmem | ⟨r, hr, hpending, heq, n, hn, hnp, hsib, hlt⟩
    · exact Or.inl hmem
    · exact Or.inr ⟨r, hr, hpending, heq, n, hn, by simp [hnp], hsib, hlt⟩
  rcases mem_claimOutcome_fst.1 h with ⟨hsup, -⟩ | ⟨k, hk, rfl⟩
  · rcases mem_superseded.1 hsup with ⟨r, hr, heq⟩
    split at heq
    · rename_i hover
      rcases newer_of_claim hover with ⟨hpending, n, -, hncand, hsib, hlt⟩
      -- What the collapse superseded is not `Pending` any more and cannot be superseded again.
      have hrt : r ∈ t := by
        rcases mem_collapsed_cases hr with hmem | ⟨r₀, -, -, rfl, -⟩
        · exact hmem
        · cases hpending
      have hnf : n.status ≠ .failed := by
        rcases status_of_claimable (mem_candidates hncand).2 with hst | hst <;> simp [hst]
      exact Or.inr (Or.inl
        ⟨r, hrt, hpending, heq.symm, n, candidate_mem_table hncand, hnf, hsib, hlt⟩)
    · rcases hcollapsed (heq ▸ hr) with hmem | hmem
      · exact Or.inl hmem
      · exact Or.inr (Or.inl hmem)
  · exact Or.inr (Or.inr ⟨k, candidate_mem_table hk, hk, rfl⟩)

theorem exists_becomes_claimOutcome {r : OutboxRow} (hr : r ∈ t) :
    ∃ r' ∈ (claimOutcome args t).1, Becomes r r' := by
  have hstep : ∃ r₁ ∈ args.superseded t, r₁ = r ∨ (r.status = .pending ∧
      r₁ = supersedeOvertakenRow r) := by
    by_cases hover : overtakenBy (collapseWindow args.now args.limit t.rows) r = true
    · have hpending := (newer_of_collapse hover).1
      have hmem : supersedeOvertakenRow r ∈ args.collapsed t :=
        mem_collapsed.2 ⟨r, hr, if_pos hover⟩
      refine ⟨supersedeOvertakenRow r, mem_superseded.2 ⟨_, hmem, ?_⟩,
        Or.inr ⟨hpending, rfl⟩⟩
      split <;> rfl
    · have hmem : r ∈ args.collapsed t := mem_collapsed.2 ⟨r, hr, if_neg hover⟩
      by_cases hclaim : overtakenBy (args.candidates t) r = true
      · exact ⟨_, mem_superseded.2 ⟨r, hmem, if_pos hclaim⟩,
          Or.inr ⟨(newer_of_claim hclaim).1, rfl⟩⟩
      · exact ⟨r, mem_superseded.2 ⟨r, hmem, if_neg hclaim⟩, Or.inl rfl⟩
  rcases hstep with ⟨r₁, hr₁, hcase⟩
  by_cases hk : r₁ ∈ args.candidates t
  · have hst := status_of_claimable (mem_candidates hk).2
    rcases hcase with rfl | ⟨-, rfl⟩
    · exact ⟨_, mem_claimOutcome_fst.2 (Or.inr ⟨r₁, hk, rfl⟩), Becomes.claim hst⟩
    -- A superseded row is never a candidate.
    · rcases hst with hst | hst <;> cases hst
  · refine ⟨r₁, mem_claimOutcome_fst.2 (Or.inl ⟨hr₁, hk⟩), ?_⟩
    rcases hcase with rfl | ⟨hpending, rfl⟩
    · exact Becomes.refl _
    · exact Becomes.supersedeOvertakenRow hpending

/-- A pending row is claimed only when everything behind it in its entity is settled by the same
commit. -/
theorem isTerminal_behind_claimed {k q' : OutboxRow} (hk : k ∈ args.candidates t)
    (hpending : k.status = .pending) (hq' : q' ∈ (claimOutcome args t).1) (hsib : Sibling q' k)
    (hlt : q'.enqueueOrder < k.enqueueOrder) : q'.status.isTerminal = true := by
  rcases mem_candidates hk with ⟨hkmem, hkclaim⟩
  have hfree : ¬ inflight (args.collapsed t).rows k = true := by
    rcases claimable_iff.1 hkclaim with ⟨-, -, hfly, -⟩ | ⟨h, -⟩
    · rcases hfly with hnone | hfly
      · rcases hsib with ⟨e, -, he⟩
        simp [hnone] at he
      · exact hfly
    · simp [hpending] at h
  rcases mem_claimOutcome_fst.1 hq' with ⟨hsup, -⟩ | ⟨k', hk', rfl⟩
  · rcases mem_superseded.1 hsup with ⟨q, hq, heq⟩
    split at heq
    · subst heq
      rfl
    · rename_i hnot
      subst heq
      cases hst : q.status with
      | pending =>
          exact absurd (overtakenBy_iff.2 ⟨hst, k, hk, hsib, hlt⟩) hnot
      | publishing =>
          exact absurd (inflight_iff.2 ⟨q, hq, hsib, hst⟩) hfree
      | published | superseded | failed =>
          rfl
  · -- Two candidates of one entity: the one behind would have been blocked.
    rcases mem_candidates hk' with ⟨hmem', hclaim'⟩
    rcases claimable_iff.1 hclaim' with ⟨-, -, -, hnewer⟩ | ⟨hst, -⟩
    · exact absurd (newerPending_iff.2 ⟨k, hkmem, hsib.symm, hpending, hlt⟩) hnewer
    · exact absurd (inflight_iff.2 ⟨k', hmem', hsib, hst⟩) hfree

end Claim

/-! ## Steps -/

/-- One step from `s` to `s'`, with `new` the row it inserted, if any. -/
structure Transition (new : Option OutboxRow) (s s' : State) : Prop where
  sequence : s.sequence ≤ s'.sequence
  enqueued : s'.enqueued = new.toList ++ s.enqueued
  inserted : ∀ r ∈ new, r ∈ s'.table ∧ r.enqueueOrder = s.sequence ∧ s.sequence < s'.sequence ∧
    (r.status = .pending ∨ r.status = .failed)
  back : ∀ r' ∈ s'.table, r' ∈ new ∨ ∃ r ∈ s.table, Becomes r r'
  forth : ∀ r ∈ s.table, r ∈ s'.purged ∨ ∃ r' ∈ s'.table, Becomes r r'
  purged : ∀ r ∈ s'.purged, r ∈ s.purged ∨ (r ∈ s.table ∧ r.status.isTerminal = true)
  purged_subset : ∀ r ∈ s.purged, r ∈ s'.purged
  /-- Why a row was superseded. -/
  overtaken : ∀ r ∈ s.table, ∀ r' ∈ s'.table, Becomes r r' → r.status = .pending →
    r'.status = .superseded →
      ∃ n, (n ∈ s.table ∨ n ∈ s'.table) ∧ n.status ≠ .failed ∧ Sibling r n ∧
        r.enqueueOrder < n.enqueueOrder
  /-- What a claim implies about the rows behind the claimed one. -/
  settles : ∀ r ∈ s.table, ∀ r' ∈ s'.table, Becomes r r' → r.status = .pending →
    r'.status = .publishing →
      ∀ q' ∈ s'.table, Sibling q' r' → q'.enqueueOrder < r'.enqueueOrder →
        q'.status.isTerminal = true

theorem Transition.ofUnmoved {s s' : State} (h : Unmoved s s') : Transition none s s' := by
  have hsame : ∀ r ∈ s.table, ∀ r' ∈ s'.table, Becomes r r' → r' = r := by
    intro r hr r' hr' hb
    exact eq_of_becomes hr (h.table ▸ hr') hb rfl
  refine
    { sequence := h.sequence
      enqueued := by simp [h.enqueued]
      inserted := by simp
      back := ?_
      forth := ?_
      purged := ?_
      purged_subset := ?_
      overtaken := ?_
      settles := ?_ }
  · intro r' hr'
    exact Or.inr ⟨r', h.table ▸ hr', Becomes.refl r'⟩
  · intro r hr
    exact Or.inr ⟨r, h.table ▸ hr, Becomes.refl r⟩
  · intro r hr
    exact Or.inl (h.purged ▸ hr)
  · intro r hr
    exact h.purged ▸ hr
  · intro r hr r' hr' hb hpending hsup
    rw [hsame r hr r' hr' hb, hpending] at hsup
    cases hsup
  · intro r hr r' hr' hb hpending hpub
    rw [hsame r hr r' hr' hb, hpending] at hpub
    cases hpub

theorem overtakes_iff {insert : InsertOutboxRow} {visible : Uuid → Bool} {r : OutboxRow} :
    insert.overtakes visible r = true ↔
      insert.idempotencyKey.isSome = true ∧ visible r.messageId = true ∧
        r.entityKey = some insert.entityKey ∧ r.status = .pending := by
  simp [InsertOutboxRow.overtakes, supersedes, and_assoc]

section Insert

variable {s : State} {now : Timestamp} {insert : InsertOutboxRow} {visible : Uuid → Bool}

theorem becomes_overtaken (r : OutboxRow) :
    Becomes r (if insert.overtakes visible r then supersedeRow r else r) :=
  becomes_ite fun h => Becomes.supersedeRow (overtakes_iff.1 h).2.2.2

theorem version_commitInsert (hkey : ¬ s.table.HasKey insert.messageId) {r r' : OutboxRow}
    (hr : r ∈ s.table) (hr' : r' ∈ (commitInsert s now insert visible).table) (hb : Becomes r r') :
    r' = if insert.overtakes visible r then supersedeRow r else r := by
  rcases (mem_enqueueInner hkey).1 hr' with ⟨r₀, hr₀, heq⟩ | rfl
  · have heq₀ : r₀ = r := eq_of_becomes hr hr₀ hb (heq ▸ becomes_overtaken r₀).frozen
    exact heq₀ ▸ heq.symm
  · -- The new row has a key of its own.
    exact absurd ⟨r, hr, (messageId_of_frozen hb.frozen).trans messageId_inserted⟩ hkey

theorem mem_table_of_commitInsert (hkey : ¬ s.table.HasKey insert.messageId) {r' : OutboxRow}
    (hr' : r' ∈ (commitInsert s now insert visible).table)
    (hst : r'.status = .publishing ∨ r'.status = .published) : r' ∈ s.table := by
  rcases (mem_enqueueInner hkey).1 hr' with ⟨r, hr, heq⟩ | rfl
  · split at heq
    · subst heq
      rcases hst with hst | hst <;> cases hst
    · exact heq ▸ hr
  · rw [status_inserted] at hst
    split at hst <;> rcases hst with hst | hst <;> cases hst

theorem overtaken_commitInsert (hfresh : ∀ r ∈ s.table, r.enqueueOrder < s.sequence)
    (hkey : ¬ s.table.HasKey insert.messageId) {r : OutboxRow} (hr : r ∈ s.table)
    (h : insert.overtakes visible r = true) :
    ∃ n ∈ (commitInsert s now insert visible).table, n.status ≠ .failed ∧ Sibling r n ∧
      r.enqueueOrder < n.enqueueOrder := by
  rcases overtakes_iff.1 h with ⟨hsome, -, hentity, -⟩
  refine ⟨insert.inserted now s.sequence, (mem_enqueueInner hkey).2 (Or.inr rfl), ?_,
    ⟨insert.entityKey, hentity, entityKey_inserted⟩, ?_⟩
  · simp [status_inserted, hsome]
  · simpa using hfresh r hr

theorem transition_commitInsert (hfresh : ∀ r ∈ s.table, r.enqueueOrder < s.sequence)
    (hkey : ¬ s.table.HasKey insert.messageId) :
    Transition (some (insert.inserted now s.sequence)) s (commitInsert s now insert visible) := by
  refine
    { sequence := Nat.le_succ _
      enqueued := by simp [commitInsert, hkey]
      inserted := ?_
      back := ?_
      forth := ?_
      purged := fun r hr => Or.inl hr
      purged_subset := fun r hr => hr
      overtaken := ?_
      settles := ?_ }
  · intro r hr
    have hr : insert.inserted now s.sequence = r := by simpa using hr
    subst hr
    refine ⟨(mem_enqueueInner hkey).2 (Or.inr rfl), enqueueOrder_inserted, Nat.lt_succ_self _, ?_⟩
    rw [status_inserted]
    split
    · exact Or.inl rfl
    · exact Or.inr rfl
  · intro r' hr'
    rcases (mem_enqueueInner hkey).1 hr' with ⟨r₀, hr₀, heq⟩ | hnew
    · exact Or.inr ⟨r₀, hr₀, heq ▸ becomes_overtaken r₀⟩
    · exact Or.inl (by simp [hnew])
  · intro r hr
    exact Or.inr ⟨_, (mem_enqueueInner hkey).2 (Or.inl ⟨r, hr, rfl⟩), becomes_overtaken r⟩
  · intro r hr r' hr' hb hpending hsup
    -- The only rows that this supersedes are the pending ones that the new row overtakes.
    rw [version_commitInsert hkey hr hr' hb] at hsup
    split at hsup
    · rename_i hover
      rcases overtaken_commitInsert hfresh hkey hr hover with ⟨n, hn, hrest⟩
      exact ⟨n, Or.inr hn, hrest⟩
    · simp [hpending] at hsup
  · intro r hr r' hr' hb hpending hpub
    rw [version_commitInsert hkey hr hr' hb] at hpub
    split at hpub
    · cases hpub
    · simp [hpending] at hpub

end Insert

theorem transition_commitClaim (s : State) (args : ClaimArgs) :
    Transition none s (commitClaim s args) := by
  have hcases := @mem_claimOutcome_cases args s.table
  refine
    { sequence := Nat.le_refl _
      enqueued := rfl
      inserted := by simp
      back := ?_
      forth := fun r hr => Or.inr (exists_becomes_claimOutcome hr)
      purged := fun r hr => Or.inl hr
      purged_subset := fun r hr => hr
      overtaken := ?_
      settles := ?_ }
  · intro r' hr'
    rcases hcases hr' with hr | ⟨r, hr, hpending, rfl, -⟩ | ⟨k, hk, hcand, rfl⟩
    · exact Or.inr ⟨r', hr, Becomes.refl r'⟩
    · exact Or.inr ⟨r, hr, Becomes.supersedeOvertakenRow hpending⟩
    · exact Or.inr ⟨k, hk, Becomes.claim (status_of_claimable (mem_candidates hcand).2)⟩
  · intro r hr r' hr' hb hpending hsup
    rcases hcases hr' with hmem | ⟨r₀, hr₀, -, rfl, n, hn, hnf, hsib, hlt⟩ | ⟨k, -, -, rfl⟩
    · have heq := eq_of_becomes hr hmem hb rfl
      simp [heq, hpending] at hsup
    · have heq := eq_of_becomes hr hr₀ hb rfl
      exact ⟨n, Or.inl hn, hnf, heq ▸ hsib, heq ▸ hlt⟩
    · cases hsup
  · intro r hr r' hr' hb hpending hpub q' hq' hsib hlt
    rcases hcases hr' with hmem | ⟨r₀, -, -, rfl, -⟩ | ⟨k, hk, hcand, rfl⟩
    · have heq := eq_of_becomes hr hmem hb rfl
      simp [heq, hpending] at hpub
    · cases hpub
    -- Whatever stood behind the claimed row has been superseded by this claim or was settled.
    · have heq := eq_of_becomes hr hk hb rfl
      exact isTerminal_behind_claimed hcand (heq ▸ hpending) hq' hsib hlt

theorem transition_commitMark (s : State) (now : Timestamp) (mark : Mark)
    (messageId claimId : Uuid) :
    Transition none s (commitMark s now mark messageId claimId) := by
  have hmem : ∀ {r'}, r' ∈ (commitMark s now mark messageId claimId).table ↔
      ∃ r ∈ s.table, (if fenced messageId claimId r then mark.assign now r else r) = r' :=
    mem_markUpdate
  have hbecomes : ∀ r, Becomes r (if fenced messageId claimId r then mark.assign now r else r) :=
    fun r => becomes_ite fun h => Becomes.assign (fenced_iff.1 h).2.1
  -- A mark acts on publishing rows only, so a pending row is its own next version.
  have hpendingSame : ∀ r ∈ s.table, ∀ r' ∈ (commitMark s now mark messageId claimId).table,
      Becomes r r' → r.status = .pending → r' = r := by
    intro r hr r' hr' hb hpending
    rcases hmem.1 hr' with ⟨r₀, hr₀, heq⟩
    have heq₀ : r₀ = r := eq_of_becomes hr hr₀ hb (heq ▸ hbecomes r₀).frozen
    subst heq₀
    split at heq
    · rename_i h
      simp [(fenced_iff.1 h).2.1] at hpending
    · exact heq.symm
  refine
    { sequence := Nat.le_refl _
      enqueued := rfl
      inserted := by simp
      back := ?_
      forth := fun r hr => Or.inr ⟨_, hmem.2 ⟨r, hr, rfl⟩, hbecomes r⟩
      purged := fun r hr => Or.inl hr
      purged_subset := fun r hr => hr
      overtaken := ?_
      settles := ?_ }
  · intro r' hr'
    rcases hmem.1 hr' with ⟨r, hr, heq⟩
    exact Or.inr ⟨r, hr, heq ▸ hbecomes r⟩
  · intro r hr r' hr' hb hpending hsup
    simp [hpendingSame r hr r' hr' hb hpending, hpending] at hsup
  · intro r hr r' hr' hb hpending hpub
    simp [hpendingSame r hr r' hr' hb hpending, hpending] at hpub

theorem transition_swept (s : State) (now : Timestamp) (cfg : PurgeConfig)
    (locked : Uuid → Bool) :
    Transition none s
      { s with
        table := s.table.deleteWhere (victimOf (purgeVictims now cfg locked s.table.rows))
        purged := s.table.rows.filter (victimOf (purgeVictims now cfg locked s.table.rows))
          ++ s.purged } := by
  have hsame : ∀ r ∈ s.table,
      ∀ r' ∈ s.table.deleteWhere (victimOf (purgeVictims now cfg locked s.table.rows)),
        Becomes r r' → r' = r := by
    intro r hr r' hr' hb
    exact eq_of_becomes hr (Table.mem_deleteWhere.1 hr').1 hb rfl
  refine
    { sequence := Nat.le_refl _
      enqueued := rfl
      inserted := by simp
      back := ?_
      forth := ?_
      purged := ?_
      purged_subset := fun r hr => List.mem_append_right _ hr
      overtaken := ?_
      settles := ?_ }
  · intro r' hr'
    exact Or.inr ⟨r', (Table.mem_deleteWhere.1 hr').1, Becomes.refl r'⟩
  · intro r hr
    -- A victim is recorded as purged, any other row is still there.
    by_cases hv : victimOf (purgeVictims now cfg locked s.table.rows) r = true
    · exact Or.inl (List.mem_append_left _ (List.mem_filter.2 ⟨hr, hv⟩))
    · refine Or.inr ⟨r, Table.mem_deleteWhere.2 ⟨hr, ?_⟩, Becomes.refl r⟩
      simpa using hv
  · intro r hr
    rcases List.mem_append.1 hr with hr | hr
    · rcases List.mem_filter.1 hr with ⟨hmem, hv⟩
      exact Or.inr ⟨hmem, isTerminal_of_reclaimable (reclaimable_of_victimOf hmem hv)⟩
    · exact Or.inl hr
  · intro r hr r' hr' hb hpending hsup
    simp [hsame r hr r' hr' hb, hpending] at hsup
  · intro r hr r' hr' hb hpending hpub
    simp [hsame r hr r' hr' hb, hpending] at hpub

/-- Every step is a transition, as long as the sequence is ahead of the table. -/
theorem next_transition {P : Type} {message : KafkaMessage P} {descriptor : MessageDescriptor}
    {s s' : State} {a : Action P} (hfresh : ∀ r ∈ s.table, r.enqueueOrder < s.sequence)
    (h : next message descriptor s a = some s') : ∃ new, Transition new s s' := by
  cases step_of_next h with
  | unmoved hsame =>
      exact ⟨none, Transition.ofUnmoved hsame⟩
  | inserted _ hkey =>
      exact ⟨_, transition_commitInsert hfresh hkey⟩
  | claimed _ =>
      exact ⟨none, transition_commitClaim s _⟩
  | marked _ =>
      exact ⟨none, transition_commitMark s _ _ _ _⟩
  | swept =>
      exact ⟨none, transition_swept s _ _ _⟩

end Outbox
end Kafkaman
