import Kafkaman.Outbox.Statement
import Kafkaman.Outbox.System

/-!
# Outbox.InFlight — one publishing row per entity, statement by statement

The claim asks whether a row of the entity is being published, and asks it of committed rows.  A
claim that another relay has under way but not committed is invisible to it.  That does no harm as
long as the entity has no other pending row: the row under way is locked, and passed over.  It does
when a pending row of the entity is committed between the two statements of a claim by an enqueuer
that did not see its predecessor.

* `Numbered` — the sequence numbers of committed and uncommitted rows;
* `Held` — what a claim under way may rely on;
* `Single` — at most one row per entity is in flight, claims under way included;
* `one_publishing_per_entity` — the law, under `Solitary`.
-/

namespace Kafkaman
namespace Outbox
namespace Statement

open Lib

variable {m n : Nat}

/-! ## Sequence numbers -/

/-- Who holds a sequence number: a committed row, or an enqueuer for the row it has inserted. -/
def Owns (s : State m n) : Uuid ⊕ Fin m → Nat → Prop
  | .inl id, order => ∃ r ∈ s.table, r.messageId = id ∧ r.enqueueOrder = order
  | .inr j, order => ∃ row, (s.enqueuers j).row? = some row ∧ row.enqueueOrder = order

structure Numbered (s : State m n) : Prop where
  bounded : ∀ owner order, Owns s owner order → order < s.sequence
  unique : ∀ owner owner' order, Owns s owner order → Owns s owner' order → owner = owner'

section Numbers

variable {s s' : State m n}

theorem Numbered.enqueueOrder_injOn (h : Numbered s) {r r' : OutboxRow} (hr : r ∈ s.table)
    (hr' : r' ∈ s.table) (heq : r.enqueueOrder = r'.enqueueOrder) : r = r' := by
  have hown : Sum.inl r.messageId = Sum.inl r'.messageId :=
    h.unique _ _ r.enqueueOrder ⟨r, hr, rfl, rfl⟩ ⟨r', hr', rfl, heq.symm⟩
  exact Table.eq_of_key_eq hr hr' (Sum.inl.inj hown)

theorem Numbered.mono (h : Numbered s) (hseq : s'.sequence = s.sequence)
    (howns : ∀ owner order, Owns s' owner order → Owns s owner order) : Numbered s' := by
  refine
    { bounded := ?_
      unique := ?_ }
  · intro owner order ho
    rw [hseq]
    exact h.bounded owner order (howns _ _ ho)
  · intro owner owner' order ho ho'
    exact h.unique owner owner' order (howns _ _ ho) (howns _ _ ho')

theorem owns_of_commits {claims : List OutboxRow} {t' : OutboxTable} {id : Uuid} {order : Nat}
    {fresh : Option OutboxRow} (h : Commits claims fresh s.table t')
    (hown : ∃ r ∈ t', r.messageId = id ∧ r.enqueueOrder = order) :
    Owns s (.inl id) order ∨
      ∃ row, fresh = some row ∧ row.messageId = id ∧ row.enqueueOrder = order := by
  rcases hown with ⟨r', hr', hid, horder⟩
  rcases h.origin r' hr' with ⟨r, hr, hrw⟩ | hfresh
  · exact Or.inl ⟨r, hr, (messageId_of_frozen hrw.frozen).trans hid,
      (enqueueOrder_of_frozen hrw.frozen).trans horder⟩
  · exact Or.inr ⟨r', hfresh, hid, horder⟩

theorem Numbered.of_commits {claims : List OutboxRow} (h : Numbered s)
    (hcommit : Commits claims none s.table s'.table) (henq : s'.enqueuers = s.enqueuers)
    (hseq : s'.sequence = s.sequence) : Numbered s' := by
  refine h.mono hseq fun owner order ho => ?_
  cases owner with
  | inl id =>
      rcases owns_of_commits hcommit ho with hold | ⟨row, hnone, -⟩
      · exact hold
      · cases hnone
  | inr j =>
      rcases ho with ⟨row, hrow, horder⟩
      exact ⟨row, henq ▸ hrow, horder⟩

theorem Numbered.issue (h : Numbered s) (fresh : Uuid ⊕ Fin m)
    (hseq : s'.sequence = s.sequence + 1)
    (howns : ∀ owner order, Owns s' owner order →
      Owns s owner order ∨ owner = fresh ∧ order = s.sequence) : Numbered s' := by
  refine
    { bounded := ?_
      unique := ?_ }
  · intro owner order ho
    rw [hseq]
    rcases howns owner order ho with hold | ⟨-, hnew⟩
    · exact Nat.lt_succ_of_lt (h.bounded owner order hold)
    · exact hnew ▸ Nat.lt_succ_self _
  · intro owner owner' order ho ho'
    rcases howns owner order ho with hold | ⟨hfresh, hnew⟩ <;>
      rcases howns owner' order ho' with hold' | ⟨hfresh', hnew'⟩
    · exact h.unique owner owner' order hold hold'
    · exact absurd (h.bounded owner order hold) (by omega)
    · exact absurd (h.bounded owner' order hold') (by omega)
    · rw [hfresh, hfresh']

theorem Numbered.handOver (h : Numbered s) (giver taker : Uuid ⊕ Fin m)
    (hseq : s'.sequence = s.sequence)
    (howns : ∀ owner order, Owns s' owner order →
      (Owns s owner order ∧ owner ≠ giver) ∨ owner = taker ∧ Owns s giver order) :
    Numbered s' := by
  refine
    { bounded := ?_
      unique := ?_ }
  · intro owner order ho
    rw [hseq]
    rcases howns owner order ho with ⟨hold, -⟩ | ⟨-, hold⟩
    · exact h.bounded _ order hold
    · exact h.bounded _ order hold
  · intro owner owner' order ho ho'
    rcases howns owner order ho with ⟨hold, hne⟩ | ⟨htaker, hold⟩ <;>
      rcases howns owner' order ho' with ⟨hold', hne'⟩ | ⟨htaker', hold'⟩
    · exact h.unique owner owner' order hold hold'
    · exact absurd (h.unique owner _ order hold hold') hne
    · exact absurd (h.unique owner' _ order hold' hold) hne'
    · rw [htaker, htaker']

theorem numbered_step {a : Action m n} (h : Numbered s) (hstep : Step s a s') : Numbered s' := by
  cases hstep with
  | relay i phase _ _ hs' =>
      subst hs'
      exact h.of_commits (Commits.refl [] s.table) rfl rfl
  | select i args window remaining superseded _ _ hs' =>
      subst hs'
      exact h.of_commits (Commits.refl [] s.table) rfl rfl
  | claimed i hcommit _ henq hseq =>
      exact h.of_commits hcommit henq hseq
  | marked hcommit _ henq hseq =>
      exact h.of_commits hcommit henq hseq
  | enqueuer j phase hrow hs' =>
      subst hs'
      refine h.mono rfl fun owner order ho => ?_
      cases owner with
      | inl id => exact ho
      | inr k =>
          rcases ho with ⟨row, hk, horder⟩
          simp only [State.setEnqueuer, Function.update_apply] at hk
          split at hk
          · rw [hrow] at hk
            cases hk
          · exact ⟨row, hk, horder⟩
  | inserted j row superseded horder _ henq htable _ hseq =>
      refine h.issue (.inr j) hseq fun owner order ho => ?_
      cases owner with
      | inl id =>
          rcases ho with ⟨r, hr, hkey⟩
          exact Or.inl ⟨r, htable ▸ hr, hkey⟩
      | inr k =>
          rcases ho with ⟨row', hk, horder'⟩
          rw [henq, Function.update_apply] at hk
          split at hk
          · rename_i hkj
            cases hk
            exact Or.inr ⟨by rw [hkj], horder'.symm.trans horder⟩
          · exact Or.inl ⟨row', hk, horder'⟩
  | enqueued j row hrow hcommit henq _ hseq =>
      -- The number passes from `j` to the row it commits.
      refine h.handOver (.inr j) (.inl row.messageId) hseq
        fun owner order ho => ?_
      cases owner with
      | inl id =>
          rcases owns_of_commits hcommit ho with hold | ⟨row', hfresh, hid, horder⟩
          · exact Or.inl ⟨hold, by simp⟩
          · cases hfresh
            exact Or.inr ⟨by rw [hid], row, hrow, horder⟩
      | inr k =>
          rcases ho with ⟨row', hk, horder'⟩
          rw [henq, Function.update_apply] at hk
          split at hk
          · cases hk
          · rename_i hkj
            exact Or.inl ⟨⟨row', hk, horder'⟩, by simpa using hkj⟩

end Numbers

/-! ## Claims under way -/

/-- What a claim under way may rely on until it commits. -/
structure Held (s : State m n) : Prop where
  stored : ∀ i, ∀ c ∈ (s.relays i).candidates, ∃ r ∈ s.table, r.frozen = c.frozen
  apart : ∀ i k, k ≠ i → ∀ id ∈ (s.relays i).superseded,
    ∀ c ∈ (s.relays k).candidates, c.messageId ≠ id
  quiet : ∀ i, ∀ id ∈ (s.relays i).superseded, ∀ r ∈ s.table, r.messageId = id →
    r.status ≠ .publishing
  unpublished : ∀ j row, (s.enqueuers j).row? = some row → row.status ≠ .publishing

section Claims

variable {s s' : State m n} {i k : Fin n}

theorem not_mem_locks_of_free {id : Uuid} (h : lockedForRelay s i id = false) (hk : k ≠ i) :
    id ∉ (s.relays k).locks := by
  intro hmem
  have hlocked : lockedForRelay s i id = true := by
    simp only [lockedForRelay, Bool.or_eq_true, decide_eq_true_eq]
    exact Or.inl ⟨k, hk, hmem⟩
  rw [h] at hlocked
  cases hlocked

theorem mem_selection {args : ClaimArgs} {superseded : List Uuid} {c : OutboxRow}
    (h : c ∈ selection s i args superseded) :
    c ∈ view s.table superseded ∧ claimable args.now (view s.table superseded) c = true ∧
      lockedForRelay s i c.messageId = false := by
  rcases List.mem_filter.1 (mem_of_mem_orderByLimit h) with ⟨hmem, hcond⟩
  simp only [Bool.and_eq_true, Bool.not_eq_true', Bool.or_eq_false_iff] at hcond
  exact ⟨hmem, hcond.1, hcond.2.2⟩

theorem mem_view {t : OutboxTable} {superseded : List Uuid} {c : OutboxRow} :
    c ∈ view t superseded ↔
      ∃ r ∈ t, (if r.messageId ∈ superseded then supersedeOvertakenRow r else r) = c := by
  simp [view, Table.mem_rows]

theorem mem_table_of_selection {args : ClaimArgs} {superseded : List Uuid} {c : OutboxRow}
    (h : c ∈ selection s i args superseded) : c ∈ s.table := by
  rcases mem_selection h with ⟨hview, hclaimable, -⟩
  rcases mem_view.1 hview with ⟨r, hr, heq⟩
  split at heq
  · subst heq
    rcases status_of_claimable hclaimable with hst | hst <;> cases hst
  · exact heq ▸ hr

theorem Held.advance {phase : RelayPhase} (h : Held s)
    (hcand : ∀ c ∈ phase.candidates,
      c ∈ (s.relays i).candidates ∨ c ∈ s.table ∧ lockedForRelay s i c.messageId = false)
    (hsup : ∀ id ∈ phase.superseded, id ∈ (s.relays i).superseded ∨ Overtaken s i id) :
    Held (s.setRelay i phase) := by
  refine
    { stored := ?_
      apart := ?_
      quiet := ?_
      unpublished := h.unpublished }
  · intro k c hc
    simp only [State.setRelay, Function.update_apply] at hc
    split at hc
    · rename_i hk
      -- A candidate taken just now is a row of the table itself.
      rcases hcand c hc with hold | ⟨hmem, -⟩
      · exact h.stored i c hold
      · exact ⟨c, hmem, rfl⟩
    · exact h.stored k c hc
  · intro i' k hne id hid c hc
    simp only [State.setRelay, Function.update_apply] at hid hc
    split at hid
    · rename_i hi
      subst hi
      rw [if_neg hne] at hc
      rcases hsup id hid with hold | ⟨hfree, -⟩
      · exact h.apart i' k hne id hold c hc
      · intro heq
        exact not_mem_locks_of_free hfree hne
          (List.mem_append.2 (Or.inr (List.mem_map.2 ⟨c, hc, heq⟩)))
    · rename_i hi
      split at hc
      · rename_i hk
        subst hk
        -- The mover is the one that holds: `SKIP LOCKED` passed over what the other has superseded.
        rcases hcand c hc with hold | ⟨-, hfree⟩
        · exact h.apart i' k hne id hid c hold
        · intro heq
          exact not_mem_locks_of_free hfree hi (List.mem_append.2 (Or.inl (heq ▸ hid)))
      · exact h.apart i' k hne id hid c hc
  · intro i' id hid r hr hkey
    simp only [State.setRelay, Function.update_apply] at hid
    split at hid
    · rename_i hi
      subst hi
      rcases hsup id hid with hold | ⟨-, r', hr', hkey', hst⟩
      · exact h.quiet i' id hold r hr hkey
      · have heq : r = r' := Table.eq_of_key_eq hr hr' (hkey.trans hkey'.symm)
        rw [heq, hst]
        simp
    · exact h.quiet i' id hid r hr hkey

theorem Held.of_commits {claims : List OutboxRow} {fresh : Option OutboxRow} (h : Held s)
    (hcommit : Commits claims fresh s.table s'.table)
    (hrelays : ∀ k, s'.relays k = s.relays k ∨ s'.relays k = .idle)
    (hclaims : ∀ k, s'.relays k = s.relays k → ∀ id ∈ (s.relays k).superseded,
      ∀ c ∈ claims, c.messageId ≠ id)
    (hfresh : ∀ row, fresh = some row → row.status ≠ .publishing)
    (hrows : ∀ j row, (s'.enqueuers j).row? = some row → (s.enqueuers j).row? = some row) :
    Held s' := by
  have hsame : ∀ k, (∀ c ∈ (s'.relays k).candidates, c ∈ (s.relays k).candidates) ∧
      ∀ id ∈ (s'.relays k).superseded, id ∈ (s.relays k).superseded := by
    intro k
    rcases hrelays k with heq | heq <;> rw [heq] <;>
      simp [RelayPhase.candidates, RelayPhase.superseded]
  refine
    { stored := ?_
      apart := ?_
      quiet := ?_
      unpublished := ?_ }
  · intro k c hc
    rcases h.stored k c ((hsame k).1 c hc) with ⟨r, hr, hfrozen⟩
    rcases hcommit.kept r hr with ⟨r', hr', hrw⟩
    exact ⟨r', hr', hrw.frozen.symm.trans hfrozen⟩
  · intro i k hne id hid c hc
    exact h.apart i k hne id ((hsame i).2 id hid) c ((hsame k).1 c hc)
  · intro i id hid r' hr' hkey hpub
    have hid' : id ∈ (s.relays i).superseded := (hsame i).2 id hid
    have hi : s'.relays i = s.relays i := by
      rcases hrelays i with heq | heq
      · exact heq
      · rw [heq] at hid
        cases hid
    -- Only the claim that commits turns rows `Publishing`, and it took none of these.
    rcases hcommit.origin r' hr' with ⟨r, hr, hrw⟩ | hnew
    · have hkey' : r.messageId = id := (messageId_of_frozen hrw.frozen).trans hkey
      rcases hrw.publishing hpub with hold | htarget
      · exact h.quiet i id hid' r hr hkey' hold
      · rcases targetOf_iff.1 htarget with ⟨c, hc, heq⟩
        exact hclaims i hi id hid' c hc (heq.symm.trans hkey')
    · exact hfresh r' hnew hpub
  · intro j row hrow
    exact h.unpublished j row (hrows j row hrow)

theorem held_step {a : Action m n} (h : Held s) (hstep : Step s a s') : Held s' := by
  cases hstep with
  | relay i phase hcand hsup hs' =>
      subst hs'
      exact h.advance (fun c hc => Or.inl (hcand c hc)) hsup
  | select i args window remaining superseded _ hphase hs' =>
      subst hs'
      refine h.advance ?_ ?_
      · intro c hc
        exact Or.inr ⟨mem_table_of_selection hc, (mem_selection hc).2.2⟩
      · intro id hid
        rw [hphase]
        exact Or.inl hid
  | claimed i hcommit hrelays henq _ =>
      refine h.of_commits hcommit ?_ ?_ (fun _ h => nomatch h) (fun j row hrow => henq ▸ hrow)
      · intro k
        rw [hrelays, Function.update_apply]
        split
        · exact Or.inr rfl
        · exact Or.inl rfl
      · intro k hk id hid c hc
        by_cases hki : k = i
        · -- The committing relay has let go of its own rows.
          subst hki
          rw [← hk, hrelays, Function.update_self] at hid
          cases hid
        · exact h.apart k i (Ne.symm hki) id hid c hc
  | enqueuer j phase hrow hs' =>
      subst hs'
      refine { h with unpublished := ?_ }
      intro k row hk
      simp only [State.setEnqueuer, Function.update_apply] at hk
      split at hk
      · rw [hrow] at hk
        cases hk
      · exact h.unpublished k row hk
  | inserted j row superseded _ hst henq htable hrelays _ =>
      refine
        { stored := by rw [htable, hrelays]; exact h.stored
          apart := by rw [hrelays]; exact h.apart
          quiet := by rw [htable, hrelays]; exact h.quiet
          unpublished := ?_ }
      intro k row' hk
      rw [henq, Function.update_apply] at hk
      split at hk
      · cases hk
        exact hst
      · exact h.unpublished k row' hk
  | enqueued j row hrow hcommit henq hrelays _ =>
      refine h.of_commits hcommit (fun k => Or.inl (by rw [hrelays])) (by simp) ?_ ?_
      · intro row' hnew
        cases hnew
        exact h.unpublished j row hrow
      · intro k row' hk
        rw [henq, Function.update_apply] at hk
        split at hk
        · cases hk
        · exact hk
  | marked hcommit hrelays henq _ =>
      exact h.of_commits hcommit (fun k => Or.inl (by rw [hrelays])) (by simp)
        (fun _ h => nomatch h) (fun j row hrow => henq ▸ hrow)

end Claims

/-! ## One row in flight -/

/-- A committed row is being published, or a claim under way is about to say so. -/
def InFlight (s : State m n) (row : OutboxRow) : Prop :=
  row.status = .publishing ∨ ∃ i, targetOf (s.relays i).candidates row = true

/-- At most one row of an entity is in flight. -/
def Single (s : State m n) : Prop :=
  ∀ r ∈ s.table, ∀ r' ∈ s.table, InFlight s r → InFlight s r' → Sibling r r' → r = r'

/-- When a claim statement starts, no other claim under way holds a row whose entity has another
pending row that is due. -/
def Solitary (s : State m n) : Action m n → Prop
  | .startClaim i =>
      ∀ k, k ≠ i → ∀ c ∈ (s.relays k).candidates, ∀ r ∈ s.table, r.status = .pending →
        (s.relays i).isDue r = true → Sibling r c → r.messageId = c.messageId
  | _ => True

instance (s : State m n) (a : Action m n) : Decidable (Solitary s a) :=
  match a with
  | .startClaim i =>
      inferInstanceAs (Decidable (∀ k, k ≠ i → ∀ c ∈ (s.relays k).candidates,
        ∀ r ∈ s.table.rows, r.status = .pending → (s.relays i).isDue r = true → Sibling r c →
          r.messageId = c.messageId))
  | .beginClaim _ _ | .startCollapse _ | .collapseRow _ | .supersedeRow _ | .finishClaim _
  | .commitClaim _ | .abortClaim _ | .beginEnqueue _ _ | .lockEntity _ _ | .startSupersede _
  | .supersedePending _ | .insertRow _ _ _ | .commitEnqueue _ | .abortEnqueue _ | .mark _ _ _ _ =>
      isTrue trivial

section Flights

variable {s s' : State m n} {i : Fin n} {args : ClaimArgs} {window : List OutboxRow}
  {superseded : List Uuid} {r r' : OutboxRow}

theorem Single.of_inFlight (h : Single s)
    (hback : ∀ r' ∈ s'.table, InFlight s' r' → ∃ r ∈ s.table, r.frozen = r'.frozen ∧ InFlight s r) :
    Single s' := by
  intro r₁' h₁' r₂' h₂' hfly₁ hfly₂ hsib
  rcases hback r₁' h₁' hfly₁ with ⟨r₁, h₁, hf₁, hfly₁⟩
  rcases hback r₂' h₂' hfly₂ with ⟨r₂, h₂, hf₂, hfly₂⟩
  have heq : r₁ = r₂ := h r₁ h₁ r₂ h₂ hfly₁ hfly₂ (hsib.of_frozen hf₁.symm hf₂.symm)
  have hkey : r₁'.messageId = r₂'.messageId :=
    calc
      r₁'.messageId = r₁.messageId := (messageId_of_frozen hf₁).symm
      _ = r₂.messageId := by rw [heq]
      _ = r₂'.messageId := messageId_of_frozen hf₂
  exact Table.eq_of_key_eq h₁' h₂' hkey

theorem Single.of_commits {claims : List OutboxRow} {fresh : Option OutboxRow} (h : Single s)
    (hheld : Held s) (hcommit : Commits claims fresh s.table s'.table)
    (hclaims : ∀ c ∈ claims, ∃ k, c ∈ (s.relays k).candidates)
    (hfresh : ∀ row, fresh = some row → row.status ≠ .publishing)
    (hrelays : ∀ k, ∀ c ∈ (s'.relays k).candidates, c ∈ (s.relays k).candidates) : Single s' := by
  refine h.of_inFlight fun r' hr' hfly => ?_
  rcases hcommit.origin r' hr' with ⟨r, hr, hrw⟩ | hnew
  · refine ⟨r, hr, hrw.frozen, ?_⟩
    have hkey : r.messageId = r'.messageId := messageId_of_frozen hrw.frozen
    rcases hfly with hpub | ⟨k, htarget⟩
    · rcases hrw.publishing hpub with hold | htarget
      · exact Or.inl hold
      · rcases targetOf_iff.1 htarget with ⟨c, hc, heq⟩
        rcases hclaims c hc with ⟨k, hk⟩
        exact Or.inr ⟨k, targetOf_iff.2 ⟨c, hk, heq⟩⟩
    · rcases targetOf_iff.1 htarget with ⟨c, hc, heq⟩
      exact Or.inr ⟨k, targetOf_iff.2 ⟨c, hrelays k c hc, hkey.trans heq⟩⟩
  · -- A new row is not publishing, and no claim holds a key the table does not have.
    exfalso
    rcases hfly with hpub | ⟨k, htarget⟩
    · exact hfresh r' hnew hpub
    · rcases targetOf_iff.1 htarget with ⟨c, hc, heq⟩
      rcases hheld.stored k c (hrelays k c hc) with ⟨r, hr, hfrozen⟩
      exact hcommit.isNew r' hnew ⟨r, hr, (messageId_of_frozen hfrozen).trans heq.symm⟩

theorem pending_of_selection (h : r ∈ selection s i args superseded) (hst : r.status = .pending) :
    r.nextAttemptAt ≤ args.now ∧
      (r.entityKey = none ∨ ¬ inflight (view s.table superseded) r = true) ∧
      ¬ newerPending (view s.table superseded) r = true := by
  rcases mem_selection h with ⟨-, hclaimable, -⟩
  rcases claimable_iff.1 hclaimable with ⟨-, hdue, hfree, hnewest⟩ | ⟨hpub, -⟩
  · exact ⟨hdue, hfree, hnewest⟩
  · rw [hst] at hpub
    cases hpub

/-- Against what is in flight already: a publishing row is in the snapshot, and the row of a claim
under way is the candidate itself. -/
theorem selection_beside_inFlight (hheld : Held s) (hok : Solitary s (.startClaim i))
    (hphase : s.relays i = .collapsing args window [] superseded)
    (hr : r ∈ selection s i args superseded) (hst : r.status = .pending) (hr' : r' ∈ s.table)
    (hfly : InFlight s r') (hsib : Sibling r r') : r = r' := by
  rcases pending_of_selection hr hst with ⟨hdue, hfree, -⟩
  have hrt : r ∈ s.table := mem_table_of_selection hr
  rcases hfly with hpub | ⟨k, htarget⟩
  · exfalso
    -- The relay's own supersessions hide nothing: a row it superseded is not `Publishing`.
    have hown : r'.messageId ∉ superseded := by
      intro hmem
      refine hheld.quiet i r'.messageId ?_ r' hr' rfl hpub
      rw [hphase]
      exact hmem
    have hview : r' ∈ view s.table superseded := mem_view.2 ⟨r', hr', if_neg hown⟩
    rcases hfree with hnone | hquiet
    · rcases hsib with ⟨e, he, -⟩
      rw [hnone] at he
      cases he
    · exact hquiet (inflight_iff.2 ⟨r', hview, hsib.symm, hpub⟩)
  · rcases targetOf_iff.1 htarget with ⟨c, hc, heq⟩
    have hk : k ≠ i := by
      intro hki
      rw [hki, hphase] at hc
      cases hc
    rcases hheld.stored k c hc with ⟨r₁, hr₁, hfrozen⟩
    have hr₁' : r₁ = r' :=
      Table.eq_of_key_eq hr₁ hr' ((messageId_of_frozen hfrozen).trans heq.symm)
    -- The candidate may be an older version of the row; its entity is the same.
    have hsibc : Sibling r c := hsib.of_frozen rfl (hr₁' ▸ hfrozen)
    have hidue : (s.relays i).isDue r = true := by
      rw [hphase]
      simpa [RelayPhase.isDue] using hdue
    exact Table.eq_of_key_eq hrt hr' ((hok k hk c hc r hrt hst hidue hsibc).trans heq.symm)

/-- Two pending candidates of one entity are the same row, since each is the newest. -/
theorem selection_unique (hnum : Numbered s) (hr : r ∈ selection s i args superseded)
    (hr' : r' ∈ selection s i args superseded) (hst : r.status = .pending)
    (hst' : r'.status = .pending) (hsib : Sibling r r') : r = r' := by
  rcases pending_of_selection hr hst with ⟨-, -, hnewest⟩
  rcases pending_of_selection hr' hst' with ⟨-, -, hnewest'⟩
  rcases lt_trichotomy r.enqueueOrder r'.enqueueOrder with hlt | heq | hlt
  · exact absurd (newerPending_iff.2 ⟨r', (mem_selection hr').1, hsib.symm, hst', hlt⟩) hnewest
  · exact hnum.enqueueOrder_injOn (mem_table_of_selection hr) (mem_table_of_selection hr') heq
  · exact absurd (newerPending_iff.2 ⟨r, (mem_selection hr).1, hsib, hst, hlt⟩) hnewest'

/-- After the selection, a row in flight was so before or is a pending candidate. -/
theorem inFlight_of_select {remaining : List Uuid} (hr : r ∈ s.table)
    (h : InFlight (s.setRelay i (.claiming args (selection s i args superseded) remaining
      superseded)) r) :
    InFlight s r ∨ r ∈ selection s i args superseded ∧ r.status = .pending := by
  rcases h with hpub | ⟨k, htarget⟩
  · exact Or.inl (Or.inl hpub)
  · simp only [State.setRelay, Function.update_apply] at htarget
    split at htarget
    · rcases targetOf_iff.1 htarget with ⟨c, hc, heq⟩
      have hrc : r = c := Table.eq_of_key_eq hr (mem_table_of_selection hc) heq
      subst hrc
      rcases status_of_claimable (mem_selection hc).2.1 with hst | hst
      · exact Or.inr ⟨hc, hst⟩
      · exact Or.inl (Or.inl hst)
    · exact Or.inl (Or.inr ⟨k, htarget⟩)

theorem single_step {a : Action m n} (h : Single s) (hnum : Numbered s) (hheld : Held s)
    (hok : Solitary s a) (hstep : Step s a s') : Single s' := by
  cases hstep with
  | relay i phase hcand _ hs' =>
      subst hs'
      refine h.of_commits hheld (Commits.refl [] s.table) (by simp) (by simp) ?_
      intro k c hc
      simp only [State.setRelay, Function.update_apply] at hc
      split at hc
      · rename_i hk
        exact hk ▸ hcand c hc
      · exact hc
  | select i args window remaining superseded ha hphase hs' =>
      subst hs' ha
      intro r (hr : r ∈ s.table) r' (hr' : r' ∈ s.table) hfly hfly' hsib
      -- Each of the two rows was in flight before, or has just been selected.
      rcases inFlight_of_select hr hfly with hold | ⟨hsel, hst⟩ <;>
        rcases inFlight_of_select hr' hfly' with hold' | ⟨hsel', hst'⟩
      · exact h r hr r' hr' hold hold' hsib
      · exact (selection_beside_inFlight hheld hok hphase hsel' hst' hr hold hsib.symm).symm
      · exact selection_beside_inFlight hheld hok hphase hsel hst hr' hold' hsib
      · exact selection_unique hnum hsel hsel' hst hst' hsib
  | claimed i hcommit hrelays _ _ =>
      refine h.of_commits hheld hcommit (fun c hc => ⟨i, hc⟩) (by simp) ?_
      intro k c hc
      rw [hrelays, Function.update_apply] at hc
      split at hc
      · cases hc
      · exact hc
  | enqueuer j phase _ hs' =>
      subst hs'
      exact h
  | inserted j row superseded _ _ _ htable hrelays _ =>
      have hcommit : Commits [] none s.table s'.table := by
        rw [htable]
        exact Commits.refl [] s.table
      exact h.of_commits hheld hcommit (by simp) (by simp) (by rw [hrelays]; exact fun _ _ hc => hc)
  | enqueued j row hrow hcommit _ hrelays _ =>
      refine h.of_commits hheld hcommit (by simp) ?_ (by rw [hrelays]; exact fun _ _ hc => hc)
      intro row' hnew
      cases hnew
      exact hheld.unpublished j row hrow
  | marked hcommit hrelays _ _ =>
      exact h.of_commits hheld hcommit (by simp) (by simp) (by rw [hrelays]; exact fun _ _ hc => hc)

theorem numbered_initial : Numbered (State.initial : State m n) := by
  have hnone : ∀ owner order, ¬ Owns (State.initial : State m n) owner order := by
    intro owner order ho
    cases owner with
    | inl id =>
        rcases ho with ⟨r, hr, -⟩
        exact Table.not_mem_empty hr
    | inr j =>
        rcases ho with ⟨row, hrow, -⟩
        cases hrow
  exact
    { bounded := fun owner order ho => absurd ho (hnone owner order)
      unique := fun owner _ order ho => absurd ho (hnone owner order) }

theorem held_initial : Held (State.initial : State m n) :=
  { stored := fun _ _ hc => nomatch hc
    apart := fun _ _ _ _ hid => nomatch hid
    quiet := fun _ _ hid => nomatch hid
    unpublished := fun _ _ hrow => nomatch hrow }

/-- The three invariants of a run whose claims are all solitary. -/
theorem reachable_single (h : (system m n).ReachableBy Solitary s) :
    Numbered s ∧ Held s ∧ Single s := by
  refine TransitionSystem.ReachableBy.invariant
    (I := fun s => Numbered s ∧ Held s ∧ Single s) ?_ ?_ h
  · rintro s rfl
    exact ⟨numbered_initial, held_initial, fun r hr => absurd hr Table.not_mem_empty⟩
  · rintro s a s' ⟨hnum, hheld, hsingle⟩ hok hnext
    have hstep : Step s a s' := step_of_next hnext
    exact ⟨numbered_step hnum hstep, held_step hheld hstep,
      single_step hsingle hnum hheld hok hstep⟩

end Flights

/-! ## The law -/

/-- No committed state of a run whose claims are solitary has two publishing rows of one entity. -/
theorem one_publishing_per_entity {s : State m n} (h : (system m n).ReachableBy Solitary s)
    {r r' : OutboxRow} (hr : r ∈ s.table) (hr' : r' ∈ s.table) (hpub : r.status = .publishing)
    (hpub' : r'.status = .publishing) (hsib : Sibling r r') : r = r' := by
  rcases reachable_single h with ⟨-, -, hsingle⟩
  exact hsingle r hr r' hr' (Or.inl hpub) (Or.inl hpub') hsib

/-- Message `k` for an entity. -/
def snapshotInsert (k : Nat) (entity : String) : InsertOutboxRow :=
  { messageId := BitVec.ofNat 128 k
    idempotencyKey := some (.ofByte (UInt8.ofNat k))
    idempotencySource := none
    topic := "snapshots"
    entityKey := entity
    partitionKey := none
    correlationId := 0
    causationId := none
    trace := none
    headers := SortedMap.empty
    payload := .string entity
    occurredAt := 0 }

/-- The statements of enqueuer `j` after its `BEGIN`, for an entity without pending rows. -/
def enqueueStatements (j : Fin m) (insert : InsertOutboxRow) : List (Action m n) :=
  [.lockEntity j insert, .startSupersede j, .insertRow j insert 0, .commitEnqueue j]

/-- Two relays claim rows of two entities at the same time, each passing over the other's row. -/
def overlappingClaims : List (Action 1 2) :=
  .beginEnqueue 0 false :: enqueueStatements 0 (snapshotInsert 1 "a") ++
    [.beginClaim 0 (Snapshot.claim 1 10), .startCollapse 0, .startClaim 0,
      .beginEnqueue 0 false] ++
    enqueueStatements 0 (snapshotInsert 2 "b") ++
    [.beginClaim 1 (Snapshot.claim 2 11), .startCollapse 1, .startClaim 1, .finishClaim 1,
      .finishClaim 0, .commitClaim 0, .commitClaim 1]

theorem one_publishing_per_entity_of_two :
    ∃ s, (system 1 2).run State.initial overlappingClaims = some s ∧
      (s.table.rows.filter fun r => r.status = .publishing).length = 2 ∧
      ∀ r ∈ s.table, ∀ r' ∈ s.table, r.status = .publishing → r'.status = .publishing →
        Sibling r r' → r = r' := by
  obtain ⟨s, hrun, hcount⟩ :
      ∃ s, (system 1 2).run State.initial overlappingClaims = some s ∧
        (s.table.rows.filter fun r => r.status = .publishing).length = 2 :=
    TransitionSystem.exists_of_run (by decide +kernel)
  have hstart : (system 1 2).ReachableBy Solitary State.initial :=
    TransitionSystem.ReachableBy.start rfl
  have hok : (system 1 2).runOk Solitary State.initial overlappingClaims := by
    decide +kernel
  exact ⟨s, hrun, hcount, fun r hr r' hr' hpub hpub' hsib =>
    one_publishing_per_entity (TransitionSystem.reachableBy_of_run hstart hok hrun) hr hr' hpub
      hpub' hsib⟩

/-- Enqueuer 1 fixes its snapshot first.  Relay 0 holds row 1 when enqueuer 1, which cannot see row 1,
commits row 2 between the two statements of relay 1. -/
def crossedClaims : List (Action 2 2) :=
  [.beginEnqueue 1 true, .beginEnqueue 0 false] ++
    enqueueStatements 0 (snapshotInsert 1 "a") ++
    [.beginClaim 0 (Snapshot.claim 1 10), .startCollapse 0, .startClaim 0,
      .beginClaim 1 (Snapshot.claim 1 11), .startCollapse 1] ++
    enqueueStatements 1 (snapshotInsert 2 "a") ++
    [.startClaim 1, .finishClaim 0, .commitClaim 0, .supersedeRow 1, .finishClaim 1,
      .commitClaim 1]

/-- Relay 1 does not see the uncommitted claim of row 1, claims row 2, waits for row 1 in order to
supersede it, and finds it published when the wait is over. -/
theorem two_publishing_rows :
    ∃ s, (system 2 2).Reachable s ∧
      ∃ r ∈ s.table, ∃ r' ∈ s.table, r.status = .publishing ∧ r'.status = .publishing ∧
        Sibling r r' ∧ r ≠ r' := by
  have hstart : (system 2 2).Reachable State.initial := TransitionSystem.Reachable.start rfl
  obtain ⟨s, hreach, r, hr, r', hr', hrest⟩ :
      ∃ s, (system 2 2).Reachable s ∧
        ∃ r ∈ s.table.rows, ∃ r' ∈ s.table.rows, r.status = .publishing ∧
          r'.status = .publishing ∧ Sibling r r' ∧ r.messageId ≠ r'.messageId :=
    TransitionSystem.exists_reachable_of_run hstart crossedClaims (by decide +kernel)
  refine ⟨s, hreach, r, hr, r', hr', hrest.1, hrest.2.1, hrest.2.2.1, ?_⟩
  intro heq
  exact hrest.2.2.2 (congrArg OutboxRow.messageId heq)

end Statement
end Outbox
end Kafkaman
