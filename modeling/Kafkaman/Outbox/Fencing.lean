import Kafkaman.Outbox.Lineage

/-!
# Outbox.Fencing — claim generations and late marks

One claim id is shared by a batch and a row can pass through several claims, so that a mark acts
only for the last claim of its row is a fact about runs.  `next_publishing` says where a row in
flight comes from; `Fencing` is the invariant it yields.

* `Fencing.leased` — a row in flight carries the id of the last claim that returned it;
* `Fencing.spent` — a claim that has reported `Updated` for a row matches nothing any more;
* `MarkFenced`, `late_marks_fenced` — what a mark does and reports in every reachable state.
-/

namespace Kafkaman
namespace Outbox

open Lib

/-! ## Where a row in flight comes from -/

theorem lastClaim_cons (record : ClaimRecord) (claims : List ClaimRecord) (messageId : Uuid) :
    lastClaim (record :: claims) messageId =
      if messageId ∈ record.messageIds then some record.claimId
      else lastClaim claims messageId := by
  unfold lastClaim
  rw [List.find?_cons]
  by_cases h : messageId ∈ record.messageIds <;> simp [h]

theorem mem_claimed_ids {args : ClaimArgs} {t : OutboxTable} {id : Uuid} :
    id ∈ (claimOutcome args t).2.map ClaimedOutboxRow.messageId ↔
      ∃ k ∈ args.candidates t, k.messageId = id := by
  rw [List.mem_map]
  constructor
  · rintro ⟨claimed, hmem, rfl⟩
    rcases mem_claimOutcome_snd.1 hmem with ⟨k, hk, rfl⟩
    exact ⟨k, hk, rfl⟩
  · rintro ⟨k, hk, rfl⟩
    exact ⟨_, mem_claimOutcome_snd.2 ⟨k, hk, rfl⟩, rfl⟩

theorem publishing_of_claimOutcome {args : ClaimArgs} {t : OutboxTable} {r' : OutboxRow}
    (hr' : r' ∈ (claimOutcome args t).1) (hst : r'.status = .publishing) :
    (r' ∈ t ∧ ∀ k ∈ args.candidates t, k.messageId ≠ r'.messageId) ∨
      ∃ k ∈ args.candidates t, r' = args.claim k := by
  rcases mem_claimOutcome_fst.1 hr' with ⟨hsup, hnot⟩ | ⟨k, hk, rfl⟩
  · refine Or.inl ⟨?_, ?_⟩
    · rcases mem_claimOutcome_cases hr' with hmem | ⟨r, -, -, rfl, -⟩ | ⟨k, -, hk, rfl⟩
      · exact hmem
      · cases hst
      · have htarget : targetOf (args.candidates t) (args.claim k) = true :=
          targetOf_iff.2 ⟨k, hk, rfl⟩
        exact absurd ((targetOf_iff_mem_candidates hsup).1 htarget) hnot
    · intro k hk hid
      have heq : k = r' := Table.eq_of_key_eq (candidate_mem_superseded hk) hsup hid
      exact hnot (heq ▸ hk)
  · exact Or.inr ⟨k, hk, rfl⟩

section Next

variable {P : Type} {message : KafkaMessage P} {descriptor : MessageDescriptor} {s s' : State}
  {a : Action P}

theorem lastClaim_commitClaim (s : State) (args : ClaimArgs) (messageId : Uuid) :
    lastClaim (commitClaim s args).claims messageId =
      if ∃ k ∈ args.candidates s.table, k.messageId = messageId then some args.claimId
      else lastClaim s.claims messageId := by
  rw [commitClaim, lastClaim_cons]
  exact if_congr mem_claimed_ids rfl rfl

theorem next_publishing (hnext : next message descriptor s a = some s') {r' : OutboxRow}
    (hr' : r' ∈ s'.table) (hst : r'.status = .publishing) :
    (r' ∈ s.table ∧ lastClaim s'.claims r'.messageId = lastClaim s.claims r'.messageId) ∨
      ∃ args : ClaimArgs, args.claimId ∉ s.claims.map ClaimRecord.claimId ∧
        (∃ k, r' = args.claim k) ∧ lastClaim s'.claims r'.messageId = some args.claimId := by
  cases step_of_next hnext with
  | unmoved hsame =>
      exact Or.inl ⟨hsame.table ▸ hr', by rw [hsame.claims]⟩
  | inserted _ hkey =>
      exact Or.inl ⟨mem_table_of_commitInsert hkey hr' (Or.inl hst), rfl⟩
  | @claimed args hfresh =>
      rw [lastClaim_commitClaim]
      -- A row in flight that was left alone keeps its last claim; one that was taken has this one.
      rcases publishing_of_claimOutcome hr' hst with ⟨hmem, hnone⟩ | ⟨k, hk, rfl⟩
      · refine Or.inl ⟨hmem, if_neg ?_⟩
        rintro ⟨k, hk, hid⟩
        exact hnone k hk hid
      · exact Or.inr ⟨args, hfresh, ⟨k, rfl⟩, if_pos ⟨k, hk, rfl⟩⟩
  | @marked _ mark _ _ _ =>
      refine Or.inl ⟨?_, rfl⟩
      rcases mem_markUpdate.1 hr' with ⟨r, hr, heq⟩
      split at heq
      · rw [← heq] at hst
        cases mark <;> cases hst
      · exact heq ▸ hr
  | swept =>
      exact Or.inl ⟨(Table.mem_deleteWhere.1 hr').1, rfl⟩

theorem next_claims_subset (hnext : next message descriptor s a = some s') {c : Uuid}
    (hc : c ∈ s.claims.map ClaimRecord.claimId) : c ∈ s'.claims.map ClaimRecord.claimId := by
  cases step_of_next hnext with
  | unmoved hsame =>
      rw [hsame.claims]
      exact hc
  | claimed _ =>
      exact List.mem_cons_of_mem _ hc
  | inserted | marked | swept =>
      exact hc

theorem next_reports (hnext : next message descriptor s a = some s') :
    (∀ m c, s'.reports.count { messageId := m, claimId := c, outcome := .updated } =
      s.reports.count { messageId := m, claimId := c, outcome := .updated }) ∨
    ∃ now mark messageId claimId,
      (markUpdate now mark messageId claimId s.table).2 = true ∧
        s' = { s with
          table := (markUpdate now mark messageId claimId s.table).1
          reports :=
            { messageId := messageId
              claimId := claimId
              outcome := .updated } :: s.reports } := by
  cases step_of_next hnext with
  | unmoved hsame =>
      exact Or.inl hsame.updates
  | @marked now mark messageId claimId hhit =>
      exact Or.inr ⟨now, mark, messageId, claimId, hhit, by simp [commitMark, hhit]⟩
  | inserted | claimed | swept =>
      exact Or.inl fun _ _ => rfl

end Next

/-! ## The invariant -/

structure Fencing (s : State) : Prop where
  leased : ∀ r ∈ s.table, r.status = .publishing →
    ∃ c x, r.claimId = some c ∧ r.claimExpiresAt = some x ∧
      lastClaim s.claims r.messageId = some c
  spent : ∀ m c, 0 < s.reports.count { messageId := m, claimId := c, outcome := .updated } →
    c ∈ s.claims.map ClaimRecord.claimId ∧ ∀ r ∈ s.table, fenced m c r = false
  once : ∀ m c, s.reports.count { messageId := m, claimId := c, outcome := .updated } ≤ 1

theorem mem_claims_of_lastClaim {claims : List ClaimRecord} {id c : Uuid}
    (h : lastClaim claims id = some c) : c ∈ claims.map ClaimRecord.claimId := by
  unfold lastClaim at h
  rcases Option.map_eq_some_iff.1 h with ⟨record, hfind, rfl⟩
  exact List.mem_map_of_mem (List.mem_of_find?_eq_some hfind)

theorem fencing_initial : Fencing State.initial :=
  { leased := fun r hr => absurd hr Table.not_mem_empty
    spent := fun m c h => by simp [State.initial] at h
    once := fun m c => by simp [State.initial] }

/-- The update fences itself: no row it leaves behind matches it again. -/
theorem not_fenced_after_mark {now : Timestamp} {mark : Mark} {m c : Uuid} {t : OutboxTable}
    {r' : OutboxRow} (hr' : r' ∈ (markUpdate now mark m c t).1) : fenced m c r' = false := by
  rcases mem_markUpdate.1 hr' with ⟨r, -, heq⟩
  split at heq
  · rw [Bool.eq_false_iff, ← heq]
    intro hfenced
    have hst := (fenced_iff.1 hfenced).2.1
    cases mark <;> cases hst
  · rename_i hnot
    rw [← heq]
    simpa using hnot

section Step

variable {P : Type} {message : KafkaMessage P} {descriptor : MessageDescriptor} {s s' : State}
  {a : Action P}

theorem Fencing.leased_next (h : Fencing s) (hnext : next message descriptor s a = some s')
    {r' : OutboxRow} (hr' : r' ∈ s'.table) (hst : r'.status = .publishing) :
    ∃ c x, r'.claimId = some c ∧ r'.claimExpiresAt = some x ∧
      lastClaim s'.claims r'.messageId = some c := by
  rcases next_publishing hnext hr' hst with ⟨hmem, hlast⟩ | ⟨args, -, ⟨k, rfl⟩, hlast⟩
  · rcases h.leased r' hmem hst with ⟨c, x, hc, hx, hl⟩
    exact ⟨c, x, hc, hx, hlast.trans hl⟩
  · exact ⟨_, _, rfl, rfl, hlast⟩

/-- A spent claim stays spent: later claims use other ids. -/
theorem not_fenced_next (hnext : next message descriptor s a = some s') {m c : Uuid}
    (hc : c ∈ s.claims.map ClaimRecord.claimId) (hnone : ∀ r ∈ s.table, fenced m c r = false)
    {r' : OutboxRow} (hr' : r' ∈ s'.table) : fenced m c r' = false := by
  rw [Bool.eq_false_iff]
  intro hfenced
  rcases fenced_iff.1 hfenced with ⟨-, hst, hclaim⟩
  rcases next_publishing hnext hr' hst with ⟨hmem, -⟩ | ⟨args, hfresh, ⟨k, rfl⟩, -⟩
  · simp [hnone r' hmem] at hfenced
  · have heq : args.claimId = c := Option.some.inj hclaim
    exact hfresh (heq ▸ hc)

theorem Fencing.next (h : Fencing s) (hnext : next message descriptor s a = some s') :
    Fencing s' := by
  rcases next_reports hnext with hcount | ⟨now, mark, m₀, c₀, hhit, hs'⟩
  · refine
      { leased := fun r hr hst => h.leased_next hnext hr hst
        spent := ?_
        once := fun m c => (hcount m c) ▸ h.once m c }
    intro m c hpos
    rcases h.spent m c ((hcount m c) ▸ hpos) with ⟨hc, hnone⟩
    exact ⟨next_claims_subset hnext hc, fun r hr => not_fenced_next hnext hc hnone hr⟩
  · rcases markUpdate_hit_iff.1 hhit with ⟨r, hr, hfenced⟩
    rcases fenced_iff.1 hfenced with ⟨hid, hst, hclaim⟩
    -- The claim that hits is the last one of its row, and it has reported nothing so far.
    have hc₀ : c₀ ∈ s.claims.map ClaimRecord.claimId := by
      rcases h.leased r hr hst with ⟨c, x, hc, -, hlast⟩
      have heq : c = c₀ := Option.some.inj (hc.symm.trans hclaim)
      exact mem_claims_of_lastClaim (heq ▸ hlast)
    have hunreported : s.reports.count { messageId := m₀, claimId := c₀, outcome := .updated } = 0 := by
      by_contra hne
      have := (h.spent m₀ c₀ (Nat.pos_of_ne_zero hne)).2 r hr
      simp [hfenced] at this
    have hcons : ∀ m c, s'.reports.count { messageId := m, claimId := c, outcome := .updated } =
        s.reports.count { messageId := m, claimId := c, outcome := .updated } +
          if m₀ = m ∧ c₀ = c then 1 else 0 := by
      intro m c
      rw [hs', List.count_cons]
      simp
    refine
      { leased := fun r hr hst => h.leased_next hnext hr hst
        spent := ?_
        once := ?_ }
    · intro m c hpos
      by_cases heq : m₀ = m ∧ c₀ = c
      · rcases heq with ⟨rfl, rfl⟩
        refine ⟨next_claims_subset hnext hc₀, fun r hr => ?_⟩
        rw [hs'] at hr
        exact not_fenced_after_mark hr
      · rw [hcons, if_neg heq] at hpos
        rcases h.spent m c (by omega) with ⟨hc, hnone⟩
        exact ⟨next_claims_subset hnext hc, fun r hr => not_fenced_next hnext hc hnone hr⟩
    · intro m c
      rw [hcons]
      split
      · rename_i heq
        rw [← heq.1, ← heq.2, hunreported]
      · have := h.once m c
        omega

theorem reachable_fencing (h : (system message descriptor).Reachable s) : Fencing s := by
  refine TransitionSystem.Reachable.invariant ?_ ?_ h
  · intro s hs
    exact hs ▸ fencing_initial
  · intro s a s' hI hnext
    exact hI.next hnext

/-! ## Settled rows -/

theorem status_kept_of_run (as : List (Action P)) :
    ∀ {s s' : State}, Lineage s → (system message descriptor).run s as = some s' →
      ∀ {k : Nat} {status : OutboxStatus}, status.isTerminal = true → k < s.sequence →
        (∀ r ∈ s.table, r.enqueueOrder = k → r.status = status) →
          ∀ r' ∈ s'.table, r'.enqueueOrder = k → r'.status = status := by
  induction as with
  | nil =>
      intro s s' _ hrun k status _ _ hall
      have heq : s = s' := by simpa [TransitionSystem.run] using hrun
      exact heq ▸ hall
  | cons a as ih =>
      intro s s' hI hrun k status hterm hk hall
      rcases Option.bind_eq_some_iff.1 hrun with ⟨s₁, hnext, hrest⟩
      rcases next_transition hI.table_fresh hnext with ⟨new, ht⟩
      refine ih (lineage_next hI hnext) hrest hterm (Nat.lt_of_lt_of_le hk ht.sequence) ?_
      intro r' hr' horder
      rcases ht.back r' hr' with hnew | ⟨r, hr, hb⟩
      · have := (ht.inserted r' hnew).2.1
        omega
      · have hst : r.status = status :=
          hall r hr ((enqueueOrder_of_frozen hb.frozen).trans horder)
        rw [hb.status.eq_of_isTerminal (hst ▸ hterm), hst]

end Step

/-! ## Late marks -/

/-- A row in flight whose last claim is `c`. -/
def Holds (s : State) (m c : Uuid) : Prop :=
  ∃ r ∈ s.table, r.messageId = m ∧ r.status = .publishing ∧ lastClaim s.claims m = some c

instance (s : State) (m c : Uuid) : Decidable (Holds s m c) :=
  inferInstanceAs (Decidable (∃ r ∈ s.table.rows, r.messageId = m ∧ r.status = .publishing ∧
    lastClaim s.claims m = some c))

theorem Fencing.holds_iff {s : State} (h : Fencing s) {m c : Uuid} :
    Holds s m c ↔ ∃ r ∈ s.table, fenced m c r = true := by
  constructor
  · rintro ⟨r, hr, hid, hst, hlast⟩
    rcases h.leased r hr hst with ⟨c', x, hc', -, hlast'⟩
    have heq : c = c' := by
      rw [hid] at hlast'
      exact Option.some.inj (hlast.symm.trans hlast')
    exact ⟨r, hr, fenced_iff.2 ⟨hid, hst, heq ▸ hc'⟩⟩
  · rintro ⟨r, hr, hfenced⟩
    rcases fenced_iff.1 hfenced with ⟨hid, hst, hclaim⟩
    rcases h.leased r hr hst with ⟨c', x, hc', -, hlast⟩
    have heq : c' = c := Option.some.inj (hc'.symm.trans hclaim)
    exact ⟨r, hr, hid, hst, hid ▸ heq ▸ hlast⟩

theorem markWith_of_not_fenced {now : Timestamp} {mark : Mark} {m c : Uuid} {t : OutboxTable}
    (h : ¬ ∃ r ∈ t, fenced m c r = true) :
    markWith now mark m c t = (t, markMissOutcome m t) := by
  have hmiss : (markUpdate now mark m c t).2 = false := by
    rw [Bool.eq_false_iff]
    exact fun hhit => h (markUpdate_hit_iff.1 hhit)
  simp [markWith, hmiss, markUpdate_miss hmiss]

theorem markWith_ne_of_fenced {now : Timestamp} {mark : Mark} {m c : Uuid} {t : OutboxTable}
    (h : ∃ r ∈ t, fenced m c r = true) : (markWith now mark m c t).1 ≠ t := by
  rcases h with ⟨r, hr, hfenced⟩
  intro heq
  have hmem : r ∈ (markUpdate now mark m c t).1 := by
    have hfst : (markWith now mark m c t).1 = (markUpdate now mark m c t).1 := rfl
    rw [← hfst, heq]
    exact hr
  simp [not_fenced_after_mark hmem] at hfenced

theorem markWith_of_fenced {now : Timestamp} {mark : Mark} {m c : Uuid} {t : OutboxTable}
    (h : ∃ r ∈ t, fenced m c r = true) : (markWith now mark m c t).2 = .updated := by
  have hhit : (markUpdate now mark m c t).2 = true := markUpdate_hit_iff.2 h
  simp [markWith, hhit]

theorem mem_markWith_of_ne {now : Timestamp} {mark : Mark} {m c : Uuid} {t : OutboxTable}
    {r : OutboxRow} (hid : r.messageId ≠ m) : r ∈ (markWith now mark m c t).1 ↔ r ∈ t := by
  have hstep : r ∈ (markWith now mark m c t).1 ↔
      ∃ r₀ ∈ t, (if fenced m c r₀ then mark.assign now r₀ else r₀) = r :=
    mem_markUpdate
  rw [hstep]
  constructor
  · rintro ⟨r₀, hr₀, heq⟩
    split at heq
    · rename_i hfenced
      rw [← heq, messageId_assign] at hid
      exact absurd (fenced_iff.1 hfenced).1 hid
    · exact heq ▸ hr₀
  · intro hr
    exact ⟨r, hr, if_neg fun hfenced => hid (fenced_iff.1 hfenced).1⟩

/-- What a mark for `(m, c)` does: it changes the table exactly when row `m` is `Publishing` and `c`
is the claim id of the last batch that returned it; it then changes that row only and reports
`Updated`.  Otherwise it leaves the table as it is and reports `StaleClaim` if the row exists and
`Missing` if not. -/
def MarkFenced (s : State) (now : Timestamp) (mark : Mark) (m c : Uuid) : Prop :=
  ∃ table outcome, tryMark now mark m c s.table = .ok (table, outcome) ∧
    (table ≠ s.table ↔ Holds s m c) ∧
    (∀ r, r.messageId ≠ m → (r ∈ table ↔ r ∈ s.table)) ∧
    (Holds s m c → outcome = .updated) ∧
    (¬ Holds s m c →
      table = s.table ∧ outcome = if s.table.HasKey m then .staleClaim else .missing)

theorem Fencing.markFenced {s : State} (hF : Fencing s) {now : Timestamp} {mark : Mark} {m c : Uuid}
    (haccepted : mark.Accepted now) : MarkFenced s now mark m c := by
  refine ⟨(markWith now mark m c s.table).1, (markWith now mark m c s.table).2,
    tryMark_of_accepted haccepted, ⟨?_, ?_⟩, fun r hid => mem_markWith_of_ne hid, ?_, ?_⟩
  · intro hne
    by_contra hnot
    rw [hF.holds_iff] at hnot
    exact hne (congrArg Prod.fst (markWith_of_not_fenced hnot))
  · intro hholds
    exact markWith_ne_of_fenced (hF.holds_iff.1 hholds)
  · intro hholds
    exact markWith_of_fenced (hF.holds_iff.1 hholds)
  · intro hnot
    rw [hF.holds_iff] at hnot
    rw [markWith_of_not_fenced hnot]
    exact ⟨rfl, rfl⟩

section LateMarks

variable {P : Type} {message : KafkaMessage P} {descriptor : MessageDescriptor} {s : State}

/-- Claim generations fence late marks.  In every reachable state a mark whose values the database
takes is fenced, and a mark of the claim that holds its row is fenced only then.  A mark that missed
is classified the same way when other steps run between its two statements.  No `(row, claim)` ever
reports `Updated` twice, and `Published`, `Superseded` and `Failed` rows keep their status for
good. -/
theorem late_marks_fenced (h : (system message descriptor).Reachable s) :
    (∀ (now : Timestamp) (mark : Mark) (m c : Uuid),
      (mark.Accepted now → MarkFenced s now mark m c) ∧
      (Holds s m c → (MarkFenced s now mark m c ↔ mark.Accepted now))) ∧
    (∀ (m c : Uuid) (s' : State), next message descriptor s (.classifyMiss m c) = some s' →
      s'.table = s.table ∧
      s'.reports =
        { messageId := m
          claimId := c
          outcome := if s.table.HasKey m then .staleClaim else .missing } :: s.reports) ∧
    (∀ m c, s.reports.count { messageId := m, claimId := c, outcome := .updated } ≤ 1) ∧
    (∀ (as : List (Action P)) (s' : State), (system message descriptor).run s as = some s' →
      ∀ r ∈ s.table, r.status.isTerminal = true → ∀ r' ∈ s'.table,
        r'.enqueueOrder = r.enqueueOrder → r'.status = r.status) := by
  have hF := reachable_fencing h
  have hI := reachable_lineage h
  refine ⟨?_, ?_, hF.once, ?_⟩
  · intro now mark m c
    refine ⟨hF.markFenced, fun hholds => ⟨?_, hF.markFenced⟩⟩
    rintro ⟨table, outcome, hok, -⟩
    exact accepted_of_tryMark (markUpdate_hit_iff.2 (hF.holds_iff.1 hholds)) hok
  · intro m c s' hnext
    simp only [next] at hnext
    split at hnext
    · rw [← Option.some.inj hnext]
      exact ⟨rfl, rfl⟩
    · cases hnext
  · intro as s' hrun r hr hterm r' hr' horder
    -- The ordinal identifies the row across the run: a purged id may be enqueued again.
    refine status_kept_of_run as hI hrun hterm (hI.committed_fresh (Or.inl hr)) ?_ r' hr' horder
    intro q hq hqorder
    rw [hI.eq_of_order_eq hq hr hqorder]

end LateMarks

/-- A worker's lease runs out, another worker reclaims the row, and the first one reports. -/
def reclaimedMeanwhile : List (Action Snapshot) :=
  [Snapshot.enqueue 0 1 ⟨"a", "state"⟩, .claim (Snapshot.claim 1 1), .claim (Snapshot.claim 100 2)]

theorem late_marks_fenced_reclaimed :
    ∃ s, (system Snapshot.message Snapshot.descriptor).run State.initial reclaimedMeanwhile
        = some s ∧
      Holds s 1 2 ∧ ¬ Holds s 1 1 ∧
      (∃ table, markPublishFailed 101 1 2 "timed out" 5000000 s.table = .ok (table, .updated)) ∧
      markPublished 101 1 1 s.table = .ok (s.table, .staleClaim) := by
  obtain ⟨s, hrun, hlast, hstale⟩ :
      ∃ s, (system Snapshot.message Snapshot.descriptor).run State.initial reclaimedMeanwhile
        = some s ∧ Holds s 1 2 ∧ ¬ Holds s 1 1 :=
    TransitionSystem.exists_of_run (by decide +kernel)
  have hreach := TransitionSystem.reachable_of_run (TransitionSystem.Reachable.start rfl) hrun
  refine ⟨s, hrun, hlast, hstale, ?_, ?_⟩
  · have haccepted : (Mark.publishFailed "timed out" 5000000).Accepted 101 := by
      refine ⟨?_, ?_, ?_⟩ <;> decide
    rcases ((late_marks_fenced hreach).1 101 _ 1 2).1 haccepted
      with ⟨table, outcome, hok, -, -, hupdated, -⟩
    exact ⟨table, hupdated hlast ▸ hok⟩
  · rcases ((late_marks_fenced hreach).1 101 .published 1 1).1 trivial
      with ⟨table, outcome, hok, -, -, -, hmissed⟩
    have hkey : s.table.HasKey 1 := by
      rcases hlast with ⟨r, hr, hid, -⟩
      exact ⟨r, hr, hid⟩
    rcases hmissed hstale with ⟨rfl, hreport⟩
    rw [hreport, if_pos hkey] at hok
    exact hok

/-- Marks of the claim that holds the row, refused: an error text with U+0000 and a retry delay of
110000000 days.  The row stays `Publishing`, and no outcome is reported. -/
theorem held_mark_refused :
    ∃ s, (system Snapshot.message Snapshot.descriptor).run State.initial reclaimedMeanwhile
        = some s ∧
      Holds s 1 2 ∧
      markPublishFailed 101 1 2 "broker said \x00" 5000000 s.table = .error .invalidByteSequence ∧
      markPublishFailed 101 1 2 "timed out" (110000000 * 86400000000) s.table =
        .error .intervalOutOfRange := by
  obtain ⟨s, hrun, hholds⟩ :
      ∃ s, (system Snapshot.message Snapshot.descriptor).run State.initial reclaimedMeanwhile
        = some s ∧ Holds s 1 2 :=
    TransitionSystem.exists_of_run (by decide +kernel)
  have hreach := TransitionSystem.reachable_of_run (TransitionSystem.Reachable.start rfl) hrun
  have hhit : ∀ mark, (markUpdate 101 mark 1 2 s.table).2 = true := fun _ =>
    markUpdate_hit_iff.2 ((reachable_fencing hreach).holds_iff.1 hholds)
  have hrefused : storableText "broker said \x00" = false := by decide
  have htaken : storableText "timed out" = true := by decide
  have hwait : waitError 101 (110000000 * 86400000000) = some .intervalOutOfRange := by decide
  refine ⟨s, hrun, hholds, ?_, ?_⟩
  · simp [markPublishFailed, tryMark, Mark.error, hrefused]
  · simp only [markPublishFailed, tryMark, hhit, Mark.error, htaken, if_true, hwait]

end Outbox
end Kafkaman
