import Kafkaman.Lib.Restriction
import Kafkaman.Outbox.System

/-!
# Outbox.Purge — retention seen from the delivery side

A sweep deletes rows nobody acts on again.  This module compares a run with the same run without its
sweeps: the table of the one conceals from the table of the other rows that are all terminal, and
claims, supersedes and marks look at live rows only.

* `Conceals` — the two tables, and that what is concealed is terminal;
* `Conceals.claimOutcome`, `Conceals.markUpdate`, `Conceals.enqueueInner` — a statement on both;
* `Hidden`, `hidden_follow`, `hidden_purge` — the simulation;
* `purge_invisible` — the whole run.
-/

namespace Kafkaman
namespace Outbox

open Lib

/-! ## Concealed rows -/

/-- The first table is the second one under the ids kept; the other rows are terminal. -/
structure Conceals (keep : Uuid → Bool) (t t' : OutboxTable) : Prop where
  restricts : Table.Restricts keep t t'
  terminal : ∀ r ∈ t', keep r.messageId = false → r.status.isTerminal = true

namespace Conceals

variable {keep : Uuid → Bool} {t t' : OutboxTable} {p : OutboxRow → Bool}

theorem kept_of_live (h : Conceals keep t t') {r : OutboxRow} (hr : r ∈ t')
    (hlive : r.status.isTerminal = false) : keep r.messageId = true := by
  cases hkeep : keep r.messageId with
  | true =>
      rfl
  | false =>
      rw [h.terminal r hr hkeep] at hlive
      cases hlive

theorem kept_of_pending (h : Conceals keep t t') {r : OutboxRow} (hr : r ∈ t')
    (hpending : r.status = .pending) : keep r.messageId = true :=
  h.kept_of_live hr (by rw [hpending]; rfl)

theorem kept_of_publishing (h : Conceals keep t t') {r : OutboxRow} (hr : r ∈ t')
    (hpublishing : r.status = .publishing) : keep r.messageId = true :=
  h.kept_of_live hr (by rw [hpublishing]; rfl)

theorem updateWhere (h : Conceals keep t t') {f : OutboxRow → OutboxRow}
    (hf : ∀ r, (f r).messageId = r.messageId)
    (hp : ∀ r ∈ t', p r = true → keep r.messageId = true) :
    Conceals keep (t.updateWhere p f hf) (t'.updateWhere p f hf) := by
  refine
    { restricts := h.restricts.updateWhere hf
      terminal := ?_ }
  intro r' hr' hgone
  rcases Table.mem_updateWhere.1 hr' with ⟨r, hr, rfl⟩
  by_cases hpr : p r = true
  · rw [if_pos hpr, hf, hp r hr hpr] at hgone
    cases hgone
  · rw [if_neg hpr] at hgone ⊢
    exact h.terminal r hr hgone

/-! ### Claims -/

theorem inflight_eq (h : Conceals keep t t') (c : OutboxRow) :
    inflight t.rows c = inflight t'.rows c := by
  apply h.restricts.any_eq
  intro r hr hcond
  simp only [Bool.and_eq_true, decide_eq_true_eq] at hcond
  exact h.kept_of_publishing hr hcond.2

theorem newerPending_eq (h : Conceals keep t t') (c : OutboxRow) :
    newerPending t.rows c = newerPending t'.rows c := by
  apply h.restricts.any_eq
  intro r hr hcond
  simp only [Bool.and_eq_true, decide_eq_true_eq] at hcond
  exact h.kept_of_pending hr hcond.1.2

theorem collapseWindow_eq (h : Conceals keep t t') (now : Timestamp) (limit : Nat) :
    collapseWindow now limit t.rows = collapseWindow now limit t'.rows := by
  have hsame : collapsible now t.rows = collapsible now t'.rows := by
    funext c
    rw [collapsible, collapsible, h.inflight_eq, h.newerPending_eq]
  have hrows : t.rows.filter (collapsible now t'.rows) =
      t'.rows.filter (collapsible now t'.rows) := by
    apply h.restricts.filter_eq
    intro r hr hcond
    exact h.kept_of_pending hr (collapsible_iff.1 hcond).1
  rw [collapseWindow, collapseWindow, hsame, hrows]

theorem collapsed (h : Conceals keep t t') (args : ClaimArgs) :
    Conceals keep (args.collapsed t) (args.collapsed t') := by
  unfold ClaimArgs.collapsed collapseStalePendingRows
  rw [h.collapseWindow_eq]
  apply h.updateWhere
  intro r hr hover
  exact h.kept_of_pending hr (overtakenBy_iff.1 hover).1

theorem candidates_eq (h : Conceals keep t t') (args : ClaimArgs) :
    args.candidates t = args.candidates t' := by
  have hc := h.collapsed args
  have hsame : claimable args.now (args.collapsed t).rows =
      claimable args.now (args.collapsed t').rows := by
    funext c
    rw [claimable, claimable, hc.inflight_eq, hc.newerPending_eq]
  unfold ClaimArgs.candidates claimCandidates
  rw [hsame, hc.restricts.filter_eq]
  intro r hr hcond
  simp only [Bool.and_eq_true] at hcond
  rcases status_of_claimable hcond.1 with hstatus | hstatus
  · exact hc.kept_of_pending hr hstatus
  · exact hc.kept_of_publishing hr hstatus

theorem kept_of_target (h : Conceals keep t t') (args : ClaimArgs) {r : OutboxRow}
    (htarget : targetOf (args.candidates t') r = true) : keep r.messageId = true := by
  rcases targetOf_iff.1 htarget with ⟨k, hk, hid⟩
  rcases mem_candidates hk with ⟨hmem, hclaim⟩
  rw [hid]
  rcases status_of_claimable hclaim with hstatus | hstatus
  · exact (h.collapsed args).kept_of_pending hmem hstatus
  · exact (h.collapsed args).kept_of_publishing hmem hstatus

theorem superseded (h : Conceals keep t t') (args : ClaimArgs) :
    Conceals keep (args.superseded t) (args.superseded t') := by
  unfold ClaimArgs.superseded
  rw [h.candidates_eq args]
  apply (h.collapsed args).updateWhere
  intro r hr hover
  exact (h.collapsed args).kept_of_pending hr (overtakenBy_iff.1 hover).1

/-- A claim leaves the same rows concealed, and returns the same rows in the same order. -/
theorem claimOutcome (h : Conceals keep t t') (args : ClaimArgs) :
    Conceals keep (claimOutcome args t).1 (claimOutcome args t').1 ∧
      (claimOutcome args t).2 = (claimOutcome args t').2 := by
  have hclaimed : Conceals keep (Outbox.claimOutcome args t).1 (Outbox.claimOutcome args t').1 := by
    rw [claimOutcome_fst, claimOutcome_fst, h.candidates_eq args]
    exact (h.superseded args).updateWhere (messageId_claim args)
      fun r _ htarget => h.kept_of_target args htarget
  refine ⟨hclaimed, ?_⟩
  have hreturned : (Outbox.claimOutcome args t).1.rows.filter (targetOf (args.candidates t)) =
      (Outbox.claimOutcome args t').1.rows.filter (targetOf (args.candidates t')) := by
    rw [h.candidates_eq args]
    exact hclaimed.restricts.filter_eq fun r _ htarget => h.kept_of_target args htarget
  change List.map _ (List.insertionSort _
      ((Outbox.claimOutcome args t).1.rows.filter (targetOf (args.candidates t)))) =
    List.map _ (List.insertionSort _
      ((Outbox.claimOutcome args t').1.rows.filter (targetOf (args.candidates t'))))
  rw [hreturned]

/-! ### Marks and enqueues -/

theorem kept_of_fenced (h : Conceals keep t t') {messageId claimId : Uuid} {r : OutboxRow}
    (hr : r ∈ t') (hfenced : fenced messageId claimId r = true) : keep r.messageId = true :=
  h.kept_of_publishing hr (fenced_iff.1 hfenced).2.1

theorem markUpdate (h : Conceals keep t t') (now : Timestamp) (mark : Mark)
    (messageId claimId : Uuid) :
    Conceals keep (markUpdate now mark messageId claimId t).1
        (markUpdate now mark messageId claimId t').1 ∧
      (Outbox.markUpdate now mark messageId claimId t).2 =
        (Outbox.markUpdate now mark messageId claimId t').2 := by
  constructor
  · exact h.updateWhere (messageId_assign mark now) fun r hr => h.kept_of_fenced hr
  · have haffected : t.rowsAffected (fenced messageId claimId) =
        t'.rowsAffected (fenced messageId claimId) :=
      h.restricts.rowsAffected_eq fun r hr => h.kept_of_fenced hr
    simp only [Outbox.markUpdate, haffected]

theorem insert? (h : Conceals keep t t') {r : OutboxRow} (hr : keep r.messageId = true) :
    (t.insert? r = none ∧ t'.insert? r = none) ∨
      ∃ u u', t.insert? r = some u ∧ t'.insert? r = some u' ∧ Conceals keep u u' := by
  rcases h.restricts.insert? hr with hnone | ⟨u, u', hins, hins', hrestricts⟩
  · exact Or.inl hnone
  · refine Or.inr ⟨u, u', hins, hins', hrestricts, ?_⟩
    intro r' hr' hgone
    rcases (Table.mem_of_insert? hins').1 hr' with hold | rfl
    · exact h.terminal r' hold hgone
    · rw [hr] at hgone
      cases hgone

theorem enqueueInner (h : Conceals keep t t') (visible : Uuid → Bool) (now : Timestamp)
    (order : Nat) {insert : InsertOutboxRow} (hid : keep insert.messageId = true) :
    Conceals keep (enqueueInner visible now order insert t).1
      (enqueueInner visible now order insert t').1 := by
  have hsuperseded : Conceals keep (supersedePendingOutboxRows visible insert.entityKey t)
      (supersedePendingOutboxRows visible insert.entityKey t') := by
    apply h.updateWhere
    intro r hr hcond
    simp only [supersedes, Bool.and_eq_true, decide_eq_true_eq] at hcond
    exact h.kept_of_pending hr hcond.2
  unfold Outbox.enqueueInner
  cases insert.idempotencyKey with
  | none =>
      rcases h.insert? (r := insert.row now order .failed (some "missing idempotency identity"))
        hid with ⟨hnone, hnone'⟩ | ⟨u, u', hins, hins', hu⟩
      · simpa only [hnone, hnone'] using h
      · simpa only [hins, hins'] using hu
  | some key =>
      rcases hsuperseded.insert? (r := insert.row now order .pending none) hid with
        ⟨hnone, hnone'⟩ | ⟨u, u', hins, hins', hu⟩
      · simpa only [hnone, hnone'] using h
      · simpa only [hins, hins'] using hu

end Conceals

/-! ## Runs with what they deliver -/

namespace Retention

/-- An outbox with what its relays got out of it. -/
structure Session where
  outbox : State
  /-- The batches handed out, oldest first. -/
  batches : List (List ClaimedOutboxRow)
  /-- The claimed rows given to the producer, oldest first. -/
  published : List ClaimedOutboxRow

inductive Event (P : Type) where
  | outbox (a : Action P)
  /-- A relay publishes a row of a batch, at any time after the claim and as often as it likes. -/
  | publish (batch row : Nat)

def Event.isPurge {P : Type} : Event P → Bool
  | .outbox (.purge _ _ _) => true
  | _ => false

section Sessions

variable {P : Type} (message : KafkaMessage P) (descriptor : MessageDescriptor)

/-- The batch an action hands out, if it is a claim. -/
def handedOut (t : OutboxTable) : Action P → List (List ClaimedOutboxRow)
  | .claim args => [(claimOutcome args t).2]
  | _ => []

def next (s : Session) : Event P → Option Session
  | .outbox a =>
      (Outbox.next message descriptor s.outbox a).map fun outbox =>
        { s with
          outbox := outbox
          batches := s.batches ++ handedOut s.outbox.table a }
  | .publish batch row =>
      (s.batches[batch]?.bind fun claimed => claimed[row]?).map fun claimed =>
        { s with published := s.published ++ [claimed] }

def Session.initial : Session :=
  { outbox := State.initial
    batches := []
    published := [] }

def system : TransitionSystem Session (Event P) :=
  { init := fun s => s = Session.initial
    next := next message descriptor }

/-- Whether an id is that of no purged row. -/
def kept (s : State) (messageId : Uuid) : Bool :=
  !(s.purged.map OutboxRow.messageId).contains messageId

/-- No enqueue takes the id of a purged row; none does when ids are never used twice. -/
def Unreused (s : Session) : Event P → Prop
  | .outbox (.enqueue _ evt _ _) => kept s.outbox evt.messageId = true
  | _ => True

/-! ### The simulation -/

/-- The report of the run without sweeps: the same, or a stale claim in place of a missing row. -/
def Relabelled (r r' : Report) : Prop :=
  r' = r ∨ r.outcome = .missing ∧ r' = { r with outcome := .staleClaim }

/-- A session beside the session of the same run without its sweeps. -/
structure Hidden (s s' : Session) : Prop where
  table : Conceals (kept s.outbox) s.outbox.table s'.outbox.table
  sequence : s'.outbox.sequence = s.outbox.sequence
  enqueued : s'.outbox.enqueued = s.outbox.enqueued
  claims : s'.outbox.claims = s.outbox.claims
  missed : s'.outbox.missed = s.outbox.missed
  reports : List.Forall₂ Relabelled s.outbox.reports s'.outbox.reports
  batches : s'.batches = s.batches
  published : s'.published = s.published
  /-- Without sweeps every row that was ever committed is still there. -/
  present : ∀ id, s'.outbox.table.HasKey id ↔ id ∈ s'.outbox.enqueued.map OutboxRow.messageId

theorem hidden_initial : Hidden Session.initial Session.initial :=
  { table :=
      { restricts := ⟨rfl⟩
        terminal := fun r hr => absurd hr Table.not_mem_empty }
    sequence := rfl
    enqueued := rfl
    claims := rfl
    missed := rfl
    reports := List.Forall₂.nil
    batches := rfl
    published := rfl
    present := fun id => by simp [Session.initial, State.initial, Table.HasKey] }

variable {s s' : Session}

theorem Hidden.markMissOutcome (h : Hidden s s') (messageId : Uuid) :
    markMissOutcome messageId s'.outbox.table =
      if messageId ∈ s.outbox.enqueued.map OutboxRow.messageId then .staleClaim
      else markMissOutcome messageId s.outbox.table := by
  have hpresent := h.present messageId
  rw [h.enqueued] at hpresent
  unfold Outbox.markMissOutcome
  by_cases hhas : s'.outbox.table.HasKey messageId
  · rw [if_pos hhas, if_pos (hpresent.1 hhas)]
  · have hhas' : ¬ s.outbox.table.HasKey messageId := fun hs =>
      hhas (h.table.restricts.hasKey_iff.1 hs).1
    rw [if_neg hhas, if_neg (fun hmem => hhas (hpresent.2 hmem)), if_neg hhas']

theorem Hidden.relabelled (h : Hidden s s') (messageId claimId : Uuid) :
    Relabelled
      { messageId := messageId
        claimId := claimId
        outcome := Outbox.markMissOutcome messageId s.outbox.table }
      { messageId := messageId
        claimId := claimId
        outcome := Outbox.markMissOutcome messageId s'.outbox.table } := by
  by_cases hhas : s.outbox.table.HasKey messageId
  · have hhas' : s'.outbox.table.HasKey messageId := (h.table.restricts.hasKey_iff.1 hhas).1
    refine Or.inl ?_
    rw [Outbox.markMissOutcome, Outbox.markMissOutcome, if_pos hhas, if_pos hhas']
  · have hmissing : Outbox.markMissOutcome messageId s.outbox.table = .missing := if_neg hhas
    by_cases hhas' : s'.outbox.table.HasKey messageId
    · exact Or.inr ⟨hmissing, by rw [Outbox.markMissOutcome, if_pos hhas']⟩
    · refine Or.inl ?_
      rw [hmissing, Outbox.markMissOutcome, if_neg hhas']

/-! ### Steps -/

/-- The state after a sweep that was not refused. -/
def swept (s : State) (victims : List OutboxRow) : State :=
  { s with
    table := s.table.deleteWhere (victimOf victims)
    purged := s.table.rows.filter (victimOf victims) ++ s.purged }

theorem kept_swept {o : State} {victims : List OutboxRow} {r : OutboxRow}
    (hr : kept o r.messageId = true → r ∈ o.table) :
    kept (swept o victims) r.messageId = (kept o r.messageId && !victimOf victims r) := by
  have hswept : kept (swept o victims) r.messageId =
      (!((o.table.rows.filter (victimOf victims)).map OutboxRow.messageId).contains r.messageId &&
        kept o r.messageId) := by
    simp only [kept, swept, List.map_append, List.contains_append, Bool.not_or]
  cases hkept : kept o r.messageId with
  | false =>
      rw [hswept, hkept, Bool.and_false, Bool.false_and]
  | true =>
      have hvictim : ((o.table.rows.filter (victimOf victims)).map OutboxRow.messageId).contains
          r.messageId = victimOf victims r := by
        rw [Bool.eq_iff_iff, List.contains_iff_mem, List.mem_map]
        constructor
        · -- Victims are told by their id alone.
          rintro ⟨v, hv, hid⟩
          have hvictim := (List.mem_filter.1 hv).2
          simp only [victimOf, hid] at hvictim ⊢
          exact hvictim
        · intro hvictim
          exact ⟨r, List.mem_filter.2 ⟨hr hkept, hvictim⟩, rfl⟩
      rw [hswept, hvictim, hkept, Bool.and_true, Bool.true_and]

/-- A sweep only conceals more. -/
theorem hidden_purge {now : Timestamp} {cfg : PurgeConfig} {locked : Uuid → Bool}
    (h : Hidden s s') : Hidden { s with outbox := commitPurge s.outbox now cfg locked } s' := by
  rcases commitPurge_cases s.outbox now cfg locked with hrefused | hswept
  · rw [hrefused]
    exact h
  · rw [hswept]
    have hkept : ∀ r ∈ s'.outbox.table,
        kept (swept s.outbox (purgeVictims now cfg locked s.outbox.table.rows)) r.messageId =
          (kept s.outbox r.messageId &&
            !victimOf (purgeVictims now cfg locked s.outbox.table.rows) r) :=
      fun r hr => kept_swept fun hkept => h.table.restricts.mem_iff.2 ⟨hr, hkept⟩
    exact
      { h with
        table :=
          { restricts := h.table.restricts.deleteWhere hkept
            terminal := by
              intro r hr hgone
              -- Concealed before this sweep, or deleted by it.
              cases hbefore : kept s.outbox r.messageId with
              | false =>
                  exact h.table.terminal r hr hbefore
              | true =>
                  have hvictim : victimOf (purgeVictims now cfg locked s.outbox.table.rows) r =
                      true := by
                    have hnow := (hkept r hr).symm.trans hgone
                    simpa [hbefore] using hnow
                  exact isTerminal_of_reclaimable (reclaimable_of_victimOf
                    (h.table.restricts.mem_iff.2 ⟨hr, hbefore⟩) hvictim) } }

theorem hidden_enqueue {now : Timestamp} {insert : InsertOutboxRow} {visible : Uuid → Bool}
    (h : Hidden s s') (hid : kept s.outbox insert.messageId = true) :
    Hidden { s with outbox := commitInsert s.outbox now insert visible }
      { s' with outbox := commitInsert s'.outbox now insert visible } := by
  have hhas : s'.outbox.table.HasKey insert.messageId ↔ s.outbox.table.HasKey insert.messageId := by
    rw [h.table.restricts.hasKey_iff, hid]
    simp
  refine
    { h with
      table := ?_
      sequence := congrArg (· + 1) h.sequence
      enqueued := ?_
      present := ?_ }
  · simp only [commitInsert, h.sequence]
    exact h.table.enqueueInner visible now s.outbox.sequence hid
  · simp only [commitInsert, hhas, h.enqueued, h.sequence]
  · intro id
    by_cases hkey : s'.outbox.table.HasKey insert.messageId
    · simp only [commitInsert, enqueueInner_of_hasKey hkey, if_pos hkey]
      exact h.present id
    -- An enqueue rewrites statuses and adds one row; the ids of the others stay.
    · have hnew : ∀ id, (commitInsert s'.outbox now insert visible).table.HasKey id ↔
          s'.outbox.table.HasKey id ∨ insert.messageId = id := by
        intro id
        constructor
        · rintro ⟨r, hr, rfl⟩
          rcases (mem_enqueueInner hkey).1 hr with ⟨r₀, hr₀, rfl⟩ | rfl
          · refine Or.inl ⟨r₀, hr₀, ?_⟩
            split <;> rfl
          · exact Or.inr messageId_inserted.symm
        · rintro (⟨r, hr, rfl⟩ | rfl)
          · refine ⟨_, (mem_enqueueInner hkey).2 (Or.inl ⟨r, hr, rfl⟩), ?_⟩
            split <;> rfl
          · exact ⟨_, (mem_enqueueInner hkey).2 (Or.inr rfl), messageId_inserted⟩
      rw [hnew, h.present id]
      simp only [commitInsert, if_neg hkey, List.map_cons, List.mem_cons, messageId_inserted,
        eq_comm (a := id)]
      exact or_comm

theorem hidden_claim {args : ClaimArgs} (h : Hidden s s') :
    Hidden
      { s with
        outbox := commitClaim s.outbox args
        batches := s.batches ++ [(claimOutcome args s.outbox.table).2] }
      { s' with
        outbox := commitClaim s'.outbox args
        batches := s'.batches ++ [(claimOutcome args s'.outbox.table).2] } := by
  rcases h.table.claimOutcome args with ⟨hclaimed, hreturned⟩
  refine
    { h with
      table := hclaimed
      claims := ?_
      batches := ?_
      present := ?_ }
  · simp only [commitClaim, hreturned, h.claims]
  · simp only [hreturned, h.batches]
  · intro id
    refine Iff.trans ?_ (h.present id)
    change (claimOutcome args s'.outbox.table).1.HasKey id ↔ _
    -- The claim's three updates leave the ids alone.
    rw [claimOutcome_fst, Table.hasKey_updateWhere, ClaimArgs.superseded, Table.hasKey_updateWhere,
      ClaimArgs.collapsed, collapseStalePendingRows, Table.hasKey_updateWhere]

theorem hidden_mark {now : Timestamp} {mark : Mark} {messageId claimId : Uuid}
    (h : Hidden s s') :
    Hidden { s with outbox := commitMark s.outbox now mark messageId claimId }
      { s' with outbox := commitMark s'.outbox now mark messageId claimId } := by
  rcases h.table.markUpdate now mark messageId claimId with ⟨hmarked, hhit⟩
  refine
    { h with
      table := hmarked
      missed := ?_
      reports := ?_
      present := ?_ }
  · simp only [commitMark, hhit, h.missed]
  · simp only [commitMark, hhit]
    split
    · exact List.Forall₂.cons (Or.inl rfl) h.reports
    · exact h.reports
  · intro id
    refine Iff.trans ?_ (h.present id)
    exact @Table.hasKey_updateWhere _ _ _ _ _ _ (messageId_assign mark now) id

theorem hidden_classify {messageId claimId : Uuid} (h : Hidden s s') :
    Hidden
      { s with
        outbox :=
          { s.outbox with
            missed := s.outbox.missed.erase (messageId, claimId)
            reports :=
              { messageId := messageId
                claimId := claimId
                outcome := Outbox.markMissOutcome messageId s.outbox.table } ::
                s.outbox.reports } }
      { s' with
        outbox :=
          { s'.outbox with
            missed := s'.outbox.missed.erase (messageId, claimId)
            reports :=
              { messageId := messageId
                claimId := claimId
                outcome := Outbox.markMissOutcome messageId s'.outbox.table } ::
                s'.outbox.reports } } :=
  { h with
    missed := congrArg (List.erase · (messageId, claimId)) h.missed
    reports := List.Forall₂.cons (h.relabelled messageId claimId) h.reports }

variable {message descriptor}

/-- Every step but a sweep is a step of the other run too. -/
theorem hidden_follow {t : Session} {e : Event P} (h : Hidden s s') (hunreused : Unreused s e)
    (hnext : next message descriptor s e = some t) (hpurge : e.isPurge = false) :
    ∃ t', next message descriptor s' e = some t' ∧ Hidden t t' := by
  cases e with
  | publish batch row =>
      rcases Option.map_eq_some_iff.1 hnext with ⟨claimed, hrow, rfl⟩
      refine ⟨{ s' with published := s'.published ++ [claimed] }, ?_, ?_⟩
      · simp only [next, h.batches, hrow, Option.map_some]
      · exact { h with published := congrArg (· ++ [claimed]) h.published }
  | outbox a =>
      rcases Option.map_eq_some_iff.1 hnext with ⟨outbox, houtbox, rfl⟩
      cases a with
      | enqueue now evt trace visible =>
          simp only [Outbox.next] at houtbox
          cases hprepare : prepareInsert message descriptor evt trace with
          | error error =>
              rw [hprepare] at houtbox
              cases houtbox
              refine ⟨s', ?_, by simpa [handedOut] using h⟩
              simp [next, Outbox.next, hprepare, handedOut]
          | ok insert =>
              rw [hprepare] at houtbox
              cases houtbox
              rcases prepareInsert_eq_ok.1 hprepare with ⟨-, _, -, _, -, _, -, hinsert⟩
              -- An id that a sweep has freed would be a duplicate in the run that never sweeps.
              have hid : kept s.outbox insert.messageId = true := by
                rw [hinsert]
                exact hunreused
              refine ⟨{ s' with outbox := commitInsert s'.outbox now insert visible }, ?_, ?_⟩
              · simp [next, Outbox.next, hprepare, handedOut]
              · simpa [handedOut] using hidden_enqueue h hid
      | enqueueRolledBack =>
          cases houtbox
          refine ⟨{ s' with outbox := { s'.outbox with sequence := s'.outbox.sequence + 1 } },
            ?_, ?_⟩
          · simp [next, Outbox.next, handedOut]
          · simp only [handedOut, List.append_nil]
            exact { h with sequence := congrArg (· + 1) h.sequence }
      | claim args =>
          simp only [Outbox.next] at houtbox
          split at houtbox
          · cases houtbox
          · rename_i hfresh
            cases houtbox
            refine ⟨_, ?_, hidden_claim h⟩
            simp only [next, Outbox.next, h.claims, if_neg hfresh, Option.map_some, handedOut]
      | mark now mark messageId claimId =>
          cases houtbox
          refine ⟨{ s' with outbox := commitMark s'.outbox now mark messageId claimId }, ?_, ?_⟩
          · simp [next, Outbox.next, handedOut]
          · simpa [handedOut] using hidden_mark h
      | classifyMiss messageId claimId =>
          simp only [Outbox.next] at houtbox
          split at houtbox
          · rename_i hmissed
            cases houtbox
            refine ⟨_, ?_, by simpa [handedOut] using hidden_classify h⟩
            simp only [next, Outbox.next, h.missed, if_pos hmissed, Option.map_some, handedOut,
              List.append_nil]
          · cases houtbox
      | purge now cfg locked =>
          cases hpurge

theorem hidden_silent {t : Session} {e : Event P} (h : Hidden s s')
    (hnext : next message descriptor s e = some t) (hpurge : e.isPurge = true) : Hidden t s' := by
  cases e with
  | publish batch row =>
      cases hpurge
  | outbox a =>
      cases a with
      | purge now cfg locked =>
          cases hnext
          simpa [handedOut] using hidden_purge h
      | enqueue now evt trace visible =>
          cases hpurge
      | enqueueRolledBack =>
          cases hpurge
      | claim args =>
          cases hpurge
      | mark now mark messageId claimId =>
          cases hpurge
      | classifyMiss messageId claimId =>
          cases hpurge

end Sessions

/-! ### The whole run -/

/-- What a run and the same run without its sweeps have in common. -/
structure Invisible (s s' : Session) : Prop where
  /-- Every claim returned the same rows in the same order. -/
  batches : s'.batches = s.batches
  /-- Everything was published in the same order. -/
  published : s'.published = s.published
  /-- A mark takes effect in both or in neither. -/
  hits : ∀ now mark messageId claimId,
    (markUpdate now mark messageId claimId s'.outbox.table).2 =
      (markUpdate now mark messageId claimId s.outbox.table).2
  /-- A mark that misses is told of a stale claim wherever there ever was a row. -/
  misses : ∀ messageId, markMissOutcome messageId s'.outbox.table =
    if messageId ∈ s.outbox.enqueued.map OutboxRow.messageId then .staleClaim
    else markMissOutcome messageId s.outbox.table
  reports : List.Forall₂ Relabelled s.outbox.reports s'.outbox.reports
  /-- The tables agree on the rows not purged. -/
  rows : s.outbox.table.rows = s'.outbox.table.rows.filter fun r =>
    !(s.outbox.purged.map OutboxRow.messageId).contains r.messageId

theorem Hidden.invisible {s s' : Session} (h : Hidden s s') : Invisible s s' :=
  { batches := h.batches
    published := h.published
    hits := fun now mark messageId claimId =>
      (h.table.markUpdate now mark messageId claimId).2.symm
    misses := h.markMissOutcome
    reports := h.reports
    rows := h.table.restricts.rows }

/-- **Purging is invisible to delivery.**  A run whose sweeps are taken out is a run, and nothing but
the purged rows and the `Missing` of their marks tells the two apart. -/
theorem purge_invisible {P : Type} (message : KafkaMessage P) (descriptor : MessageDescriptor)
    {es : List (Event P)} {s : Session}
    (hunreused : (system message descriptor).runOk Unreused Session.initial es)
    (hrun : (system message descriptor).run Session.initial es = some s) :
    ∃ s', (system message descriptor).run Session.initial (es.filter fun e => !e.isPurge) =
        some s' ∧ Invisible s s' := by
  have hsilent : ∀ s s' t (e : Event P), Hidden s s' → Unreused s e →
      (system message descriptor).next s e = some t → e.isPurge = true → Hidden t s' :=
    fun s s' t e h _ hnext hpurge => hidden_silent h hnext hpurge
  have hfollow : ∀ s s' t (e : Event P), Hidden s s' → Unreused s e →
      (system message descriptor).next s e = some t → e.isPurge = false →
      ∃ t', (system message descriptor).next s' e = some t' ∧ Hidden t t' :=
    fun s s' t e h hok hnext hpurge => hidden_follow h hok hnext hpurge
  rcases TransitionSystem.run_erase hsilent hfollow hidden_initial hunreused hrun with
    ⟨s', hrun', hhidden⟩
  exact ⟨s', hrun', hhidden.invisible⟩

instance {P : Type} (s : Session) (e : Event P) : Decidable (Unreused s e) :=
  match e with
  | .outbox (.enqueue _ evt _ _) =>
      inferInstanceAs (Decidable (kept s.outbox evt.messageId = true))
  | .outbox .enqueueRolledBack | .outbox (.claim _) | .outbox (.mark _ _ _ _)
  | .outbox (.classifyMiss _ _) | .outbox (.purge _ _ _) | .publish _ _ => isTrue trivial

/-- A row is published, marked and purged; then its relay marks it again. -/
def purgedRun : List (Event Snapshot) :=
  [.outbox (Snapshot.enqueue 0 1 { entity := "a", state := "x" }),
    .outbox (.claim (Snapshot.claim 1 1)),
    .publish 0 0,
    .outbox (.mark 2 .published 1 1),
    .outbox (.purge (8 * 24 * 60 * 60 * 1000000) default fun _ => false),
    .outbox (.mark 3 .published 1 1),
    .outbox (.classifyMiss 1 1)]

theorem purge_invisible_missing :
    ∃ s s', (system Snapshot.message Snapshot.descriptor).run Session.initial purgedRun = some s ∧
      (system Snapshot.message Snapshot.descriptor).run Session.initial
        (purgedRun.filter fun e => !e.isPurge) = some s' ∧
      s.outbox.table.rows.length = 0 ∧ s.published.length = 1 ∧
      s.outbox.reports.map Report.outcome = [.missing, .updated] ∧ Invisible s s' := by
  obtain ⟨s, hrun, hrows, hpublished, hreports⟩ :
      ∃ s, (system Snapshot.message Snapshot.descriptor).run Session.initial purgedRun = some s ∧
        s.outbox.table.rows.length = 0 ∧ s.published.length = 1 ∧
        s.outbox.reports.map Report.outcome = [.missing, .updated] :=
    TransitionSystem.exists_of_run (by decide +kernel)
  rcases purge_invisible Snapshot.message Snapshot.descriptor (by decide +kernel) hrun with
    ⟨s', hrun', hinvisible⟩
  exact ⟨s, s', hrun, hrun', hrows, hpublished, hreports, hinvisible⟩

end Retention
end Outbox
end Kafkaman
