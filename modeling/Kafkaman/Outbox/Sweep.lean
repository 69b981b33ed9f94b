import Kafkaman.Lib.Paging
import Kafkaman.Lib.PollingLoop
import Kafkaman.Outbox.System

/-!
# Outbox.Sweep — the retention loop

`run_purger` validates and then sweeps: straight on while a batch deletes rows, after a sleep once
one comes back empty or fails.  A sweep is one statement; it passes by the rows another session has
locked, and it may be reported as failed although it took effect.

* `sweep`, `runPurger` — a batch and the loop;
* `Swept` — what a batch that went through deletes: how much, which rows, and which first;
* `purger_reclaims` — the loop to its sleep.
-/

namespace Kafkaman
namespace Outbox

open Lib

/-! ## The loop -/

/-- What one sweep meets. -/
structure SweepEnv where
  now : Timestamp
  locked : Uuid → Bool
  /-- The database error of the statement, if it fails, and whether it took effect. -/
  fails : Option String
  lands : Bool

inductive SweepError where
  | invalidConfig (error : InvalidPurgeConfig)
  | database (error : String)
  deriving DecidableEq, Repr

abbrev SweepMoment := Moment SweepEnv OutboxTable (Except SweepError Nat)

/-- A sweep in its loop: it found work if it deleted rows, and an error counts none. -/
def sweep (cfg : PurgeConfig) (t : OutboxTable) (env : SweepEnv) :
    Polled OutboxTable (Except SweepError Nat) :=
  match purgeOutboxOnce env.now cfg env.locked t with
  | .error error =>
      { state := t
        report := .error (.invalidConfig error)
        busy := false }
  | .ok (purged, deleted) =>
      match env.fails with
      | some error =>
          { state := if env.lands then purged else t
            report := .error (.database error)
            busy := false }
      | none =>
          { state := purged
            report := .ok deleted
            busy := 0 < deleted }

def runPurger (cfg : PurgeConfig) (t : OutboxTable) (turns : List (Turn SweepEnv)) :
    Except InvalidPurgeConfig (List SweepMoment) := do
  cfg.validate
  return pollLoop (sweep cfg) t turns

/-! ## One batch -/

section Batch

variable {now : Timestamp} {cfg : PurgeConfig} {locked : Uuid → Bool} {t : OutboxTable}
  {r r' : OutboxRow}

/-- What a batch that went through leaves of a table. -/
structure Swept (now : Timestamp) (cfg : PurgeConfig) (locked : Uuid → Bool)
    (t t' : OutboxTable) (deleted : Nat) : Prop where
  kept : ∀ r ∈ t', r ∈ t
  gone : ∀ r ∈ t, r ∉ t' → reclaimable now cfg r = true ∧ locked r.messageId = false
  count : t'.rows.length + deleted = t.rows.length
  bounded : (deleted : Int) ≤ cfg.batchSize
  /-- The oldest rows go first. -/
  oldest : ∀ r ∈ t, r ∉ t' → ∀ r' ∈ t', reclaimable now cfg r' = true →
    locked r'.messageId = false → r.createdAt ≤ r'.createdAt
  /-- A batch that is not full has taken everything it could. -/
  exhausted : (deleted : Int) < cfg.batchSize → ∀ r' ∈ t', reclaimable now cfg r' = true →
    locked r'.messageId = true

theorem mem_purgeVictims_table (h : r ∈ purgeVictims now cfg locked t.rows) :
    r ∈ t ∧ reclaimable now cfg r = true ∧ locked r.messageId = false := by
  rcases List.mem_filter.1 (mem_of_mem_orderByLimit h) with ⟨hr, hcond⟩
  simp only [Bool.and_eq_true, Bool.not_eq_true'] at hcond
  exact ⟨hr, hcond⟩

theorem victimOf_purgeVictims (hr : r ∈ t) :
    victimOf (purgeVictims now cfg locked t.rows) r = true ↔
      r ∈ purgeVictims now cfg locked t.rows := by
  constructor
  · intro h
    rcases List.any_eq_true.1 h with ⟨v, hv, heq⟩
    rw [Table.eq_of_key_eq hr (mem_purgeVictims_table hv).1 (by simpa using heq)]
    exact hv
  · exact fun h => List.any_eq_true.2 ⟨r, h, by simp⟩

theorem length_purgeVictims :
    (purgeVictims now cfg locked t.rows).length = min cfg.batchSize.toNat
      (t.rows.filter fun r => reclaimable now cfg r && !locked r.messageId).length := by
  simp [purgeVictims, orderByLimit]

theorem rowsAffected_victimOf :
    t.rowsAffected (victimOf (purgeVictims now cfg locked t.rows)) =
      (purgeVictims now cfg locked t.rows).length := by
  have hrows : t.rows.Nodup := List.Nodup.of_map _ t.primaryKey
  have hvictims : (purgeVictims now cfg locked t.rows).Nodup :=
    ((ordered_perm _).nodup_iff.2 (hrows.filter _)).sublist (List.take_sublist _ _)
  refine List.Perm.length_eq ((List.perm_ext_iff_of_nodup (hrows.filter _) hvictims).2 ?_)
  intro r
  rw [List.mem_filter]
  constructor
  · exact fun h => (victimOf_purgeVictims h.1).1 h.2
  · intro h
    have hr := (mem_purgeVictims_table h).1
    exact ⟨hr, (victimOf_purgeVictims hr).2 h⟩

theorem createdAt_le_of_victim (hr : r ∈ purgeVictims now cfg locked t.rows) (hr' : r' ∈ t)
    (hcond : reclaimable now cfg r' = true ∧ locked r'.messageId = false)
    (hnot : r' ∉ purgeVictims now cfg locked t.rows) : r.createdAt ≤ r'.createdAt := by
  have hselected : r' ∈ ordered OutboxRow.createdAt
      (t.rows.filter fun r => reclaimable now cfg r && !locked r.messageId) := by
    rw [mem_ordered, List.mem_filter]
    exact ⟨hr', by simp [hcond]⟩
  have hsorted := ordered_pairwise OutboxRow.createdAt
    (t.rows.filter fun r => reclaimable now cfg r && !locked r.messageId)
  rw [← List.take_append_drop cfg.batchSize.toNat (ordered _ _)] at hsorted hselected
  have hlater := (List.mem_append.1 hselected).resolve_left hnot
  exact (List.pairwise_append.1 hsorted).2.2 r hr r' hlater

theorem swept_deleteWhere (hsize : 0 < cfg.batchSize) :
    Swept now cfg locked t (t.deleteWhere (victimOf (purgeVictims now cfg locked t.rows)))
      (t.rowsAffected (victimOf (purgeVictims now cfg locked t.rows))) := by
  have hgone : ∀ r ∈ t, r ∉ t.deleteWhere (victimOf (purgeVictims now cfg locked t.rows)) →
      r ∈ purgeVictims now cfg locked t.rows := by
    intro r hr hnot
    rw [← victimOf_purgeVictims hr]
    simpa [Table.mem_deleteWhere, hr] using hnot
  have hkept : ∀ r ∈ t.deleteWhere (victimOf (purgeVictims now cfg locked t.rows)),
      r ∈ t ∧ r ∉ purgeVictims now cfg locked t.rows := by
    intro r hr
    rcases Table.mem_deleteWhere.1 hr with ⟨hmem, hnot⟩
    refine ⟨hmem, fun hv => ?_⟩
    rw [(victimOf_purgeVictims hmem).2 hv] at hnot
    cases hnot
  have hlength := @length_purgeVictims now cfg locked t
  refine
    { kept := fun r hr => (hkept r hr).1
      gone := fun r hr hnot => (mem_purgeVictims_table (hgone r hr hnot)).2
      count := ?_
      bounded := ?_
      oldest := ?_
      exhausted := ?_ }
  · have := List.length_eq_length_filter_add (l := t.rows)
      (victimOf (purgeVictims now cfg locked t.rows))
    simp only [Table.deleteWhere, Table.rowsAffected]
    omega
  · rw [rowsAffected_victimOf]
    omega
  · intro r hr hnot r' hr' hreclaimable hfree
    rcases hkept r' hr' with ⟨hmem, hleft⟩
    exact createdAt_le_of_victim (hgone r hr hnot) hmem ⟨hreclaimable, hfree⟩ hleft
  · intro hfew r' hr' hreclaimable
    rcases hkept r' hr' with ⟨hmem, hleft⟩
    rw [rowsAffected_victimOf] at hfew
    by_contra hfree
    refine hleft (mem_orderByLimit_of_length_le (by omega) (List.mem_filter.2 ⟨hmem, ?_⟩))
    simpa [hreclaimable] using hfree

end Batch

/-! ## The loop to its sleep -/

section Loop

variable {cfg : PurgeConfig} {t t' : OutboxTable} {env : SweepEnv}

theorem batchSize_pos_of_validate (h : cfg.validate = .ok ()) : 0 < cfg.batchSize := by
  unfold PurgeConfig.validate at h
  split at h
  · cases h
  · split at h
    · cases h
    · omega

theorem sweep_cases (hvalid : cfg.validate = .ok ()) (t : OutboxTable) (env : SweepEnv) :
    (∃ deleted, Swept env.now cfg env.locked t (sweep cfg t env).state deleted ∧
        (sweep cfg t env).report = .ok deleted ∧ (sweep cfg t env).busy = decide (0 < deleted)) ∨
      ∃ error, (sweep cfg t env).report = .error (.database error) ∧
        (sweep cfg t env).busy = false := by
  have honce : purgeOutboxOnce env.now cfg env.locked t =
      .ok (t.deleteWhere (victimOf (purgeVictims env.now cfg env.locked t.rows)),
        t.rowsAffected (victimOf (purgeVictims env.now cfg env.locked t.rows))) := by
    rw [purgeOutboxOnce, hvalid]
    rfl
  cases hfails : env.fails with
  | some error =>
      exact Or.inr ⟨error, by simp only [sweep, honce, hfails], by simp only [sweep, honce, hfails]⟩
  | none =>
      refine Or.inl ⟨t.rowsAffected (victimOf (purgeVictims env.now cfg env.locked t.rows)),
        ?_, ?_, ?_⟩
      · simp only [sweep, honce, hfails]
        exact swept_deleteWhere (batchSize_pos_of_validate hvalid)
      · simp only [sweep, honce, hfails]
      · simp only [sweep, honce, hfails]

/-- Batches one after the other, from one table to another: what each deleted, in all. -/
inductive Sweeps (cfg : PurgeConfig) (t : OutboxTable) :
    List SweepMoment → OutboxTable → Nat → Prop where
  | refl : Sweeps cfg t [] t 0
  | step {history : List SweepMoment} {t' : OutboxTable} {total deleted : Nat} {x : SweepMoment} :
      Sweeps cfg t history t' total → x.report = .ok deleted → 0 < deleted →
      Swept x.input.now cfg x.input.locked t' x.state deleted →
      Sweeps cfg t (history ++ [x]) x.state (total + deleted)

namespace Sweeps

variable {history : List SweepMoment} {total : Nat}

theorem kept (h : Sweeps cfg t history t' total) : ∀ r ∈ t', r ∈ t := by
  induction h with
  | refl => exact fun r hr => hr
  | step _ _ _ hswept ih => exact fun r hr => ih r (hswept.kept r hr)

theorem count (h : Sweeps cfg t history t' total) :
    t'.rows.length + total = t.rows.length := by
  induction h with
  | refl => rfl
  | step _ _ _ hswept ih =>
      have := hswept.count
      omega

theorem reclaimable_mono {now latest : Timestamp} (h : now ≤ latest) {r : OutboxRow}
    (hr : reclaimable now cfg r = true) : reclaimable latest cfg r = true := by
  simp only [reclaimable, Bool.and_eq_true, decide_eq_true_eq] at hr ⊢
  exact ⟨hr.1, hr.2.trans_le (Int.sub_le_sub_right h _)⟩

theorem gone (h : Sweeps cfg t history t' total) {latest : Timestamp}
    (hnow : ∀ x ∈ history, x.input.now ≤ latest) :
    ∀ r ∈ t, r ∉ t' → reclaimable latest cfg r = true := by
  induction h with
  | refl => exact fun r hr hnot => absurd hr hnot
  | @step history t' total deleted x _ _ _ hswept ih =>
      intro r hr hnot
      by_cases hmem : r ∈ t'
      · exact reclaimable_mono (hnow x (by simp)) (hswept.gone r hmem hnot).1
      · exact ih (fun y hy => hnow y (List.mem_append_left _ hy)) r hr hmem

end Sweeps

theorem reclaimable_lt_of_swept {deleted : Nat} {latest : Timestamp} (hnow : env.now ≤ latest)
    (h : Swept env.now cfg env.locked t t' deleted) (hpos : 0 < deleted) :
    t'.rowsAffected (reclaimable latest cfg) < t.rowsAffected (reclaimable latest cfg) := by
  have hcount := h.count
  -- Some row is gone, and it was one of them.
  obtain ⟨r, hr, hnot⟩ : ∃ r ∈ t, r ∉ t' := by
    by_contra hall
    push Not at hall
    have hsubset := List.subperm_of_subset (List.Nodup.of_map _ t.primaryKey) hall
    have := hsubset.length_le
    omega
  have hmono := Sweeps.reclaimable_mono hnow (h.gone r hr hnot).1
  have hkeys : ∀ id ∈ [r.messageId], ∃ r ∈ t,
      reclaimable latest cfg r = true ∧ r.messageId = id := by
    intro id hid
    exact ⟨r, hr, hmono, (List.mem_singleton.1 hid).symm⟩
  refine Table.rowsAffected_add_le (List.nodup_singleton _) hkeys ?_
  intro r' hr' hreclaimable
  refine ⟨fun hid => ?_, r', h.kept r' hr', hreclaimable, rfl⟩
  rw [Table.eq_of_key_eq (h.kept r' hr') hr (List.mem_singleton.1 hid)] at hr'
  exact hnot hr'

theorem mem_iff_of_swept {now : Timestamp} {locked : Uuid → Bool}
    (h : Swept now cfg locked t t' 0) (r : OutboxRow) : r ∈ t' ↔ r ∈ t := by
  have hsubset := List.subperm_of_subset (List.Nodup.of_map _ t'.primaryKey) h.kept
  exact (hsubset.perm_of_length_le h.count.ge).mem_iff

end Loop

namespace Backlog

def config : PurgeConfig :=
  { olderThan := 10
    batchSize := 1
    pollInterval := 60
    includeFailed := false }

def turn (n : Nat) : Turn SweepEnv :=
  { cancelled := false
    input :=
      { now := 100
        locked := fun id => id = 2
        fails := none
        lands := true }
    wakes := n < 3 }

/-- Three states of one entity and one of another. -/
def enqueued : List (Action Snapshot) :=
  [Snapshot.enqueue 0 1 ⟨"a", "x"⟩, Snapshot.enqueue 1 2 ⟨"a", "y"⟩,
    Snapshot.enqueue 2 3 ⟨"a", "z"⟩, Snapshot.enqueue 3 4 ⟨"b", "x"⟩]

end Backlog

end Outbox
end Kafkaman
