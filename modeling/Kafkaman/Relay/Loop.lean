import Kafkaman.Lib.PollingLoop
import Kafkaman.Outbox.Progress
import Kafkaman.Relay.Events

/-!
# Relay.Loop — the relay loop over the outbox

`run` as the source has it: validate, then cycle after cycle, straight on after a cycle that claimed
rows and after a sleep otherwise.  The cycle works on the table: one claim, then publish and mark row
by row, where the claim, a publish and a mark may each fail.

With the outbox to itself, a relay whose claims and marks go through gets to its sleep.  Each cycle
takes rows that are due and leaves them published or put off, so there are at most as many of them as
rows were due; and what is then left of an entity is waiting because one of its publishes failed.

* `RelayConfig.validate` — what the loop refuses to start with;
* `relayBatch`, `relayOnceInner`, `run` — the rows, the cycle and the loop;
* `Undisturbed` — a cycle whose claim and marks go through, and what it does to the table;
* `Draining` — where the loop is after cycles that all had rows;
* `relay_drains` — the loop sleeps after so many cycles, and why anything is left then.
-/

namespace Kafkaman
namespace Relay
namespace Loop

open Lib Outbox

/-! ## The loop -/

/-- `RelayConfig`; its sampling rate is in the sampler the loop starts with. -/
structure RelayConfig where
  workerId : String
  batchLimit : Int
  leaseFor : Micros
  retryAfter : Micros
  pollInterval : Micros

/-- `Error::InvalidRelayConfig`. -/
structure InvalidRelayConfig where
  field : String
  reason : String
  deriving DecidableEq, Repr

/-- A zero `retryAfter` is legitimate, and the only zero that is. -/
def RelayConfig.validate (cfg : RelayConfig) : Except InvalidRelayConfig Unit :=
  if cfg.leaseFor = 0 then
    .error
      { field := "lease_for"
        reason := "must be greater than zero; a claim that expires as it is taken " ++
          "lets another worker reclaim and republish in a tight loop" }
  else if cfg.batchLimit ≤ 0 then
    .error
      { field := "batch_limit"
        reason := "must be greater than zero" }
  else if cfg.pollInterval = 0 then
    .error
      { field := "poll_interval"
        reason := "must be greater than zero; it is the only thing that yields between empty polls" }
  else
    .ok ()

/-- What one cycle meets. -/
structure CycleEnv where
  now : Timestamp
  claimId : Uuid
  locked : Uuid → Bool
  /-- The error of the claim transaction, if it fails, and whether its `COMMIT` took effect. -/
  claimFails : Option String
  claimLands : Bool
  /-- The failure the publisher reports for a row, or `none` for an acknowledgement. -/
  publishes : ClaimedOutboxRow → Option String
  markedAt : ClaimedOutboxRow → Timestamp
  /-- The database error of a row's mark, if it fails, and whether the `UPDATE` took effect. -/
  markFails : ClaimedOutboxRow → Option String
  markLands : ClaimedOutboxRow → Bool

def CycleEnv.claimArgs (cfg : RelayConfig) (env : CycleEnv) : ClaimArgs :=
  { now := env.now
    workerId := cfg.workerId
    leaseFor := cfg.leaseFor
    limit := cfg.batchLimit.toNat
    claimId := env.claimId
    locked := env.locked }

section Cycle

variable (cfg : RelayConfig) (env : CycleEnv)

/-- Publish a row and record what happened to it. -/
def relayRow (t : OutboxTable) (claimed : ClaimedOutboxRow) : OutboxTable × Relayed :=
  let marked := markWith (env.markedAt claimed) (markOf (env.publishes claimed) cfg.retryAfter)
    claimed.messageId claimed.claimId t
  match env.markFails claimed with
  | some error =>
      (if env.markLands claimed then marked.1 else t,
        { claimed := claimed
          failure := env.publishes claimed
          marked := .error error })
  | none =>
      (marked.1,
        { claimed := claimed
          failure := env.publishes claimed
          marked := .ok marked.2 })

/-- The rows in claim order, up to a mark that returns a database error. -/
def relayBatch (t : OutboxTable) : List ClaimedOutboxRow → OutboxTable × List Relayed
  | [] => (t, [])
  | claimed :: rest =>
      let row := relayRow cfg env t claimed
      match row.2.marked with
      | .error _ => (row.1, [row.2])
      | .ok _ =>
          let after := relayBatch row.1 rest
          (after.1, row.2 :: after.2)

/-- A cycle that has ended. -/
structure Cycled where
  table : OutboxTable
  relayed : List Relayed
  ended : CycleEnd

/-- `relay_once_inner`; the stats and the events are those of `Relay.Events`. -/
def relayOnceInner (sampler : LifecycleSampler) (t : OutboxTable) : Cycled :=
  let claim := claimOutcome (env.claimArgs cfg) t
  match env.claimFails with
  | some error =>
      { table := if env.claimLands then claim.1 else t
        relayed := []
        ended := Relay.relayOnceInner sampler (.error error) }
  | none =>
      let batch := relayBatch cfg env claim.1 claim.2
      { table := batch.1
        relayed := batch.2
        ended := Relay.relayOnceInner sampler (.ok batch.2) }

end Cycle

/-- The rows a cycle claimed, as the loop counts them: an error counts none. -/
def claimedBy : Except String RelayStats → Nat
  | .ok stats => stats.claimed
  | .error _ => 0

/-- What a cycle reports. -/
structure Report where
  relayed : List Relayed
  result : Except String RelayStats

abbrev Moment := Lib.Moment CycleEnv (LifecycleSampler × OutboxTable) Report

/-- The cycle in its loop: it found work if it claimed rows. -/
def relayCycle (cfg : RelayConfig) (s : LifecycleSampler × OutboxTable) (env : CycleEnv) :
    Polled (LifecycleSampler × OutboxTable) Report :=
  let cycle := relayOnceInner cfg env s.1 s.2
  { state := (cycle.ended.sampler, cycle.table)
    report :=
      { relayed := cycle.relayed
        result := cycle.ended.result }
    busy := 0 < claimedBy cycle.ended.result }

/-- `run`: the configuration is checked once, before the first cycle. -/
def run (cfg : RelayConfig) (sampler : LifecycleSampler) (t : OutboxTable)
    (turns : List (Turn CycleEnv)) : Except InvalidRelayConfig (List Moment) := do
  cfg.validate
  return pollLoop (relayCycle cfg) (sampler, t) turns

/-! ## A batch whose marks go through -/

section Batch

variable {cfg : RelayConfig} {env : CycleEnv}

/-- A row that went through publish and mark. -/
def relayedOf (env : CycleEnv) (claimed : ClaimedOutboxRow) : Relayed :=
  { claimed := claimed
    failure := env.publishes claimed
    marked := .ok .updated }

/-- What the mark of a row leaves of it. -/
def settledRow (cfg : RelayConfig) (env : CycleEnv) (claimed : ClaimedOutboxRow) : OutboxRow :=
  (markOf (env.publishes claimed) cfg.retryAfter).assign (env.markedAt claimed) claimed.row

/-- The table holds the row under the claim. -/
def Held (t : OutboxTable) (claimed : ClaimedOutboxRow) : Prop :=
  claimed.row ∈ t ∧ fenced claimed.messageId claimed.claimId claimed.row = true

theorem relayRow_of_held (hmarks : ∀ claimed, env.markFails claimed = none) {t : OutboxTable}
    {claimed : ClaimedOutboxRow} (hheld : Held t claimed) :
    (relayRow cfg env t claimed).2 = relayedOf env claimed ∧
      ∀ r', r' ∈ (relayRow cfg env t claimed).1 ↔
        r' = settledRow cfg env claimed ∨ r' ∈ t ∧ r'.messageId ≠ claimed.messageId := by
  have hhit : (markUpdate (env.markedAt claimed) (markOf (env.publishes claimed) cfg.retryAfter)
      claimed.messageId claimed.claimId t).2 = true :=
    markUpdate_hit_iff.2 ⟨claimed.row, hheld.1, hheld.2⟩
  have honly : ∀ r ∈ t, r.messageId = claimed.messageId → r = claimed.row := fun r hr hid =>
    Table.eq_of_key_eq hr hheld.1 hid
  refine ⟨by simp [relayRow, hmarks, relayedOf, markWith, hhit], ?_⟩
  intro r'
  simp only [relayRow, hmarks, markWith, mem_markUpdate]
  constructor
  · rintro ⟨r, hr, rfl⟩
    by_cases hfenced : fenced claimed.messageId claimed.claimId r = true
    · rw [if_pos hfenced, honly r hr (fenced_iff.1 hfenced).1]
      exact Or.inl rfl
    · rw [if_neg hfenced]
      refine Or.inr ⟨hr, fun hid => hfenced ?_⟩
      rw [honly r hr hid]
      exact hheld.2
  · rintro (rfl | ⟨hr', hne⟩)
    · exact ⟨claimed.row, hheld.1, if_pos hheld.2⟩
    · exact ⟨r', hr', if_neg fun hfenced => hne (fenced_iff.1 hfenced).1⟩

theorem relayBatch_spec (cfg : RelayConfig) (hmarks : ∀ claimed, env.markFails claimed = none)
    (batch : List ClaimedOutboxRow) :
    ∀ t : OutboxTable, (∀ claimed ∈ batch, Held t claimed) →
      (batch.map ClaimedOutboxRow.messageId).Nodup →
      (relayBatch cfg env t batch).2 = batch.map (relayedOf env) ∧
        ∀ r' ∈ (relayBatch cfg env t batch).1,
          (r' ∈ t ∧ r'.messageId ∉ batch.map ClaimedOutboxRow.messageId) ∨
            ∃ claimed ∈ batch, r' = settledRow cfg env claimed := by
  induction batch with
  | nil =>
      intro t _ _
      exact ⟨rfl, fun r' hr' => Or.inl ⟨hr', by simp⟩⟩
  | cons claimed rest ih =>
      intro t hheld hnodup
      rcases List.nodup_cons.1 hnodup with ⟨hfresh, hrest⟩
      rcases @relayRow_of_held cfg env hmarks t claimed (hheld claimed List.mem_cons_self) with
        ⟨hrelayed, hmem⟩
      have hlater : ∀ c ∈ rest, Held (relayRow cfg env t claimed).1 c := by
        intro c hc
        have hc' := hheld c (List.mem_cons_of_mem _ hc)
        refine ⟨(hmem c.row).2 (Or.inr ⟨hc'.1, ?_⟩), hc'.2⟩
        exact fun hid => hfresh (hid ▸ List.mem_map_of_mem hc)
      rcases ih _ hlater hrest with ⟨hbatch, hrows⟩
      have hstep : relayBatch cfg env t (claimed :: rest) =
          ((relayBatch cfg env (relayRow cfg env t claimed).1 rest).1,
            relayedOf env claimed ::
              (relayBatch cfg env (relayRow cfg env t claimed).1 rest).2) := by
        rw [relayBatch, hrelayed]
        rfl
      rw [hstep]
      refine ⟨by rw [hbatch, List.map_cons], ?_⟩
      intro r' hr'
      rcases hrows r' hr' with ⟨hold, hnot⟩ | ⟨c, hc, rfl⟩
      · rcases (hmem r').1 hold with rfl | ⟨hmem', hne⟩
        · exact Or.inr ⟨claimed, List.mem_cons_self, rfl⟩
        · refine Or.inl ⟨hmem', ?_⟩
          rw [List.map_cons, List.mem_cons]
          exact fun h => h.elim hne hnot
      · exact Or.inr ⟨c, List.mem_cons_of_mem _ hc, rfl⟩

theorem held_of_claimed (args : ClaimArgs) (t : OutboxTable) :
    (∀ claimed ∈ (claimOutcome args t).2, Held (claimOutcome args t).1 claimed) ∧
      ((claimOutcome args t).2.map ClaimedOutboxRow.messageId).Nodup := by
  have hheld : ∀ claimed ∈ (claimOutcome args t).2, Held (claimOutcome args t).1 claimed := by
    intro claimed hclaimed
    rcases mem_claimOutcome_snd.1 hclaimed with ⟨k, hk, rfl⟩
    exact ⟨mem_claimOutcome_fst.2 (Or.inr ⟨k, hk, rfl⟩), fenced_iff.2 ⟨rfl, rfl, rfl⟩⟩
  refine ⟨hheld, nodup_claimOutcome_snd.map_on ?_⟩
  intro c hc c' hc' hid
  have hrow : c.row = c'.row := Table.eq_of_key_eq (hheld c hc).1 (hheld c' hc').1 hid
  rcases mem_claimOutcome_snd.1 hc with ⟨k, -, rfl⟩
  rcases mem_claimOutcome_snd.1 hc' with ⟨k', -, rfl⟩
  simp only at hrow
  rw [hrow]

end Batch

/-! ## An undisturbed cycle -/

/-- The claim and the marks of the cycle go through, in a window from `since` that is shorter than the
retry delay. -/
structure Undisturbed (cfg : RelayConfig) (since : Timestamp) (env : CycleEnv) : Prop where
  unlocked : ∀ id, env.locked id = false
  claims : env.claimFails = none
  marks : ∀ claimed, env.markFails claimed = none
  started : since ≤ env.now
  within : env.now < since + cfg.retryAfter
  marked : ∀ claimed, since ≤ env.markedAt claimed

/-- The row can be handed out from `since` on. -/
def due (since : Timestamp) (r : OutboxRow) : Bool :=
  r.status = .publishing || (r.status = .pending && r.nextAttemptAt ≤ since)

/-- An open row is due, or a publish of its entity has failed and put it off. -/
structure Waiting (cfg : RelayConfig) (since : Timestamp) (failed : String → Prop)
    (r : OutboxRow) : Prop where
  pending : r.status = .pending → r.nextAttemptAt ≤ since ∨
    since + cfg.retryAfter ≤ r.nextAttemptAt ∧ ∀ e, r.entityKey = some e → failed e
  leased : r.status = .publishing → ∀ x ∈ r.claimExpiresAt, x ≤ since

theorem Waiting.mono {cfg : RelayConfig} {since : Timestamp} {failed failed' : String → Prop}
    {r : OutboxRow} (h : Waiting cfg since failed r) (hmono : ∀ e, failed e → failed' e) :
    Waiting cfg since failed' r :=
  { pending := fun hst => (h.pending hst).imp_right fun hoff =>
      ⟨hoff.1, fun e he => hmono e (hoff.2 e he)⟩
    leased := h.leased }

/-- A publish of the entity failed among the rows. -/
def FailedFor (relayed : List Relayed) (e : String) : Prop :=
  ∃ x ∈ relayed, x.failure ≠ none ∧ x.claimed.row.entityKey = some e

section Cycle

variable {cfg : RelayConfig} {since : Timestamp} {env : CycleEnv} {t : OutboxTable}
  {failed : String → Prop} (sampler : LifecycleSampler)

theorem rows_of_undisturbed (h : Undisturbed cfg since env) :
    ∀ r' ∈ (relayOnceInner cfg env sampler t).table,
      (r' ∈ t ∧ ∀ k ∈ (env.claimArgs cfg).candidates t, k.messageId ≠ r'.messageId) ∨
        (∃ r ∈ t, r.status = .pending ∧ r' = supersedeOvertakenRow r) ∨
        ∃ k ∈ (env.claimArgs cfg).candidates t,
          r' = settledRow cfg env
            { row := (env.claimArgs cfg).claim k
              claimId := env.claimId } := by
  have hheld := held_of_claimed (env.claimArgs cfg) t
  intro r' hr'
  simp only [relayOnceInner, h.claims] at hr'
  rcases (relayBatch_spec cfg h.marks _ _ hheld.1 hheld.2).2 r' hr' with
    ⟨hclaimed, hnot⟩ | ⟨claimed, hclaimed, rfl⟩
  · have hnot' : ∀ k ∈ (env.claimArgs cfg).candidates t, k.messageId ≠ r'.messageId :=
      fun k hk hid => hnot (mem_claimed_ids.2 ⟨k, hk, hid⟩)
    rcases mem_claimOutcome_cases hclaimed with hmem | ⟨r, hr, hst, rfl, -⟩ | ⟨k, -, hk, rfl⟩
    · exact Or.inl ⟨hmem, hnot'⟩
    · exact Or.inr (Or.inl ⟨r, hr, hst, rfl⟩)
    · exact absurd rfl (hnot' k hk)
  · rcases mem_claimOutcome_snd.1 hclaimed with ⟨k, hk, rfl⟩
    exact Or.inr (Or.inr ⟨k, hk, rfl⟩)

theorem relayed_of_undisturbed (t : OutboxTable) (h : Undisturbed cfg since env) :
    (relayOnceInner cfg env sampler t).relayed =
      (claimOutcome (env.claimArgs cfg) t).2.map (relayedOf env) := by
  have hheld := held_of_claimed (env.claimArgs cfg) t
  simp only [relayOnceInner, h.claims]
  exact (relayBatch_spec cfg h.marks _ _ hheld.1 hheld.2).1

theorem due_of_candidate (h : Undisturbed cfg since env)
    (hwaiting : ∀ r ∈ t, Waiting cfg since failed r) {k : OutboxRow}
    (hk : k ∈ (env.claimArgs cfg).candidates t) : due since k = true := by
  have hwait := hwaiting k (candidate_mem_table hk)
  rcases claimable_iff.1 (mem_candidates hk).2 with ⟨hst, hnow, -⟩ | ⟨hst, -⟩
  · rcases hwait.pending hst with hle | ⟨hoff, -⟩
    · simp [due, hst, hle]
    · exact absurd (hoff.trans hnow) (not_le.2 h.within)
  · simp [due, hst]

theorem not_due_settledRow (h : Undisturbed cfg since env) (claimed : ClaimedOutboxRow) :
    due since (settledRow cfg env claimed) = false := by
  have hdelay : since < env.markedAt claimed + cfg.retryAfter :=
    (h.started.trans_lt h.within).trans_le (Int.add_le_add_right (h.marked claimed) _)
  unfold settledRow
  cases env.publishes claimed with
  | none => rfl
  | some error => simp [markOf, Mark.assign, publishFailedRow, due, not_le.2 hdelay]

theorem due_of_undisturbed (h : Undisturbed cfg since env)
    (hwaiting : ∀ r ∈ t, Waiting cfg since failed r) :
    (relayOnceInner cfg env sampler t).table.rowsAffected (due since) +
        (claimOutcome (env.claimArgs cfg) t).2.length ≤ t.rowsAffected (due since) := by
  have hids := (held_of_claimed (env.claimArgs cfg) t).2
  rw [← List.length_map ClaimedOutboxRow.messageId]
  refine Table.rowsAffected_add_le hids ?_ ?_
  · intro id hid
    rcases mem_claimed_ids.1 hid with ⟨k, hk, rfl⟩
    exact ⟨k, candidate_mem_table hk, due_of_candidate h hwaiting hk, rfl⟩
  · intro r' hr' hdue
    rcases rows_of_undisturbed sampler h r' hr' with ⟨hmem, hnot⟩ | ⟨r, -, -, rfl⟩ | ⟨k, -, rfl⟩
    · refine ⟨fun hid => ?_, r', hmem, hdue, rfl⟩
      rcases mem_claimed_ids.1 hid with ⟨k, hk, heq⟩
      exact hnot k hk heq
    · simp [due, supersedeOvertakenRow] at hdue
    · rw [not_due_settledRow h] at hdue
      cases hdue

theorem waiting_of_undisturbed (h : Undisturbed cfg since env)
    (hwaiting : ∀ r ∈ t, Waiting cfg since failed r) :
    ∀ r' ∈ (relayOnceInner cfg env sampler t).table, Waiting cfg since
      (fun e => failed e ∨ FailedFor (relayOnceInner cfg env sampler t).relayed e) r' := by
  intro r' hr'
  rcases rows_of_undisturbed sampler h r' hr' with ⟨hmem, -⟩ | ⟨r, -, -, rfl⟩ | ⟨k, hk, rfl⟩
  · exact (hwaiting r' hmem).mono fun e he => Or.inl he
  · exact
      { pending := fun hst => by cases hst
        leased := fun hst => by cases hst }
  · have hrelayed : relayedOf env
        { row := (env.claimArgs cfg).claim k
          claimId := env.claimId } ∈ (relayOnceInner cfg env sampler t).relayed := by
      rw [relayed_of_undisturbed sampler t h]
      exact List.mem_map_of_mem (mem_claimOutcome_snd.2 ⟨k, hk, rfl⟩)
    unfold settledRow
    cases hpublish : env.publishes
        { row := (env.claimArgs cfg).claim k
          claimId := env.claimId } with
    | none =>
        exact
          { pending := fun hst => by cases hst
            leased := fun hst => by cases hst }
    | some error =>
        refine
          { pending := fun _ => Or.inr ⟨Int.add_le_add_right (h.marked _) _, ?_⟩
            leased := fun hst => by cases hst }
        intro e he
        exact Or.inr ⟨_, hrelayed, by simp [relayedOf, hpublish], he⟩

theorem failed_of_live {P : Type} {message : KafkaMessage P} {descriptor : MessageDescriptor}
    {s : Outbox.State} (hreach : (Outbox.system message descriptor).Reachable s)
    (hlimit : 0 < cfg.batchLimit) (h : Undisturbed cfg since env)
    (hwaiting : ∀ r ∈ s.table, Waiting cfg since failed r)
    (hnone : (claimOutcome (env.claimArgs cfg) s.table).2 = []) {e : String}
    (hlive : Live (relayOnceInner cfg env sampler s.table).table e) : failed e := by
  have hcandidates : (env.claimArgs cfg).candidates s.table = [] := by
    refine List.eq_nil_iff_forall_not_mem.2 fun k hk => ?_
    have hret := mem_claimOutcome_snd.2 ⟨k, hk, rfl⟩
    rw [hnone] at hret
    cases hret
  have hbefore : Live s.table e := by
    rcases hlive with ⟨r', hr', he, hst⟩
    rcases rows_of_undisturbed sampler h r' hr' with ⟨hmem, -⟩ | ⟨r, -, -, rfl⟩ | ⟨k, hk, -⟩
    · exact ⟨r', hmem, he, hst⟩
    · rcases hst with hst | hst <;> cases hst
    · rw [hcandidates] at hk
      cases hk
  rcases exists_nextRow hbefore with ⟨r, hnext⟩
  have hwait := hwaiting r hnext.1
  by_contra hnot
  -- Nothing has put the next row off, so the claim would have taken it or another one.
  have hclaimable : claimable (env.claimArgs cfg).now
      ((env.claimArgs cfg).collapsed s.table).rows r = true := by
    refine claimable_of_nextRow_due (reachable_fencing hreach) hnext ?_ ?_
    · intro hst
      rcases hwait.pending hst with hle | ⟨-, hfailed⟩
      · exact hle.trans h.started
      · exact absurd (hfailed e hnext.2.1) hnot
    · intro hst x hx
      exact (hwait.leased hst x hx).trans h.started
  refine candidates_ne_nil h.unlocked ?_ (nextRow_mem_collapsed hnext) hclaimable hcandidates
  simp only [CycleEnv.claimArgs]
  omega

end Cycle

/-! ## The stats of a cycle, and the run behind it -/

section Stats

theorem result_relayRows {batch : List Relayed}
    (hupdated : ∀ x ∈ batch, x.marked = .ok .updated) :
    ∀ (sampler : LifecycleSampler) (stats : RelayStats),
      (relayRows sampler stats batch).result = .ok
        { stats with
          published := stats.published + batch.countP fun x => x.failure.isNone
          failed := stats.failed + batch.countP fun x => !x.failure.isNone } := by
  induction batch with
  | nil =>
      intro sampler stats
      rfl
  | cons x rest ih =>
      intro sampler stats
      have hrest := ih fun y hy => hupdated y (List.mem_cons_of_mem _ hy)
      simp only [relayRows, hupdated x List.mem_cons_self, hrest, List.countP_cons]
      cases x.failure <;> simp [RelayStats.record, Nat.add_assoc, Nat.add_comm 1]

/-- Every row claimed was published or put back under its claim. -/
structure Clean (claimed : Nat) (result : Except String RelayStats) (stats : RelayStats) :
    Prop where
  ok : result = .ok stats
  claimed : stats.claimed = claimed
  split : stats.claimed = stats.published + stats.failed
  stale : stats.stale = 0
  missing : stats.missing = 0

theorem clean_of_updated {batch : List Relayed} (sampler : LifecycleSampler)
    (hupdated : ∀ x ∈ batch, x.marked = .ok .updated) :
    ∃ stats, Clean batch.length (Relay.relayOnceInner sampler (.ok batch)).result stats := by
  refine ⟨_,
    { ok := result_relayRows hupdated sampler _
      claimed := rfl
      split := ?_
      stale := rfl
      missing := rfl }⟩
  have hsplit : batch.length = batch.countP (fun x => x.failure.isNone) +
      batch.countP fun x => !x.failure.isNone := by
    rw [List.length_eq_countP_add_countP fun x : Relayed => x.failure.isNone]
    congr 2
    funext x
    cases x.failure <;> rfl
  simpa [RelayStats.ofClaimed] using hsplit

variable {P : Type} {message : KafkaMessage P} {descriptor : MessageDescriptor}
  {cfg : RelayConfig} {since : Timestamp} {env : CycleEnv} (sampler : LifecycleSampler)

theorem clean_of_undisturbed (t : OutboxTable) (h : Undisturbed cfg since env) :
    ∃ stats, Clean (relayOnceInner cfg env sampler t).relayed.length
      (relayOnceInner cfg env sampler t).ended.result stats := by
  have hheld := held_of_claimed (env.claimArgs cfg) t
  have hbatch := (relayBatch_spec cfg h.marks _ _ hheld.1 hheld.2).1
  simp only [relayOnceInner, h.claims]
  refine clean_of_updated sampler ?_
  rw [hbatch]
  simp [relayedOf]

theorem reachable_relayBatch {env : CycleEnv}
    (hmarks : ∀ claimed, env.markFails claimed = none) (batch : List ClaimedOutboxRow) :
    ∀ {s : Outbox.State}, (Outbox.system message descriptor).Reachable s →
      ∃ s', (Outbox.system message descriptor).Reachable s' ∧
        s'.table = (relayBatch cfg env s.table batch).1 ∧ s'.claims = s.claims := by
  induction batch with
  | nil =>
      intro s hs
      exact ⟨s, hs, rfl, rfl⟩
  | cons claimed rest ih =>
      intro s hs
      have hmark : (Outbox.system message descriptor).Reachable
          (commitMark s (env.markedAt claimed) (markOf (env.publishes claimed) cfg.retryAfter)
            claimed.messageId claimed.claimId) :=
        hs.step (a := .mark _ _ _ _) rfl
      rcases ih hmark with ⟨s', hs', htable, hclaims⟩
      refine ⟨s', hs', ?_, hclaims⟩
      simp only [relayBatch, relayRow, hmarks]
      exact htable

theorem reachable_relayOnceInner {s : Outbox.State}
    (hs : (Outbox.system message descriptor).Reachable s) (h : Undisturbed cfg since env)
    (hfresh : env.claimId ∉ s.claims.map ClaimRecord.claimId) :
    ∃ s', (Outbox.system message descriptor).Reachable s' ∧
      s'.table = (relayOnceInner cfg env sampler s.table).table ∧
      s'.claims.map ClaimRecord.claimId =
        env.claimId :: s.claims.map ClaimRecord.claimId := by
  have hclaim : (Outbox.system message descriptor).Reachable
      (commitClaim s (env.claimArgs cfg)) :=
    hs.step (a := .claim (env.claimArgs cfg)) (if_neg hfresh)
  rcases reachable_relayBatch h.marks (claimOutcome (env.claimArgs cfg) s.table).2 hclaim with
    ⟨s', hs', htable, hclaims⟩
  refine ⟨s', hs', ?_, by rw [hclaims]; rfl⟩
  rw [htable]
  simp only [relayOnceInner, h.claims]
  rfl

end Stats

/-! ## The loop to its sleep -/

section Drain

variable {P : Type} {message : KafkaMessage P} {descriptor : MessageDescriptor}
  {cfg : RelayConfig} {since : Timestamp} {ids : List Uuid} {history : List Moment}
  {s : LifecycleSampler × OutboxTable} {env : CycleEnv}

/-- The loop after some cycles that all had rows: where the outbox is, and what its rows wait for. -/
structure Draining (message : KafkaMessage P) (descriptor : MessageDescriptor) (cfg : RelayConfig)
    (since : Timestamp) (ids : List Uuid) (history : List Moment)
    (s : LifecycleSampler × OutboxTable) : Prop where
  reached : ∃ o, (Outbox.system message descriptor).Reachable o ∧ o.table = s.2 ∧
    o.claims.map ClaimRecord.claimId = (history.map fun x => x.input.claimId).reverse ++ ids
  clean : ∀ x ∈ history, ∃ stats, Clean x.report.relayed.length x.report.result stats
  waiting : ∀ r ∈ s.2,
    Waiting cfg since (fun e => ∃ x ∈ history, FailedFor x.report.relayed e) r

theorem busy_iff_of_undisturbed (h : Undisturbed cfg since env) :
    (relayCycle cfg s env).busy = true ↔ (claimOutcome (env.claimArgs cfg) s.2).2 ≠ [] := by
  rcases clean_of_undisturbed s.1 s.2 h with ⟨stats, hclean⟩
  rw [relayed_of_undisturbed s.1 s.2 h, List.length_map] at hclean
  simp [relayCycle, hclean.ok, claimedBy, hclean.claimed, List.length_pos_iff]

theorem Draining.cycle (hd : Draining message descriptor cfg since ids history s)
    (h : Undisturbed cfg since env)
    (hfresh : env.claimId ∉ history.map (fun x => x.input.claimId) ++ ids) :
    Draining message descriptor cfg since ids
      (history ++ [{ relayCycle cfg s env with input := env }]) (relayCycle cfg s env).state := by
  rcases hd.reached with ⟨o, ho, htable, hclaims⟩
  have hnew : env.claimId ∉ o.claims.map ClaimRecord.claimId := by
    rw [hclaims]
    simpa using hfresh
  rcases reachable_relayOnceInner s.1 ho h hnew with ⟨o', ho', htable', hclaims'⟩
  refine
    { reached := ⟨o', ho', ?_, ?_⟩
      clean := ?_
      waiting := ?_ }
  · rw [htable', htable]
    rfl
  · rw [hclaims', hclaims]
    simp
  · intro x hx
    rcases List.mem_append.1 hx with hx | hx
    · exact hd.clean x hx
    · rw [List.mem_singleton.1 hx]
      exact clean_of_undisturbed s.1 s.2 h
  · intro r hr
    refine (waiting_of_undisturbed s.1 h hd.waiting r hr).mono ?_
    rintro e (⟨x, hx, hfailed⟩ | hfailed)
    · exact ⟨x, List.mem_append_left _ hx, hfailed⟩
    · exact ⟨_, List.mem_append_right _ (List.mem_singleton_self _), hfailed⟩

theorem Draining.due_lt (hd : Draining message descriptor cfg since ids history s)
    (h : Undisturbed cfg since env) (hbusy : (relayCycle cfg s env).busy = true) :
    (relayCycle cfg s env).state.2.rowsAffected (due since) < s.2.rowsAffected (due since) := by
  have hdue := due_of_undisturbed s.1 h hd.waiting
  have hpos := List.length_pos_iff.2 ((busy_iff_of_undisturbed h).1 hbusy)
  change (relayOnceInner cfg env s.1 s.2).table.rowsAffected (due since) < _
  omega

theorem Draining.left (hd : Draining message descriptor cfg since ids history s)
    (hlimit : 0 < cfg.batchLimit) (h : Undisturbed cfg since env)
    (hbusy : (relayCycle cfg s env).busy = false) {e : String}
    (hlive : Live (relayCycle cfg s env).state.2 e) :
    ∃ x ∈ history, FailedFor x.report.relayed e := by
  have hnone : (claimOutcome (env.claimArgs cfg) s.2).2 = [] := by
    by_contra hsome
    rw [(busy_iff_of_undisturbed h).2 hsome] at hbusy
    cases hbusy
  rcases hd.reached with ⟨o, ho, htable, -⟩
  have hwaiting := hd.waiting
  change Live (relayOnceInner cfg env s.1 s.2).table e at hlive
  rw [← htable] at hwaiting hnone hlive
  exact failed_of_live s.1 ho hlimit h hwaiting hnone hlive

end Drain

/-- **The relay drains its outbox**: from any reachable state in which everything open is due, a
relay with the outbox to itself, whose claims and marks go through, comes to its sleep after at most
as many cycles with rows as rows were due, all within less than a retry delay.  In each of these
cycles every row claimed was published or put back, and an entity that still has open rows at the
sleep had a publish of its own fail. -/
theorem relay_drains {P : Type} (message : KafkaMessage P) (descriptor : MessageDescriptor)
    (cfg : RelayConfig) (hvalid : cfg.validate = .ok ()) (since : Timestamp) {s : Outbox.State}
    (h : (Outbox.system message descriptor).Reachable s)
    (hdue : ∀ r ∈ s.table, (r.status = .pending → r.nextAttemptAt ≤ since) ∧
      (r.status = .publishing → ∀ x ∈ r.claimExpiresAt, x ≤ since))
    (turns : List (Turn CycleEnv)) (hrunning : ∀ turn ∈ turns, turn.cancelled = false)
    (hturns : ∀ turn ∈ turns, Undisturbed cfg since turn.input)
    (hids : (turns.map fun turn => turn.input.claimId).Nodup)
    (hfresh : ∀ turn ∈ turns, turn.input.claimId ∉ s.claims.map ClaimRecord.claimId)
    (hlength : s.table.rowsAffected (due since) < turns.length) (sampler : LifecycleSampler) :
    ∃ moments earlier moment, run cfg sampler s.table turns = .ok moments ∧
      earlier ++ [moment] <+: moments ∧
      (∀ x ∈ earlier,
        x.busy = true ∧ ∃ stats, Clean x.report.relayed.length x.report.result stats) ∧
      moment.busy = false ∧ earlier.length ≤ s.table.rowsAffected (due since) ∧
      ∀ e, Live moment.state.2 e → ∃ x ∈ earlier, FailedFor x.report.relayed e := by
  have hlimit : 0 < cfg.batchLimit := by
    by_contra hzero
    unfold RelayConfig.validate at hvalid
    split at hvalid
    · cases hvalid
    · rw [if_pos (by omega)] at hvalid
      cases hvalid
  have hstart : Draining message descriptor cfg since (s.claims.map ClaimRecord.claimId) []
      (sampler, s.table) :=
    { reached := ⟨s, h, rfl, by simp⟩
      clean := by simp
      waiting := fun r hr =>
        { pending := fun hst => Or.inl ((hdue r hr).1 hst)
          leased := (hdue r hr).2 } }
  have hinput : ∀ {history : List Moment} {env : CycleEnv} {rest : List CycleEnv},
      history.map Moment.input ++ env :: rest = turns.map Turn.input →
      Undisturbed cfg since env ∧ env.claimId ∉
        history.map (fun x => x.input.claimId) ++ s.claims.map ClaimRecord.claimId := by
    intro history env rest hinputs
    have hmem : env ∈ turns.map Turn.input := by
      rw [← hinputs]
      simp
    rcases List.mem_map.1 hmem with ⟨turn, hturn, rfl⟩
    refine ⟨hturns turn hturn, ?_⟩
    have hnodup : ((turns.map Turn.input).map CycleEnv.claimId).Nodup := by
      simpa [Function.comp_def] using hids
    rw [← hinputs, List.map_append, List.map_map, List.nodup_append] at hnodup
    rw [List.mem_append, not_or]
    exact ⟨fun hold => hnodup.2.2 _ hold _ (by simp) rfl, hfresh turn hturn⟩
  have hstep : ∀ (history : List Moment) s' env rest,
      history.map Moment.input ++ env :: rest = turns.map Turn.input →
      Draining message descriptor cfg since (s.claims.map ClaimRecord.claimId) history s' →
      (relayCycle cfg s' env).busy = true →
      Draining message descriptor cfg since (s.claims.map ClaimRecord.claimId)
          (history ++ [{ relayCycle cfg s' env with input := env }]) (relayCycle cfg s' env).state ∧
        (relayCycle cfg s' env).state.2.rowsAffected (due since) <
          s'.2.rowsAffected (due since) := by
    intro history s' env rest hinputs hd hbusy
    rcases hinput hinputs with ⟨hcycle, hnew⟩
    exact ⟨hd.cycle hcycle hnew, hd.due_lt hcycle hbusy⟩
  rcases firstSleep_pollLoop (fun s => s.2.rowsAffected (due since)) hstep turns []
    (sampler, s.table) rfl hrunning hstart hlength with ⟨earlier, moment, hsleep⟩
  rcases hsleep.polled with ⟨s', hd, hpolled⟩
  rcases hsleep.met with ⟨rest, hmet⟩
  refine ⟨_, earlier, moment, by rw [run, hvalid]; rfl, hsleep.first, ?_, hsleep.slept,
    hsleep.cycles_le, ?_⟩
  · exact fun x hx => ⟨hsleep.awake x hx, hd.clean x hx⟩
  · intro e hlive
    have hbusy := hsleep.slept
    rw [hpolled] at hbusy hlive
    exact hd.left hlimit (hinput hmet).1 hbusy hlive

/-! ### Two entities, one of them refused by the broker -/

namespace Refused

def config : RelayConfig :=
  { workerId := "relay"
    batchLimit := 1
    leaseFor := 30000000
    retryAfter := 1000000
    pollInterval := 250000 }

/-- Turn `n`; the broker takes everything but the rows of entity `a`. -/
def turn (n : Nat) : Turn CycleEnv :=
  { cancelled := false
    input :=
      { now := 10 + n
        claimId := BitVec.ofNat 128 n
        locked := fun _ => false
        claimFails := none
        claimLands := true
        publishes := fun claimed =>
          if claimed.row.entityKey = some "a" then some "refused" else none
        markedAt := fun _ => 10 + n
        markFails := fun _ => none
        markLands := fun _ => true }
    wakes := true }

def enqueued : List (Outbox.Action Snapshot) :=
  [Snapshot.enqueue 0 1 ⟨"a", "x"⟩, Snapshot.enqueue 0 2 ⟨"b", "y"⟩]

theorem undisturbed_turn {n : Nat} (h : n < 1000) : Undisturbed config 10 (turn n).input :=
  { unlocked := fun _ => rfl
    claims := rfl
    marks := fun _ => rfl
    started := by
      change (10 : Int) ≤ 10 + n
      omega
    within := by
      change (10 : Int) + n < 10 + (1000000 : Nat)
      omega
    marked := fun _ => by
      change (10 : Int) ≤ 10 + n
      omega }

end Refused

open Refused in
theorem relay_drains_refused :
    ∃ s, (Outbox.system Snapshot.message Snapshot.descriptor).Reachable s ∧
      s.table.rowsAffected (due 10) = 2 ∧
      ∃ moments earlier moment,
        run config SampleRate.all.sampler s.table [turn 1, turn 2, turn 3] = .ok moments ∧
        earlier ++ [moment] <+: moments ∧ moment.busy = false ∧ earlier.length ≤ 2 ∧
        ∀ e, Live moment.state.2 e → ∃ x ∈ earlier, FailedFor x.report.relayed e := by
  obtain ⟨s, hreach, hcount, hdue, hclaims⟩ := TransitionSystem.exists_reachable_of_run
    (Q := fun s => s.table.rowsAffected (due 10) = 2 ∧
      (∀ r ∈ s.table.rows, (r.status = .pending → r.nextAttemptAt ≤ 10) ∧
        r.status ≠ .publishing) ∧ s.claims = [])
    (TransitionSystem.Reachable.start
      (S := Outbox.system Snapshot.message Snapshot.descriptor) rfl) enqueued (by decide +kernel)
  rcases relay_drains Snapshot.message Snapshot.descriptor config rfl 10 hreach
    (fun r hr => ⟨(hdue r hr).1, fun hst => absurd hst (hdue r hr).2⟩)
    [turn 1, turn 2, turn 3] (by simp [turn])
    (by
      simp only [List.mem_cons, List.not_mem_nil, or_false]
      rintro x (rfl | rfl | rfl)
      · exact undisturbed_turn (by decide)
      · exact undisturbed_turn (by decide)
      · exact undisturbed_turn (by decide))
    (by decide) (by simp [hclaims]) (by rw [hcount]; decide) SampleRate.all.sampler with
    ⟨moments, earlier, moment, hrun, hfirst, -, hslept, hcycles, hleft⟩
  exact ⟨s, hreach, hcount, moments, earlier, moment, hrun, hfirst, hslept,
    hcount ▸ hcycles, hleft⟩

end Loop
end Relay
end Kafkaman
