import Kafkaman.Outbox.Progress

/-!
# Outbox.Pacing — how often a row can be handed out

The relay loop goes straight on to its next cycle whenever a cycle claimed rows, also when none of
them could be published.  What keeps it from turning over the same rows at full speed while the
broker is away is in the rows: a claim is a lease, and a failed publish puts the row off.

* `handingSystem` — the outbox with the history of what its claims handed out, and when;
* `Paced` — the discipline: leases and delays of at least `gap`, and no failure that is marked before
  the claim it follows;
* `Rested` — the invariant: a row that was handed out rests for `gap`;
* `handings_paced` — two handings of a row are `gap` apart, so a window of that length holds no more
  handings than there are rows, however many workers there are and whatever they report.
-/

namespace Kafkaman
namespace Outbox

open Lib

/-- A row handed out by a claim; rows are told apart by their ordinal, which is never drawn twice. -/
structure Handing where
  order : Nat
  time : Timestamp
  deriving DecidableEq

structure HandingState where
  outbox : State
  /-- Oldest first. -/
  handings : List Handing

section Semantics

variable {P : Type} (message : KafkaMessage P) (descriptor : MessageDescriptor)

def handedOut (t : OutboxTable) (args : ClaimArgs) : List Handing :=
  (claimOutcome args t).2.map fun claimed =>
    { order := claimed.row.enqueueOrder
      time := args.now }

def handingsOf (t : OutboxTable) : Action P → List Handing
  | .claim args => handedOut t args
  | _ => []

def handingSystem : TransitionSystem HandingState (Action P) :=
  { init := fun s => s.outbox = State.initial ∧ s.handings = []
    next := fun s a => (next message descriptor s.outbox a).map fun outbox =>
      { outbox := outbox
        handings := s.handings ++ handingsOf s.outbox.table a } }

/-- Leases and delays last at least `gap`, and the failure of a row is not timed before a claim that
handed the row out. -/
def Paced (gap : Micros) (s : HandingState) : Action P → Prop
  | .claim args => gap ≤ args.leaseFor
  | .mark now (.publishFailed _ retryAfter) messageId claimId =>
      gap ≤ retryAfter ∧ ∀ r ∈ s.outbox.table.rows, fenced messageId claimId r = true →
        ∀ x ∈ s.handings, x.order = r.enqueueOrder → x.time ≤ now
  | _ => True

instance (gap : Micros) (s : HandingState) (a : Action P) : Decidable (Paced gap s a) :=
  match a with
  | .claim args => inferInstanceAs (Decidable (gap ≤ args.leaseFor))
  | .mark _ (.publishFailed _ _) _ _ => inferInstanceAs (Decidable (_ ∧ _))
  | .mark _ .published _ _ | .enqueue _ _ _ _ | .enqueueRolledBack | .classifyMiss _ _
  | .purge _ _ _ => isTrue trivial

end Semantics

/-! ## Rest -/

/-- A row handed out at `time` is not due again before `gap` has passed. -/
structure Rests (gap : Micros) (time : Timestamp) (r : OutboxRow) : Prop where
  pending : r.status = .pending → time + gap ≤ r.nextAttemptAt
  leased : r.status = .publishing → ∃ x, r.claimExpiresAt = some x ∧ time + gap ≤ x

section Rests

variable {gap : Micros} {time : Timestamp} {r : OutboxRow}

theorem Rests.of_closed (hpending : r.status ≠ .pending) (hpublishing : r.status ≠ .publishing) :
    Rests gap time r :=
  { pending := fun h => absurd h hpending
    leased := fun h => absurd h hpublishing }

theorem Rests.claim {args : ClaimArgs} (hgap : gap ≤ args.leaseFor) (htime : time ≤ args.now) :
    Rests gap time (args.claim r) :=
  { pending := fun h => by cases h
    leased := fun _ => ⟨args.now + args.leaseFor, rfl, Int.add_le_add htime (Int.ofNat_le.2 hgap)⟩ }

/-- A claim finds the row due, so the rest is over. -/
theorem Rests.le_of_claimable {now : Timestamp} {rows : List OutboxRow} (h : Rests gap time r)
    (hclaimable : claimable now rows r = true) : time + gap ≤ now := by
  rcases claimable_iff.1 hclaimable with ⟨hpending, hdue, -⟩ | ⟨hpublishing, x, hx, hdue⟩
  · exact (h.pending hpending).trans hdue
  · rcases h.leased hpublishing with ⟨y, hy, hle⟩
    rw [hx] at hy
    cases hy
    exact hle.trans hdue

end Rests

/-! ## The invariant -/

section Invariant

variable {P : Type} {message : KafkaMessage P} {descriptor : MessageDescriptor} {gap : Micros}

structure Rested (gap : Micros) (s : HandingState) : Prop where
  lineage : Lineage s.outbox
  known : ∀ x ∈ s.handings, ∃ o ∈ s.outbox.enqueued, o.enqueueOrder = x.order
  rests : ∀ r ∈ s.outbox.table, ∀ x ∈ s.handings, x.order = r.enqueueOrder → Rests gap x.time r
  spaced : s.handings.Pairwise fun (x y : Handing) => x.order = y.order → x.time + gap ≤ y.time

/-- A step leaves the rows at rest that were. -/
theorem Rested.rests_next {s : HandingState} {s' : State} {a : Action P} (h : Rested gap s)
    (hok : Paced gap s a) (hnext : next message descriptor s.outbox a = some s') :
    ∀ r ∈ s'.table, ∀ x ∈ s.handings, x.order = r.enqueueOrder → Rests gap x.time r := by
  intro r' hr' x hx horder
  cases step_of_next hnext with
  | unmoved hsame =>
      exact h.rests r' (hsame.table ▸ hr') x hx horder
  | inserted _ hkey =>
      rcases (mem_enqueueInner hkey).1 hr' with ⟨r, hr, rfl⟩ | rfl
      · split at horder
        · rw [if_pos ‹_›]
          exact Rests.of_closed (by simp [supersedeRow]) (by simp [supersedeRow])
        · rw [if_neg ‹_›]
          exact h.rests r hr x hx horder
      · -- The ordinal is drawn now, so no claim has handed it out.
        rcases h.known x hx with ⟨o, ho, hoorder⟩
        have hfresh := h.lineage.fresh o ho
        rw [enqueueOrder_inserted] at horder
        omega
  | @claimed args _ =>
      rcases mem_claimOutcome_cases hr' with hmem | ⟨r, -, -, rfl, -⟩ | ⟨k, hmem, hk, rfl⟩
      · exact h.rests r' hmem x hx horder
      · exact Rests.of_closed (by simp [supersedeOvertakenRow]) (by simp [supersedeOvertakenRow])
      · -- The claim found the row due, so its older handings lie `gap` before.
        have hdue := (h.rests k hmem x hx horder).le_of_claimable
          (mem_candidates hk).2
        exact Rests.claim hok ((Int.le_add_of_nonneg_right (Int.natCast_nonneg gap)).trans hdue)
  | @marked now mark messageId claimId _ =>
      rcases mem_markUpdate.1 hr' with ⟨r, hr, rfl⟩
      split at horder
      · rw [if_pos ‹_›]
        cases mark with
        | published =>
            exact Rests.of_closed (by simp [Mark.assign, publishedRow])
              (by simp [Mark.assign, publishedRow])
        | publishFailed error retryAfter =>
            exact
              { pending := fun _ => Int.add_le_add (hok.2 r hr ‹_› x hx horder) (Int.ofNat_le.2 hok.1)
                leased := fun hst => by cases hst }
      · rw [if_neg ‹_›]
        exact h.rests r hr x hx horder
  | swept =>
      exact h.rests r' (Table.mem_deleteWhere.1 hr').1 x hx horder

theorem mem_handedOut {t : OutboxTable} {args : ClaimArgs} {x : Handing} :
    x ∈ handedOut t args ↔
      ∃ k ∈ args.candidates t, x = { order := k.enqueueOrder, time := args.now } := by
  unfold handedOut
  rw [List.mem_map]
  constructor
  · rintro ⟨claimed, hmem, rfl⟩
    rcases mem_claimOutcome_snd.1 hmem with ⟨k, hk, rfl⟩
    exact ⟨k, hk, rfl⟩
  · rintro ⟨k, hk, rfl⟩
    exact ⟨_, mem_claimOutcome_snd.2 ⟨k, hk, rfl⟩, rfl⟩

/-- One claim hands out no row twice. -/
theorem handedOut_distinct {s : State} {args : ClaimArgs} (h : Lineage (commitClaim s args)) :
    (handedOut s.table args).Pairwise fun (x y : Handing) => x.order ≠ y.order := by
  refine List.Pairwise.map _ (fun _ _ hne => hne) (List.Pairwise.imp_of_mem ?_ nodup_claimOutcome_snd)
  intro c c' hc hc' hne horder
  rcases mem_claimOutcome_snd.1 hc with ⟨k, hk, rfl⟩
  rcases mem_claimOutcome_snd.1 hc' with ⟨k', hk', rfl⟩
  have hrow : args.claim k = args.claim k' :=
    h.eq_of_order_eq (mem_claimOutcome_fst.2 (Or.inr ⟨k, hk, rfl⟩))
      (mem_claimOutcome_fst.2 (Or.inr ⟨k', hk', rfl⟩)) horder
  exact hne (by rw [hrow])

/-- The handings of a claim: known rows, at rest afterwards, and `gap` after their last ones. -/
theorem Rested.claim {s : HandingState} {args : ClaimArgs} (h : Rested gap s)
    (hok : Paced gap s (.claim args : Action P))
    (hnext : next message descriptor s.outbox (.claim args) = some (commitClaim s.outbox args)) :
    Rested gap
      { outbox := commitClaim s.outbox args
        handings := s.handings ++ handedOut s.outbox.table args } := by
  have hlineage := lineage_next h.lineage hnext
  refine
    { lineage := hlineage
      known := ?_
      rests := ?_
      spaced := ?_ }
  · intro x hx
    rcases List.mem_append.1 hx with hx | hx
    · exact h.known x hx
    · rcases mem_handedOut.1 hx with ⟨k, hk, rfl⟩
      rcases h.lineage.origin k (Or.inl (candidate_mem_table hk)) with ⟨o, ho, hfrozen, -⟩
      exact ⟨o, ho, enqueueOrder_of_frozen hfrozen⟩
  · intro r hr x hx horder
    rcases List.mem_append.1 hx with hx | hx
    · exact h.rests_next hok hnext r hr x hx horder
    · rcases mem_handedOut.1 hx with ⟨k, hk, rfl⟩
      have hrow : args.claim k = r :=
        hlineage.eq_of_order_eq (mem_claimOutcome_fst.2 (Or.inr ⟨k, hk, rfl⟩)) hr horder
      rw [← hrow]
      exact Rests.claim hok (Int.le_refl _)
  · rw [List.pairwise_append]
    refine ⟨h.spaced, ?_, ?_⟩
    · exact (handedOut_distinct hlineage).imp fun hne horder => absurd horder hne
    · intro x hx y hy horder
      rcases mem_handedOut.1 hy with ⟨k, hk, rfl⟩
      exact (h.rests k (candidate_mem_table hk) x hx horder).le_of_claimable (mem_candidates hk).2

theorem Rested.next {s s' : HandingState} {a : Action P} (h : Rested gap s)
    (hok : Paced gap s a) (hnext : (handingSystem message descriptor).next s a = some s') :
    Rested gap s' := by
  rcases Option.map_eq_some_iff.1 hnext with ⟨outbox, hbase, rfl⟩
  have hquiet : handingsOf s.outbox.table a = [] →
      Rested gap { outbox := outbox, handings := s.handings ++ handingsOf s.outbox.table a } := by
    intro hnone
    rw [hnone, List.append_nil]
    refine
      { lineage := lineage_next h.lineage hbase
        known := ?_
        rests := h.rests_next hok hbase
        spaced := h.spaced }
    intro x hx
    rcases h.known x hx with ⟨o, ho, horder⟩
    rcases next_transition h.lineage.table_fresh hbase with ⟨new, htransition⟩
    exact ⟨o, (Lineage.mem_enqueued_of_transition htransition).2 (Or.inr ho), horder⟩
  cases a with
  | claim args =>
      have hclaimed : outbox = commitClaim s.outbox args := by
        simp only [Outbox.next] at hbase
        split at hbase
        · cases hbase
        · exact (Option.some.inj hbase).symm
      subst hclaimed
      exact h.claim hok hbase
  | enqueue now evt trace visible => exact hquiet rfl
  | enqueueRolledBack => exact hquiet rfl
  | mark now mark messageId claimId => exact hquiet rfl
  | classifyMiss messageId claimId => exact hquiet rfl
  | purge now cfg locked => exact hquiet rfl

theorem rested_of_reachable {s : HandingState}
    (h : (handingSystem message descriptor).ReachableBy (Paced gap) s) : Rested gap s := by
  refine TransitionSystem.ReachableBy.invariant ?_ ?_ h
  · rintro s ⟨hinitial, hnone⟩
    exact
      { lineage := hinitial ▸ lineage_initial
        known := by simp [hnone]
        rests := by simp [hnone]
        spaced := by simp [hnone] }
  · intro s a s' hs hok hnext
    exact hs.next hok hnext

/-- The handings in a window of length `gap`. -/
def handingsIn (gap : Micros) (since : Timestamp) (handings : List Handing) : List Handing :=
  handings.filter fun x => since ≤ x.time && x.time < since + gap

/-- In a window no longer than the gap no row comes twice, and every row is an enqueued one. -/
theorem Rested.length_handingsIn_le {s : HandingState} (h : Rested gap s) (since : Timestamp) :
    (handingsIn gap since s.handings).length ≤ s.outbox.enqueued.length := by
  have hwindow : ∀ x ∈ handingsIn gap since s.handings, x ∈ s.handings ∧ since ≤ x.time ∧
      x.time < since + gap := by
    intro x hx
    simpa [handingsIn] using hx
  have hdistinct : ((handingsIn gap since s.handings).map Handing.order).Nodup := by
    refine List.Pairwise.map _ (fun _ _ hne => hne)
      (List.Pairwise.imp_of_mem ?_ (h.spaced.filter _))
    intro x y hx hy hspaced horder
    have hle := hspaced horder
    have hlt : y.time < x.time + gap :=
      (hwindow y hy).2.2.trans_le (Int.add_le_add_right (hwindow x hx).2.1 _)
    exact absurd hle (not_le.2 hlt)
  have hsubset : (handingsIn gap since s.handings).map Handing.order ⊆
      s.outbox.enqueued.map OutboxRow.enqueueOrder := by
    intro order horder
    rcases List.mem_map.1 horder with ⟨x, hx, rfl⟩
    rcases h.known x (hwindow x hx).1 with ⟨o, ho, heq⟩
    exact List.mem_map.2 ⟨o, ho, heq⟩
  simpa using (List.subperm_of_subset hdistinct hsubset).length_le

end Invariant

/-- **Handings are paced**: where leases and retry delays last at least `gap`, and no failure is timed
before the claims of its row, two claims hand out the same row at least `gap` apart, whoever claims,
in whatever order the claims are timed and whatever is marked in between; so within any `gap` all
claims together hand out at most as many rows as were ever enqueued. -/
theorem handings_paced {P : Type} (message : KafkaMessage P) (descriptor : MessageDescriptor)
    (gap : Micros) {s : HandingState}
    (h : (handingSystem message descriptor).ReachableBy (Paced gap) s) :
    (s.handings.Pairwise fun (x y : Handing) => x.order = y.order → x.time + gap ≤ y.time) ∧
      ∀ since, (handingsIn gap since s.handings).length ≤ s.outbox.enqueued.length :=
  ⟨(rested_of_reachable h).spaced, (rested_of_reachable h).length_handingsIn_le⟩

/-- The broker is away: two rows fail and are put off for ten, and a claim at once finds nothing. -/
def brokerAway : List (Action Snapshot) :=
  [Snapshot.enqueue 0 1 ⟨"a", "x"⟩, Snapshot.enqueue 0 2 ⟨"b", "y"⟩, .claim (Snapshot.claim 1 1),
    .mark 2 (.publishFailed "away" 10) 1 1, .mark 2 (.publishFailed "away" 10) 2 1,
    .claim (Snapshot.claim 3 2), .claim (Snapshot.claim 12 3)]

theorem handings_paced_broker_away :
    ∃ s, (handingSystem Snapshot.message Snapshot.descriptor).ReachableBy (Paced 10) s ∧
      s.outbox.claims.length = 3 ∧ s.handings.length = 4 ∧
      (handingsIn 10 1 s.handings).length ≤ s.outbox.enqueued.length := by
  have hstart : (handingSystem Snapshot.message Snapshot.descriptor).ReachableBy (Paced 10)
      { outbox := State.initial, handings := [] } :=
    TransitionSystem.ReachableBy.start ⟨rfl, rfl⟩
  obtain ⟨s, hreach, hclaims, hhandings⟩ := TransitionSystem.exists_reachableBy_of_run
    (Q := fun s => s.outbox.claims.length = 3 ∧ s.handings.length = 4)
    hstart brokerAway (by decide +kernel) (by decide +kernel)
  exact ⟨s, hreach, hclaims, hhandings,
    (handings_paced Snapshot.message Snapshot.descriptor 10 hreach).2 1⟩

end Outbox
end Kafkaman
