import Kafkaman.Core.Storable
import Kafkaman.Outbox.Table

/-!
# Outbox.Claim — taking rows out of an outbox for publication

`claimBatch` is the two statements of `claim_batch` in order: the bounded collapse of overtaken
pending rows, then the claim, whose CTEs all read the snapshot the statement started from.  A value
the claim cannot bind or write fails it; `claimOutcome` is what it commits and returns otherwise.

* `collapseWindow`, `claimCandidates` — the two row selections;
* `overtakenBy` — the `WHERE` shared by the two supersede updates;
* `mem_collapsed`, `mem_superseded`, `mem_claimOutcome_fst` — what each update does to each row;
* `not_overtaken_of_claimable` — the claim's two updates touch disjoint rows.

Rows that `FOR UPDATE SKIP LOCKED` passes over are the parameter `locked`.
-/

namespace Kafkaman
namespace Outbox

open Lib

/-! ## Selections -/

/-- `EXISTS (… inflight …)`: a row of the candidate's entity is being published. -/
def inflight (rows : List OutboxRow) (candidate : OutboxRow) : Bool :=
  rows.any fun r => sqlEq r.entityKey candidate.entityKey && r.status = .publishing

/-- `EXISTS (… newer …)`: a pending row of the candidate's entity was enqueued later. -/
def newerPending (rows : List OutboxRow) (candidate : OutboxRow) : Bool :=
  rows.any fun r =>
    sqlEq r.entityKey candidate.entityKey && r.status = .pending &&
      candidate.enqueueOrder < r.enqueueOrder

/-- `WHERE` of the collapse statement's window. -/
def collapsible (now : Timestamp) (rows : List OutboxRow) (candidate : OutboxRow) : Bool :=
  candidate.status = .pending && candidate.nextAttemptAt ≤ now &&
    candidate.entityKey.isSome && !inflight rows candidate && !newerPending rows candidate

/-- `WHERE` of the claim's candidates. -/
def claimable (now : Timestamp) (rows : List OutboxRow) (candidate : OutboxRow) : Bool :=
  (candidate.status = .pending && candidate.nextAttemptAt ≤ now &&
      (candidate.entityKey.isNone || !inflight rows candidate) && !newerPending rows candidate) ||
    (candidate.status = .publishing && sqlLe candidate.claimExpiresAt now)

/-- The bounded window of newest pending rows the collapse drives from. -/
def collapseWindow (now : Timestamp) (limit : Nat) (rows : List OutboxRow) : List OutboxRow :=
  orderByLimit OutboxRow.enqueueOrder limit (rows.filter (collapsible now rows))

def claimCandidates (now : Timestamp) (limit : Nat) (locked : Uuid → Bool)
    (rows : List OutboxRow) : List OutboxRow :=
  orderByLimit OutboxRow.enqueueOrder limit
    (rows.filter fun r => claimable now rows r && !locked r.messageId)

/-- `WHERE` of both supersede updates: pending, and behind one of `newer` in its entity. -/
def overtakenBy (newer : List OutboxRow) (stale : OutboxRow) : Bool :=
  newer.any fun n =>
    sqlEq stale.entityKey n.entityKey && stale.status = .pending &&
      stale.enqueueOrder < n.enqueueOrder

/-- `WHERE` of the claim's own update. -/
def targetOf (candidates : List OutboxRow) (row : OutboxRow) : Bool :=
  candidates.any fun c => row.messageId = c.messageId

/-! ## Statements -/

def collapseStalePendingRows (now : Timestamp) (limit : Nat) (t : OutboxTable) : OutboxTable :=
  t.updateWhere (overtakenBy (collapseWindow now limit t.rows)) supersedeOvertakenRow
    messageId_supersedeOvertakenRow

/-- The claim statement: both updates act on the candidates of one snapshot. -/
def claimStatement (now : Timestamp) (claimId : Uuid) (workerId : String) (leaseFor : Micros)
    (candidates : List OutboxRow) (t : OutboxTable) : OutboxTable :=
  (t.updateWhere (overtakenBy candidates) supersedeOvertakenRow
      messageId_supersedeOvertakenRow).updateWhere
    (targetOf candidates) (claimRow now claimId workerId leaseFor)
    (messageId_claimRow now claimId workerId leaseFor)

/-- The arguments of one `claim_batch`, with the answers of its environment: the transaction's
`now()`, the rows found locked and the generated claim id. -/
structure ClaimArgs where
  now : Timestamp
  workerId : String
  leaseFor : Micros
  limit : Nat
  claimId : Uuid
  locked : Uuid → Bool

/-- The table between the two statements. -/
def ClaimArgs.collapsed (args : ClaimArgs) (t : OutboxTable) : OutboxTable :=
  collapseStalePendingRows args.now args.limit t

def ClaimArgs.candidates (args : ClaimArgs) (t : OutboxTable) : List OutboxRow :=
  claimCandidates args.now args.limit args.locked (args.collapsed t).rows

def ClaimArgs.claim (args : ClaimArgs) : OutboxRow → OutboxRow :=
  claimRow args.now args.claimId args.workerId args.leaseFor

/-- The table a claim commits and the rows it returns, in enqueue order. -/
def claimOutcome (args : ClaimArgs) (t : OutboxTable) : OutboxTable × List ClaimedOutboxRow :=
  let candidates := args.candidates t
  let claimed := claimStatement args.now args.claimId args.workerId args.leaseFor candidates
    (args.collapsed t)
  let returned := claimed.rows.filter (targetOf candidates)
  (claimed,
    (returned.insertionSort fun a b => a.enqueueOrder ≤ b.enqueueOrder).map fun r =>
      { row := r
        claimId := args.claimId })

/-- Whether the assignments of the claim fail on a row. -/
def ClaimArgs.rowError (args : ClaimArgs) (row : OutboxRow) : Option DatabaseError :=
  if integerMax ≤ row.attempts then some .integerOutOfRange else waitError args.now args.leaseFor

/-- Whether the claim fails: on the worker id it binds, or on a row it writes. -/
def ClaimArgs.error (args : ClaimArgs) (t : OutboxTable) : Option DatabaseError :=
  if storableText args.workerId then (args.candidates t).findSome? args.rowError
  else some .invalidByteSequence

/-- `claim_batch`.  An error rolls the transaction back. -/
def claimBatch (args : ClaimArgs) (t : OutboxTable) :
    Except DatabaseError (OutboxTable × List ClaimedOutboxRow) :=
  match args.error t with
  | some e => .error e
  | none => .ok (claimOutcome args t)

/-! ## Reading the selections -/

section Selections

variable {now : Timestamp} {rows : List OutboxRow} {c : OutboxRow}

theorem inflight_iff :
    inflight rows c = true ↔ ∃ r ∈ rows, Sibling r c ∧ r.status = .publishing := by
  simp [inflight, ← sqlEq_entityKey_iff]

theorem newerPending_iff :
    newerPending rows c = true ↔
      ∃ r ∈ rows, Sibling r c ∧ r.status = .pending ∧ c.enqueueOrder < r.enqueueOrder := by
  simp [newerPending, ← sqlEq_entityKey_iff, and_assoc]

theorem overtakenBy_iff {newer : List OutboxRow} :
    overtakenBy newer c = true ↔
      c.status = .pending ∧ ∃ n ∈ newer, Sibling c n ∧ c.enqueueOrder < n.enqueueOrder := by
  constructor
  · intro h
    rcases List.any_eq_true.1 h with ⟨n, hn, hcond⟩
    simp only [Bool.and_eq_true, decide_eq_true_eq, sqlEq_entityKey_iff] at hcond
    exact ⟨hcond.1.2, n, hn, hcond.1.1, hcond.2⟩
  · rintro ⟨hpending, n, hn, hsib, hlt⟩
    refine List.any_eq_true.2 ⟨n, hn, ?_⟩
    simp only [Bool.and_eq_true, decide_eq_true_eq, sqlEq_entityKey_iff]
    exact ⟨⟨hsib, hpending⟩, hlt⟩

theorem targetOf_iff {candidates : List OutboxRow} :
    targetOf candidates c = true ↔ ∃ k ∈ candidates, c.messageId = k.messageId := by
  simp [targetOf]

theorem claimable_iff :
    claimable now rows c = true ↔
      (c.status = .pending ∧ c.nextAttemptAt ≤ now ∧
          (c.entityKey = none ∨ ¬ inflight rows c = true) ∧ ¬ newerPending rows c = true) ∨
        (c.status = .publishing ∧ ∃ x, c.claimExpiresAt = some x ∧ x ≤ now) := by
  simp [claimable, and_assoc]

theorem collapsible_iff :
    collapsible now rows c = true ↔
      c.status = .pending ∧ c.nextAttemptAt ≤ now ∧ c.entityKey.isSome = true ∧
        ¬ inflight rows c = true ∧ ¬ newerPending rows c = true := by
  simp [collapsible, and_assoc]

theorem mem_collapseWindow {limit : Nat} (h : c ∈ collapseWindow now limit rows) :
    c ∈ rows ∧ collapsible now rows c = true :=
  List.mem_filter.1 (mem_of_mem_orderByLimit h)

theorem mem_claimCandidates {limit : Nat} {locked : Uuid → Bool}
    (h : c ∈ claimCandidates now limit locked rows) :
    c ∈ rows ∧ claimable now rows c = true := by
  rcases List.mem_filter.1 (mem_of_mem_orderByLimit h) with ⟨hmem, hcond⟩
  simp only [Bool.and_eq_true] at hcond
  exact ⟨hmem, hcond.1⟩

theorem status_of_claimable (h : claimable now rows c = true) :
    c.status = .pending ∨ c.status = .publishing := by
  rcases claimable_iff.1 h with ⟨h, -⟩ | ⟨h, -⟩
  · exact Or.inl h
  · exact Or.inr h

/-- A claimable row is never behind another claimable row of its entity, so the claim's supersede
and its update touch disjoint rows. -/
theorem not_overtaken_of_claimable {candidates : List OutboxRow}
    (hcand : ∀ k ∈ candidates, k ∈ rows ∧ claimable now rows k = true)
    (hc : claimable now rows c = true) : overtakenBy candidates c = false := by
  rw [Bool.eq_false_iff]
  intro hover
  rcases overtakenBy_iff.1 hover with ⟨hpending, k, hk, hsib, hlt⟩
  have hfree : (c.entityKey = none ∨ ¬ inflight rows c = true) ∧ ¬ newerPending rows c = true := by
    rcases claimable_iff.1 hc with ⟨-, -, h⟩ | ⟨h, -⟩
    · exact h
    · rw [hpending] at h
      cases h
  rcases hcand k hk with ⟨hkrows, hkc⟩
  rcases status_of_claimable hkc with hst | hst
  · exact hfree.2 (newerPending_iff.2 ⟨k, hkrows, hsib.symm, hst, hlt⟩)
  · rcases hfree.1 with hnone | hfly
    · rcases hsib with ⟨e, he, -⟩
      simp [hnone] at he
    · exact hfly (inflight_iff.2 ⟨k, hkrows, hsib.symm, hst⟩)

end Selections

/-! ## What the statements do to each row -/

section Statements

variable {args : ClaimArgs} {t : OutboxTable}

/-- The table the claim's own update starts from. -/
def ClaimArgs.superseded (args : ClaimArgs) (t : OutboxTable) : OutboxTable :=
  (args.collapsed t).updateWhere (overtakenBy (args.candidates t)) supersedeOvertakenRow
    messageId_supersedeOvertakenRow

theorem mem_collapsed {r' : OutboxRow} :
    r' ∈ args.collapsed t ↔
      ∃ r ∈ t, (if overtakenBy (collapseWindow args.now args.limit t.rows) r
        then supersedeOvertakenRow r else r) = r' := by
  simp only [ClaimArgs.collapsed, collapseStalePendingRows, Table.mem_updateWhere]

theorem mem_superseded {r' : OutboxRow} :
    r' ∈ args.superseded t ↔
      ∃ r ∈ args.collapsed t, (if overtakenBy (args.candidates t) r
        then supersedeOvertakenRow r else r) = r' := by
  simp only [ClaimArgs.superseded, Table.mem_updateWhere]

theorem newer_of_collapse {r : OutboxRow}
    (h : overtakenBy (collapseWindow args.now args.limit t.rows) r = true) :
    r.status = .pending ∧
      ∃ n ∈ t, n.status = .pending ∧ Sibling r n ∧ r.enqueueOrder < n.enqueueOrder := by
  rcases overtakenBy_iff.1 h with ⟨hpending, n, hn, hsib, hlt⟩
  rcases mem_collapseWindow hn with ⟨hmem, hcoll⟩
  exact ⟨hpending, n, hmem, (collapsible_iff.1 hcoll).1, hsib, hlt⟩

theorem mem_candidates {k : OutboxRow} (h : k ∈ args.candidates t) :
    k ∈ args.collapsed t ∧ claimable args.now (args.collapsed t).rows k = true :=
  mem_claimCandidates h

theorem newer_of_claim {r : OutboxRow} (h : overtakenBy (args.candidates t) r = true) :
    r.status = .pending ∧
      ∃ n ∈ args.collapsed t, n ∈ args.candidates t ∧ Sibling r n ∧
        r.enqueueOrder < n.enqueueOrder := by
  rcases overtakenBy_iff.1 h with ⟨hpending, n, hn, hsib, hlt⟩
  exact ⟨hpending, n, (mem_candidates hn).1, hn, hsib, hlt⟩

theorem candidate_mem_superseded {k : OutboxRow} (h : k ∈ args.candidates t) :
    k ∈ args.superseded t := by
  rcases mem_candidates h with ⟨hmem, hclaim⟩
  have hnot : overtakenBy (args.candidates t) k = false :=
    not_overtaken_of_claimable (fun k' hk' => mem_candidates hk') hclaim
  exact mem_superseded.2 ⟨k, hmem, by simp [hnot]⟩

theorem targetOf_iff_mem_candidates {r : OutboxRow} (hr : r ∈ args.superseded t) :
    targetOf (args.candidates t) r = true ↔ r ∈ args.candidates t := by
  constructor
  · intro h
    rcases targetOf_iff.1 h with ⟨k, hk, hid⟩
    have heq : r = k := Table.eq_of_key_eq hr (candidate_mem_superseded hk) hid
    exact heq ▸ hk
  · intro h
    exact targetOf_iff.2 ⟨r, h, rfl⟩

theorem messageId_claim (args : ClaimArgs) (r : OutboxRow) :
    (args.claim r).messageId = r.messageId :=
  rfl

theorem claimOutcome_fst :
    (claimOutcome args t).1 =
      (args.superseded t).updateWhere (targetOf (args.candidates t)) args.claim
        (messageId_claim args) :=
  rfl

/-- What a claim commits, in terms of the table its update starts from. -/
theorem mem_claimOutcome_fst {r' : OutboxRow} :
    r' ∈ (claimOutcome args t).1 ↔
      r' ∈ args.superseded t ∧ r' ∉ args.candidates t ∨
        ∃ k ∈ args.candidates t, args.claim k = r' := by
  rw [claimOutcome_fst, Table.mem_updateWhere]
  constructor
  · rintro ⟨r, hr, heq⟩
    by_cases hk : r ∈ args.candidates t
    · rw [if_pos ((targetOf_iff_mem_candidates hr).2 hk)] at heq
      exact Or.inr ⟨r, hk, heq⟩
    · rw [if_neg (fun h => hk ((targetOf_iff_mem_candidates hr).1 h))] at heq
      exact Or.inl ⟨heq ▸ hr, heq ▸ hk⟩
  · rintro (⟨hr, hk⟩ | ⟨k, hk, rfl⟩)
    · exact ⟨r', hr, if_neg (fun h => hk ((targetOf_iff_mem_candidates hr).1 h))⟩
    · have hmem := candidate_mem_superseded hk
      exact ⟨k, hmem, if_pos ((targetOf_iff_mem_candidates hmem).2 hk)⟩

/-- What a claim returns: its candidates, as updated. -/
theorem mem_claimOutcome_snd {claimed : ClaimedOutboxRow} :
    claimed ∈ (claimOutcome args t).2 ↔
      ∃ k ∈ args.candidates t,
        claimed = { row := args.claim k, claimId := args.claimId } := by
  have hret : claimed ∈ (claimOutcome args t).2 ↔
      ∃ r, (r ∈ (claimOutcome args t).1 ∧ targetOf (args.candidates t) r = true) ∧
        { row := r, claimId := args.claimId } = claimed := by
    simp [claimOutcome, ClaimArgs.candidates, Table.mem_rows]
  rw [hret]
  constructor
  · rintro ⟨r, ⟨hr, htarget⟩, rfl⟩
    rcases mem_claimOutcome_fst.1 hr with ⟨hmem, hnot⟩ | ⟨k, hk, rfl⟩
    · exact absurd ((targetOf_iff_mem_candidates hmem).1 htarget) hnot
    · exact ⟨k, hk, rfl⟩
  · rintro ⟨k, hk, rfl⟩
    refine ⟨args.claim k, ⟨mem_claimOutcome_fst.2 (Or.inr ⟨k, hk, rfl⟩), ?_⟩, rfl⟩
    exact targetOf_iff.2 ⟨k, hk, rfl⟩

theorem claimBatch_eq_ok {result : OutboxTable × List ClaimedOutboxRow} :
    claimBatch args t = .ok result ↔ args.error t = none ∧ claimOutcome args t = result := by
  unfold claimBatch
  split
  next h => simp [h]
  next h => simp [h]

theorem ClaimArgs.error_eq_none :
    args.error t = none ↔
      storableText args.workerId = true ∧
        ∀ k ∈ args.candidates t, k.attempts < integerMax ∧ args.leaseFor < intervalEnd ∧
          args.now + (args.leaseFor : Int) < timestamptzEnd := by
  have hrow : ∀ k, args.rowError k = none ↔
      k.attempts < integerMax ∧ args.leaseFor < intervalEnd ∧
        args.now + (args.leaseFor : Int) < timestamptzEnd := by
    intro k
    rw [← waitError_eq_none, ClaimArgs.rowError]
    split
    next h => simp [Nat.not_lt.2 h]
    next h => simp [Nat.lt_of_not_le h]
  unfold ClaimArgs.error
  split
  next h => simp [h, hrow]
  next h => simp [h]

end Statements

end Outbox
end Kafkaman
