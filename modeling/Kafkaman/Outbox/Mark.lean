import Kafkaman.Core.Storable
import Kafkaman.Outbox.Table

/-!
# Outbox.Mark — recording what happened to a claimed row, and retention

A mark is two statements: an `UPDATE` fenced by the claim generation, and, when it matched nothing,
a `SELECT` that tells a stale claim from a missing row.  The two are separate definitions
(`markUpdate`, `markMissOutcome`), since anything may commit between them.  A mark whose values the
database refuses fails and changes nothing (`Mark.error`); `markWith` is what it does otherwise.

`markUpdate_hit_iff` and `mem_markUpdate` are the fence: the update takes effect exactly on a
publishing row that carries the claim id, and on no other.
-/

namespace Kafkaman
namespace Outbox

open Lib

/-! ## Marks -/

/-- `WHERE` of both marks. -/
def fenced (messageId claimId : Uuid) (row : OutboxRow) : Bool :=
  row.messageId = messageId && row.status = .publishing && sqlEq row.claimId (some claimId)

/-- What a mark records. -/
inductive Mark where
  | published
  | publishFailed (error : String) (retryAfter : Micros)

def Mark.assign (now : Timestamp) : Mark → OutboxRow → OutboxRow
  | .published => publishedRow now
  | .publishFailed error retryAfter => publishFailedRow now error retryAfter

@[simp] theorem frozen_assign {mark : Mark} {now : Timestamp} {row : OutboxRow} :
    (mark.assign now row).frozen = row.frozen := by
  cases mark <;> rfl

theorem messageId_assign (mark : Mark) (now : Timestamp) (row : OutboxRow) :
    (mark.assign now row).messageId = row.messageId :=
  messageId_of_frozen frozen_assign

/-- The fenced `UPDATE`, with whether it affected exactly one row. -/
def markUpdate (now : Timestamp) (mark : Mark) (messageId claimId : Uuid) (t : OutboxTable) :
    OutboxTable × Bool :=
  (t.updateWhere (fenced messageId claimId) (mark.assign now) (messageId_assign mark now),
    t.rowsAffected (fenced messageId claimId) = 1)

/-- `mark_miss_outcome`. -/
def markMissOutcome (messageId : Uuid) (t : OutboxTable) : MarkOutcome :=
  if t.HasKey messageId then .staleClaim else .missing

/-- A mark with nothing committed between its two statements. -/
def markWith (now : Timestamp) (mark : Mark) (messageId claimId : Uuid) (t : OutboxTable) :
    OutboxTable × MarkOutcome :=
  let result := markUpdate now mark messageId claimId t
  (result.1, if result.2 then .updated else markMissOutcome messageId result.1)

/-- Whether a mark fails: on the error text it binds, or on the retry time of a row it hits.  A mark
that hits nothing may fail on the retry time as well, where the planner has evaluated it. -/
def Mark.error (now : Timestamp) (hit : Bool) : Mark → Option DatabaseError
  | .published => none
  | .publishFailed error retryAfter =>
      if storableText error then
        if hit then waitError now retryAfter else none
      else some .invalidByteSequence

/-- Both marks: an error, or the two statements. -/
def tryMark (now : Timestamp) (mark : Mark) (messageId claimId : Uuid) (t : OutboxTable) :
    Except DatabaseError (OutboxTable × MarkOutcome) :=
  match mark.error now (markUpdate now mark messageId claimId t).2 with
  | some e => .error e
  | none => .ok (markWith now mark messageId claimId t)

def markPublished (now : Timestamp) (messageId claimId : Uuid) (t : OutboxTable) :
    Except DatabaseError (OutboxTable × MarkOutcome) :=
  tryMark now .published messageId claimId t

def markPublishFailed (now : Timestamp) (messageId claimId : Uuid) (error : String)
    (retryAfter : Micros) (t : OutboxTable) : Except DatabaseError (OutboxTable × MarkOutcome) :=
  tryMark now (.publishFailed error retryAfter) messageId claimId t

/-- The values of a mark the database takes at `now`, whatever row it hits. -/
def Mark.Accepted (now : Timestamp) : Mark → Prop
  | .published => True
  | .publishFailed error retryAfter =>
      storableText error = true ∧ retryAfter < intervalEnd ∧
        now + (retryAfter : Int) < timestamptzEnd

theorem fenced_iff {messageId claimId : Uuid} {row : OutboxRow} :
    fenced messageId claimId row = true ↔
      row.messageId = messageId ∧ row.status = .publishing ∧ row.claimId = some claimId := by
  simp [fenced, and_assoc]

section MarkUpdate

variable {now : Timestamp} {mark : Mark} {messageId claimId : Uuid} {t : OutboxTable}

/-- The update reports a hit exactly when a publishing row carries this claim. -/
theorem markUpdate_hit_iff :
    (markUpdate now mark messageId claimId t).2 = true ↔
      ∃ r ∈ t, fenced messageId claimId r = true := by
  have hkey : ∀ r, fenced messageId claimId r = true → r.messageId = messageId := by
    intro r h
    exact (fenced_iff.1 h).1
  simpa [markUpdate] using Table.rowsAffected_eq_one (t := t) hkey

theorem markUpdate_miss (h : (markUpdate now mark messageId claimId t).2 = false) :
    (markUpdate now mark messageId claimId t).1 = t := by
  have hnone : ∀ r ∈ t, fenced messageId claimId r = false := by
    intro r hr
    by_contra hne
    have hhit : (markUpdate now mark messageId claimId t).2 = true :=
      markUpdate_hit_iff.2 ⟨r, hr, by simpa using hne⟩
    simp [h] at hhit
  simp only [markUpdate, Table.updateWhere_eq_self hnone]

theorem mem_markUpdate {r' : OutboxRow} :
    r' ∈ (markUpdate now mark messageId claimId t).1 ↔
      ∃ r ∈ t, (if fenced messageId claimId r then mark.assign now r else r) = r' := by
  simp only [markUpdate, Table.mem_updateWhere]

theorem tryMark_of_accepted (h : mark.Accepted now) :
    tryMark now mark messageId claimId t = .ok (markWith now mark messageId claimId t) := by
  have hnone : mark.error now (markUpdate now mark messageId claimId t).2 = none := by
    cases mark with
    | published => rfl
    | publishFailed error retryAfter =>
        simp only [Mark.error, h.1, if_true, waitError_eq_none.2 h.2, ite_self]
  simp only [tryMark, hnone]

theorem accepted_of_tryMark {result : OutboxTable × MarkOutcome}
    (hhit : (markUpdate now mark messageId claimId t).2 = true)
    (h : tryMark now mark messageId claimId t = .ok result) : mark.Accepted now := by
  cases mark with
  | published => trivial
  | publishFailed error retryAfter =>
      simp only [tryMark, hhit] at h
      split at h
      · cases h
      · rename_i hnone
        simp only [Mark.error, if_true] at hnone
        split at hnone
        · rename_i htext
          exact ⟨htext, waitError_eq_none.1 hnone⟩
        · cases hnone

end MarkUpdate

/-! ## Retention -/

structure PurgeConfig where
  olderThan : Micros
  batchSize : Int
  pollInterval : Micros
  includeFailed : Bool

instance : Inhabited PurgeConfig where
  default :=
    { olderThan := 7 * 24 * 60 * 60 * 1000000
      batchSize := 1000
      pollInterval := 60 * 1000000
      includeFailed := false }

/-- `Error::InvalidPurgeConfig`. -/
structure InvalidPurgeConfig where
  field : String
  reason : String
  deriving DecidableEq, Repr

def PurgeConfig.validate (cfg : PurgeConfig) : Except InvalidPurgeConfig Unit :=
  if cfg.olderThan = 0 then
    .error
      { field := "older_than"
        reason := "must be greater than zero; retaining nothing deletes rows as they land" }
  else if cfg.batchSize ≤ 0 then
    .error
      { field := "batch_size"
        reason := "must be greater than zero" }
  else if cfg.pollInterval = 0 then
    .error
      { field := "poll_interval"
        reason := "must be greater than zero" }
  else
    .ok ()

/-- The statuses a sweep may reclaim. -/
def PurgeConfig.statuses (cfg : PurgeConfig) : List OutboxStatus :=
  [.published, .superseded] ++ if cfg.includeFailed then [.failed] else []

def reclaimable (now : Timestamp) (cfg : PurgeConfig) (row : OutboxRow) : Bool :=
  cfg.statuses.contains row.status && row.createdAt < now - cfg.olderThan

def purgeVictims (now : Timestamp) (cfg : PurgeConfig) (locked : Uuid → Bool)
    (rows : List OutboxRow) : List OutboxRow :=
  orderByLimit OutboxRow.createdAt cfg.batchSize.toNat
    (rows.filter fun r => reclaimable now cfg r && !locked r.messageId)

def victimOf (victims : List OutboxRow) (row : OutboxRow) : Bool :=
  victims.any fun v => row.messageId = v.messageId

/-- `purge_outbox_once`: the table it leaves and how many rows it deleted. -/
def purgeOutboxOnce (now : Timestamp) (cfg : PurgeConfig) (locked : Uuid → Bool)
    (t : OutboxTable) : Except InvalidPurgeConfig (OutboxTable × Nat) := do
  cfg.validate
  let victims := purgeVictims now cfg locked t.rows
  return (t.deleteWhere (victimOf victims), t.rowsAffected (victimOf victims))

theorem isTerminal_of_reclaimable {now : Timestamp} {cfg : PurgeConfig} {row : OutboxRow}
    (h : reclaimable now cfg row = true) : row.status.isTerminal = true := by
  have hmem : row.status ∈ cfg.statuses := by
    simp only [reclaimable, Bool.and_eq_true] at h
    exact List.contains_iff_mem.1 h.1
  simp only [PurgeConfig.statuses, List.mem_append, List.mem_cons, List.not_mem_nil, or_false]
    at hmem
  rcases hmem with (h | h) | h
  · simp [h, OutboxStatus.isTerminal]
  · simp [h, OutboxStatus.isTerminal]
  · split at h
    · have : row.status = .failed := by simpa using h
      simp [this, OutboxStatus.isTerminal]
    · simp at h

theorem reclaimable_of_victimOf {now : Timestamp} {cfg : PurgeConfig} {locked : Uuid → Bool}
    {t : OutboxTable} {row : OutboxRow} (hrow : row ∈ t)
    (h : victimOf (purgeVictims now cfg locked t.rows) row = true) :
    reclaimable now cfg row = true := by
  rcases List.any_eq_true.1 h with ⟨v, hv, heq⟩
  rcases List.mem_filter.1 (mem_of_mem_orderByLimit hv) with ⟨hvt, hcond⟩
  have hvr : row = v := Table.eq_of_key_eq hrow hvt (by simpa using heq)
  simp only [Bool.and_eq_true] at hcond
  exact hvr ▸ hcond.1

end Outbox
end Kafkaman
