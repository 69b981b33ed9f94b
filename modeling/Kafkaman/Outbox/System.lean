import Kafkaman.Lib.TransitionSystem
import Kafkaman.Outbox.Enqueue
import Kafkaman.Outbox.Claim
import Kafkaman.Outbox.Mark

/-!
# Outbox.System — the outbox as a state machine over whole transactions

Enqueue, claim, the two statements of a mark and purge, each one atomic step, interleaved in any
order by any number of callers.  Every step carries its own `now()`; nothing here assumes that the
clocks of different transactions agree.  A claim or a mark the database refuses commits nothing and
is no step (`claimBatch`, `tryMark`); the steps are not limited to values it takes, so that the runs
of the real outbox are among the runs here.

The state holds the table, the sequence behind `enqueue_order`, and history variables that no
statement reads: the rows as they were committed (`enqueued`) and as they were deleted (`purged`),
the batches handed out (`claims`, newest first), the marks that have missed and wait to be
classified (`missed`), and what each mark reported (`reports`).

`Step` and `step_of_next` say once what a step can do; no later proof unfolds `next` again.
-/

namespace Kafkaman
namespace Outbox

open Lib

/-- One batch returned by a claim. -/
structure ClaimRecord where
  claimId : Uuid
  messageIds : List Uuid
  deriving DecidableEq

/-- What a mark for `(messageId, claimId)` returned to its caller. -/
structure Report where
  messageId : Uuid
  claimId : Uuid
  outcome : MarkOutcome
  deriving DecidableEq

structure State where
  table : OutboxTable
  sequence : Nat
  enqueued : List OutboxRow
  purged : List OutboxRow
  claims : List ClaimRecord
  missed : List (Uuid × Uuid)
  reports : List Report

def State.initial : State :=
  { table := Table.empty
    sequence := 1
    enqueued := []
    purged := []
    claims := []
    missed := []
    reports := [] }

/-- The claim id of the last batch that contained a row. -/
def lastClaim (claims : List ClaimRecord) (messageId : Uuid) : Option Uuid :=
  (claims.find? fun c => messageId ∈ c.messageIds).map ClaimRecord.claimId

/-! ## Steps -/

inductive Action (P : Type) where
  /-- An enqueue whose transaction commits. -/
  | enqueue (now : Timestamp) (evt : Envelope P) (trace : Option TraceContext)
      (visible : Uuid → Bool)
  /-- An enqueue whose transaction rolls back after its `INSERT`: sequences do not roll back. -/
  | enqueueRolledBack
  /-- A claim that commits. -/
  | claim (args : ClaimArgs)
  /-- The `UPDATE` of a mark, by anyone, at any time. -/
  | mark (now : Timestamp) (mark : Mark) (messageId claimId : Uuid)
  /-- The `SELECT` that classifies a mark that missed. -/
  | classifyMiss (messageId claimId : Uuid)
  | purge (now : Timestamp) (cfg : PurgeConfig) (locked : Uuid → Bool)

section Steps

variable {P : Type} (message : KafkaMessage P) (descriptor : MessageDescriptor)

def commitInsert (s : State) (now : Timestamp) (insert : InsertOutboxRow) (visible : Uuid → Bool) :
    State :=
  { s with
    table := (enqueueInner visible now s.sequence insert s.table).1
    sequence := s.sequence + 1
    enqueued :=
      if s.table.HasKey insert.messageId then s.enqueued
      else insert.inserted now s.sequence :: s.enqueued }

def commitClaim (s : State) (args : ClaimArgs) : State :=
  let result := claimOutcome args s.table
  { s with
    table := result.1
    claims :=
      { claimId := args.claimId
        messageIds := result.2.map ClaimedOutboxRow.messageId } :: s.claims }

def commitMark (s : State) (now : Timestamp) (mark : Mark) (messageId claimId : Uuid) : State :=
  let result := markUpdate now mark messageId claimId s.table
  { s with
    table := result.1
    missed := if result.2 then s.missed else (messageId, claimId) :: s.missed
    reports :=
      if result.2 then
        { messageId := messageId
          claimId := claimId
          outcome := .updated } :: s.reports
      else
        s.reports }

def commitPurge (s : State) (now : Timestamp) (cfg : PurgeConfig) (locked : Uuid → Bool) : State :=
  match purgeOutboxOnce now cfg locked s.table with
  | .error _ => s
  | .ok (table, _) =>
      { s with
        table := table
        purged := s.table.rows.filter (victimOf (purgeVictims now cfg locked s.table.rows))
          ++ s.purged }

def next (s : State) : Action P → Option State
  | .enqueue now evt trace visible =>
      match prepareInsert message descriptor evt trace with
      | .error _ => some s
      | .ok insert => some (commitInsert s now insert visible)
  | .enqueueRolledBack => some { s with sequence := s.sequence + 1 }
  | .claim args =>
      -- Claim ids are generated fresh for each batch.
      if args.claimId ∈ s.claims.map ClaimRecord.claimId then none
      else some (commitClaim s args)
  | .mark now mark messageId claimId => some (commitMark s now mark messageId claimId)
  | .classifyMiss messageId claimId =>
      if (messageId, claimId) ∈ s.missed then
        some
          { s with
            missed := s.missed.erase (messageId, claimId)
            reports :=
              { messageId := messageId
                claimId := claimId
                outcome := markMissOutcome messageId s.table } :: s.reports }
      else
        none
  | .purge now cfg locked => some (commitPurge s now cfg locked)

/-- The outbox of one message type. -/
def system : TransitionSystem State (Action P) :=
  { init := fun s => s = State.initial
    next := next message descriptor }

end Steps

/-! ## The steps as a relation -/

/-- The table, the history of its rows and the batches are as they were; only the sequence and the
books on marks that missed may have moved. -/
structure Unmoved (s s' : State) : Prop where
  table : s'.table = s.table
  sequence : s.sequence ≤ s'.sequence
  enqueued : s'.enqueued = s.enqueued
  purged : s'.purged = s.purged
  claims : s'.claims = s.claims
  updates : ∀ m c, s'.reports.count { messageId := m, claimId := c, outcome := .updated } =
    s.reports.count { messageId := m, claimId := c, outcome := .updated }

section Relation

variable {P : Type} (message : KafkaMessage P) (descriptor : MessageDescriptor)

/-- `next`, one constructor for each thing that can happen to the table. -/
inductive Step (s : State) : Action P → State → Prop where
  /-- A request refused before its first statement or by the primary key, a rollback, a mark that
  missed, the classification of a miss, a sweep that is misconfigured. -/
  | unmoved {a : Action P} {s' : State} :
      Unmoved s s' → Step s a s'
  | inserted {now : Timestamp} {evt : Envelope P} {trace : Option TraceContext}
      {visible : Uuid → Bool} {insert : InsertOutboxRow} :
      prepareInsert message descriptor evt trace = .ok insert →
      ¬ s.table.HasKey insert.messageId →
      Step s (.enqueue now evt trace visible) (commitInsert s now insert visible)
  | claimed {args : ClaimArgs} :
      args.claimId ∉ s.claims.map ClaimRecord.claimId →
      Step s (.claim args) (commitClaim s args)
  | marked {now : Timestamp} {mark : Mark} {messageId claimId : Uuid} :
      (markUpdate now mark messageId claimId s.table).2 = true →
      Step s (.mark now mark messageId claimId) (commitMark s now mark messageId claimId)
  | swept {now : Timestamp} {cfg : PurgeConfig} {locked : Uuid → Bool} :
      Step s (.purge now cfg locked)
        { s with
          table := s.table.deleteWhere (victimOf (purgeVictims now cfg locked s.table.rows))
          purged := s.table.rows.filter (victimOf (purgeVictims now cfg locked s.table.rows))
            ++ s.purged }

theorem Unmoved.refl (s : State) : Unmoved s s :=
  ⟨rfl, Nat.le_refl _, rfl, rfl, rfl, fun _ _ => rfl⟩

theorem unmoved_of_hasKey {s : State} {now : Timestamp} {insert : InsertOutboxRow}
    {visible : Uuid → Bool} (h : s.table.HasKey insert.messageId) :
    Unmoved s (commitInsert s now insert visible) :=
  { table := enqueueInner_of_hasKey h
    sequence := Nat.le_succ _
    enqueued := if_pos h
    purged := rfl
    claims := rfl
    updates := fun _ _ => rfl }

theorem unmoved_of_miss {s : State} {now : Timestamp} {mark : Mark} {messageId claimId : Uuid}
    (h : (markUpdate now mark messageId claimId s.table).2 = false) :
    Unmoved s (commitMark s now mark messageId claimId) :=
  { table := markUpdate_miss h
    sequence := Nat.le_refl _
    enqueued := rfl
    purged := rfl
    claims := rfl
    updates := fun _ _ => by simp [commitMark, h] }

theorem commitPurge_cases (s : State) (now : Timestamp) (cfg : PurgeConfig)
    (locked : Uuid → Bool) :
    commitPurge s now cfg locked = s ∨
      commitPurge s now cfg locked =
        { s with
          table := s.table.deleteWhere (victimOf (purgeVictims now cfg locked s.table.rows))
          purged := s.table.rows.filter (victimOf (purgeVictims now cfg locked s.table.rows))
            ++ s.purged } := by
  cases hcfg : cfg.validate with
  | error e =>
      refine Or.inl ?_
      simp [commitPurge, purgeOutboxOnce, hcfg, bind, Except.bind]
  | ok u =>
      refine Or.inr ?_
      have hswept : purgeOutboxOnce now cfg locked s.table =
          .ok (s.table.deleteWhere (victimOf (purgeVictims now cfg locked s.table.rows)),
            s.table.rowsAffected (victimOf (purgeVictims now cfg locked s.table.rows))) := by
        simp [purgeOutboxOnce, hcfg, bind, Except.bind, pure, Except.pure]
      simp only [commitPurge, hswept]

theorem markMissOutcome_ne_updated {messageId : Uuid} {t : OutboxTable} :
    markMissOutcome messageId t ≠ .updated := by
  unfold markMissOutcome
  split <;> simp

variable {message descriptor}

theorem step_of_next {s s' : State} {a : Action P} (h : next message descriptor s a = some s') :
    Step message descriptor s a s' := by
  cases a with
  | enqueue now evt trace visible =>
      simp only [next] at h
      split at h
      · cases h
        exact Step.unmoved (Unmoved.refl s)
      · rename_i insert hprepare
        cases h
        by_cases hkey : s.table.HasKey insert.messageId
        · exact Step.unmoved (unmoved_of_hasKey hkey)
        · exact Step.inserted hprepare hkey
  | enqueueRolledBack =>
      cases h
      exact Step.unmoved ⟨rfl, Nat.le_succ _, rfl, rfl, rfl, fun _ _ => rfl⟩
  | claim args =>
      simp only [next] at h
      split at h
      · cases h
      · rename_i hfresh
        cases h
        exact Step.claimed hfresh
  | mark now mark messageId claimId =>
      cases h
      -- A mark that matches no row is the first of two statements and changes nothing.
      cases hhit : (markUpdate now mark messageId claimId s.table).2 with
      | false =>
          exact Step.unmoved (unmoved_of_miss hhit)
      | true =>
          exact Step.marked hhit
  | classifyMiss messageId claimId =>
      simp only [next] at h
      split at h
      · cases h
        refine Step.unmoved ⟨rfl, Nat.le_refl _, rfl, rfl, rfl, fun m c => ?_⟩
        refine List.count_cons_of_ne ?_
        intro hreport
        exact markMissOutcome_ne_updated (congrArg Report.outcome hreport)
      · cases h
  | purge now cfg locked =>
      cases h
      rcases commitPurge_cases s now cfg locked with hrefused | hswept
      · rw [hrefused]
        exact Step.unmoved (Unmoved.refl s)
      · rw [hswept]
        exact Step.swept

end Relation

/-! ## A concrete message type

Runs on fixed inputs use this one: an entity and its state, keyed by the entity. -/

structure Snapshot where
  entity : String
  state : String
  deriving DecidableEq

namespace Snapshot

def message : KafkaMessage Snapshot :=
  { partitionKey := fun _ => .returned none
    entityKey := fun p => .returned p.entity
    toValue := fun p => .returned (.ok (.string p.state)) }

def descriptor : MessageDescriptor :=
  { messageType := "snapshot"
    topic := "snapshots" }

/-- Message `n`, under idempotency key `n`. -/
def envelope (n : Nat) (payload : Snapshot) : Envelope Snapshot :=
  { messageId := BitVec.ofNat 128 n
    idempotencyKey := some { key := .ofByte (UInt8.ofNat n), source := none }
    correlationId := 0
    causationId := none
    headers := SortedMap.empty
    payload := payload
    occurredAt := 0 }

/-- Enqueue of message `n`, seeing every committed row. -/
def enqueue (now : Timestamp) (n : Nat) (payload : Snapshot) : Action Snapshot :=
  .enqueue now (envelope n payload) none fun _ => true

/-- A claim of up to ten rows for a minute, with nothing locked. -/
def claim (now : Timestamp) (n : Nat) : ClaimArgs :=
  { now := now
    workerId := "relay"
    leaseFor := 60
    limit := 10
    claimId := BitVec.ofNat 128 n
    locked := fun _ => false }

end Snapshot

end Outbox
end Kafkaman
