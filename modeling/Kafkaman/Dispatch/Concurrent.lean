import Kafkaman.Dispatch.Convergence
import Mathlib.Logic.Function.Basic

/-!
# Dispatch.Concurrent — dispatchers interleaved statement by statement

Any number of dispatchers, each somewhere inside its transaction (`Phase`).  The database is what is
committed; a transaction's own writes and locks are part of its phase.  The upsert waits while another
transaction has the entity's cache row, takes the row lock whether or not its `WHERE` holds, and keeps
it to the end of the transaction or to the savepoint rollback.

* `Phase`, `Action` — how far a transaction has come, and the statements that move it on;
* `rowLocked`, `cacheLocked` — what a statement waits for;
* `system` — the dispatchers, over the committed tables and the history of after-handlers.
-/

namespace Kafkaman
namespace Dispatch
namespace Concurrent

open Lib Received

/-! ## Sessions -/

/-- A transaction that has reached the cache row of its entity. -/
structure Work where
  row : ReceivedRow
  flow : HandlerFlow
  entity : String
  now : Timestamp

/-- How far a dispatcher's transaction has come. -/
inductive Phase where
  | idle
  | claimed (row : ReceivedRow)
  | converging (row : ReceivedRow) (flow : HandlerFlow)
  /-- The upsert wrote nothing; the row is locked and the classification comes next. -/
  | skipped (work : Work)
  | migrating (work : Work)
  | adopting (work : Work) (written : CacheRow) (outcome : CacheApplyOutcome)
  /-- The cache apply is done, and `written` is its uncommitted result. -/
  | upserted (work : Work) (written : Option CacheRow) (outcome : CacheApplyOutcome)
  | handled (work : Work) (written : Option CacheRow) (outcome : CacheApplyOutcome) (ran : Bool)
  | marked (work : Work) (written : Option CacheRow) (outcome : CacheApplyOutcome) (ran : Bool)
  /-- Rolled back to the savepoint, with the failure record to come. -/
  | unwinding (row : ReceivedRow)

namespace Phase

/-- The work under the entity's row lock. -/
def work? : Phase → Option Work
  | .idle | .claimed _ | .converging _ _ | .unwinding _ => none
  | .skipped work | .migrating work | .adopting work _ _ | .upserted work _ _
  | .handled work _ _ _ | .marked work _ _ _ => some work

/-- The claimed row, which is locked as long as the transaction lives. -/
def row? : Phase → Option ReceivedRow
  | .idle => none
  | .claimed row | .converging row _ | .unwinding row => some row
  | .skipped work | .migrating work | .adopting work _ _ | .upserted work _ _
  | .handled work _ _ _ | .marked work _ _ _ => some work.row

def cacheLock (phase : Phase) : Option String :=
  phase.work?.map Work.entity

def rowLock (phase : Phase) : Option Uuid :=
  phase.row?.map ReceivedRow.messageId

end Phase

structure State (n : Nat) where
  received : ReceivedTable
  cache : CacheTable
  sessions : Fin n → Phase
  /-- History: the committed executions, in the order of their commits. -/
  executions : List Execution

inductive Action (n : Nat) where
  | claim (i : Fin n) (dueAt : Instant) (held : Uuid → Bool)
  | before (i : Fin n) (result : Except Error HandlerFlow)
  | upsert (i : Fin n) (now : Timestamp)
  | classify (i : Fin n)
  | lockOrigin (i : Fin n)
  | migrate (i : Fin n)
  | after (i : Fin n) (result : Except Error Unit)
  | mark (i : Fin n)
  | commit (i : Fin n) (processedAt : Instant)
  /-- A statement fails and the savepoint rollback succeeds. -/
  | fail (i : Fin n)
  | recordFailure (i : Fin n) (failure : ReceivedFailureRecord) (backoff : Nanos)
  /-- The transaction is lost: by a crash, or because its savepoint rollback failed. -/
  | lose (i : Fin n)
  | recordOnFreshConnection (failure : ReceivedFailureRecord) (backoff : Nanos)
  | ingest (insert : InsertReceivedRow) (now : Timestamp)
  | redrive (replay : Replay) (held : Uuid → Bool)

section Semantics

variable {σ ω : Type} (dispatcher : Dispatcher σ ω) {n : Nat}

/-- Whether a session other than `i` has locked the received row. -/
def rowLocked (s : State n) (i : Fin n) (messageId : Uuid) : Bool :=
  decide (∃ j, j ≠ i ∧ (s.sessions j).rowLock = some messageId)

/-- Whether a session other than `i` has the entity's cache row. -/
def cacheLocked (s : State n) (i : Fin n) (entity : String) : Bool :=
  decide (∃ j, j ≠ i ∧ (s.sessions j).cacheLock = some entity)

/-- Session `i` moves on. -/
def State.advance (s : State n) (i : Fin n) (phase : Phase) : State n :=
  { s with sessions := Function.update s.sessions i phase }

/-- Routing and the pre-upsert position. -/
def afterBefore (row : ReceivedRow) (result : Except Error HandlerFlow) : Phase :=
  if dispatcher.router.routes row.messageType then
    match dispatcher.router.beforeHandlerFor row.messageType, result with
    | none, _ => .converging row .proceed
    | some _, .ok flow => .converging row flow
    | some _, .error _ => .unwinding row
  else
    .unwinding row

/-- The guarded upsert, once the row is free. -/
def afterUpsert (work : Work) (current : Option CacheRow) : Phase :=
  match guardedUpsert work.now work.entity work.row current with
  | some written => .upserted work (some written) .applied
  | none => .skipped work

def afterClassify (work : Work) (current : Option CacheRow) : Phase :=
  match classifySkippedCacheApply work.entity work.row dispatcher.descriptor.topic current with
  | .ignored => .upserted work none .ignored
  | .mismatch _ => .unwinding work.row
  | .migrate => .migrating work

def afterLockOrigin (work : Work) (current : Option CacheRow) : Phase :=
  match migrateCacheOrigin work.now work.row current with
  | (none, outcome) => .upserted work none outcome
  | (some written, outcome) => .adopting work written outcome

/-- The post-upsert position. -/
def afterAfter (work : Work) (written : Option CacheRow) (outcome : CacheApplyOutcome)
    (result : Except Error Unit) : Phase :=
  if work.flow = .proceed ∧ outcome ≠ .ignored then
    match dispatcher.router.handlerFor work.row.messageType, result with
    | none, _ => .handled work written outcome false
    | some _, .ok () => .handled work written outcome true
    | some _, .error _ => .unwinding work.row
  else
    .handled work written outcome false

def next (s : State n) : Action n → Option (State n)
  | .claim i dueAt held =>
      match s.sessions i with
      | .idle =>
          match claimReceivedRow dueAt (fun id => held id || rowLocked s i id) s.received with
          | some row => some (s.advance i (.claimed row))
          | none => some s
      | _ => none
  | .before i result =>
      match s.sessions i with
      | .claimed row => some (s.advance i (afterBefore dispatcher row result))
      | _ => none
  | .upsert i now =>
      match s.sessions i with
      | .converging row flow =>
          match receivedEntityKey row with
          | .error _ => some (s.advance i (.unwinding row))
          | .ok entity =>
              if cacheLocked s i entity then
                none
              else
                some (s.advance i
                  (afterUpsert
                    { row := row, flow := flow, entity := entity, now := now }
                    (s.cache.lookup entity)))
      | _ => none
  | .classify i =>
      match s.sessions i with
      | .skipped work =>
          some (s.advance i (afterClassify dispatcher work (s.cache.lookup work.entity)))
      | _ => none
  | .lockOrigin i =>
      match s.sessions i with
      | .migrating work =>
          some (s.advance i (afterLockOrigin work (s.cache.lookup work.entity)))
      | _ => none
  | .migrate i =>
      match s.sessions i with
      | .adopting work written outcome =>
          some (s.advance i (.upserted work (some written) outcome))
      | _ => none
  | .after i result =>
      match s.sessions i with
      | .upserted work written outcome =>
          some (s.advance i (afterAfter dispatcher work written outcome result))
      | _ => none
  | .mark i =>
      match s.sessions i with
      | .handled work written outcome ran =>
          some (s.advance i (.marked work written outcome ran))
      | _ => none
  | .commit i processedAt =>
      match s.sessions i with
      | .marked work written outcome ran =>
          some
            { received := (markReceivedProcessed work.row.messageId processedAt s.received).1
              cache := writeBack s.cache written
              sessions := Function.update s.sessions i .idle
              executions := s.executions ++
                [{ row := work.row, flow := work.flow, applied := outcome, afterRan := ran }] }
      | _ => none
  | .fail i =>
      match (s.sessions i).row? with
      | some row => some (s.advance i (.unwinding row))
      | none => none
  | .recordFailure i failure backoff =>
      match s.sessions i with
      | .unwinding row =>
          if failure.messageId = row.messageId then
            some
              { s with
                received := (recordReceivedFailure dispatcher.retry failure backoff s.received).1
                sessions := Function.update s.sessions i .idle }
          else
            none
      | _ => none
  | .lose i => some (s.advance i .idle)
  | .recordOnFreshConnection failure backoff =>
      -- The statement waits for whoever holds the row.
      if ∃ j, (s.sessions j).rowLock = some failure.messageId then
        none
      else
        some { s with
          received := (recordReceivedFailure dispatcher.retry failure backoff s.received).1 }
  | .ingest insert now =>
      some { s with received := (insertReceivedRow now insert s.received).1 }
  | .redrive replay held =>
      some { s with
        received := redrive replay
          (fun id => held id || decide (∃ j, (s.sessions j).rowLock = some id)) s.received }

def system (n : Nat) : TransitionSystem (State n) (Action n) :=
  { init := fun s =>
      s.cache = Table.empty ∧ (∀ i, s.sessions i = .idle) ∧ s.executions = []
    next := next dispatcher }

end Semantics

end Concurrent
end Dispatch
end Kafkaman
