import Kafkaman.Dispatch.Cache
import Kafkaman.Received.Rows

/-!
# Dispatch.Cycle — claim a received row, converge the cache, run its handlers, record the outcome

One cycle is one transaction: the claim, a savepoint, both handler positions with the cache upsert
between them, and the processed mark.  A failure inside the savepoint is unwound and recorded in the
same transaction; when the unwinding itself fails, the transaction is given up and the record goes to
a fresh connection, which is a step of its own (`recordOnFreshConnection`).  Recording panics where
the retry cannot be scheduled; no panic boundary is around it, and the transaction is rolled back.

Handlers are arbitrary functions of what they can see.  They get the transaction's view of the
database and answer with the application's new state; a statement of theirs that failed leaves the
transaction aborted whatever they return.
-/

namespace Kafkaman
namespace Dispatch

open Lib Received

/-! ## Handlers and the router -/

/-- The relations of one message type, and the application's own. -/
structure Database (σ : Type) where
  received : ReceivedTable
  cache : CacheTable
  app : σ

/-- How a handler call ended: its result, the application's state, and whether a statement of it
has left the transaction aborted. -/
structure HandlerRun (σ α : Type) where
  result : AppCall (Except Error α)
  app : σ
  aborted : Bool

/-- A handler; `ω` is whatever it consults besides its connection. -/
abbrev Handler (σ ω α : Type) : Type :=
  ω → ReceivedMeta → Json → Database σ → HandlerRun σ α

/-- `HandlerFlow`; `proceed` is the source's `Continue`. -/
inductive HandlerFlow
  | proceed
  | skipHandler
  deriving DecidableEq, Repr

structure MessageRouter (σ ω : Type) where
  handlers : SortedMap String (Handler σ ω Unit)
  beforeHandlers : SortedMap String (Handler σ ω HandlerFlow)

namespace MessageRouter

variable {σ ω : Type} (router : MessageRouter σ ω) (messageType : String)

def handlerFor : Option (Handler σ ω Unit) :=
  router.handlers.get? messageType

def beforeHandlerFor : Option (Handler σ ω HandlerFlow) :=
  router.beforeHandlers.get? messageType

/-- Whether the type has a handler at either position. -/
def routes : Bool :=
  (router.handlerFor messageType).isSome || (router.beforeHandlerFor messageType).isSome

end MessageRouter

/-- `run_handler`: the panic boundary. -/
def runHandler {α : Type} : AppCall (Except Error α) → Except Error α
  | .returned result => result
  | .panicked message => .error (.handlerPanicked message)

theorem runHandler_eq_ok {α : Type} {call : AppCall (Except Error α)} {a : α} :
    runHandler call = .ok a ↔ call = .returned (.ok a) := by
  cases call with
  | returned result =>
      simp [runHandler]
  | panicked message =>
      simp [runHandler]

/-! ## A cycle -/

/-- What a dispatcher is configured with. -/
structure Dispatcher (σ ω : Type) where
  router : MessageRouter σ ω
  descriptor : MessageDescriptor
  retry : RetryPolicy
  codec : Broker.Codec

/-- What one cycle meets. -/
structure CycleEnv (ω : Type) where
  dueAt : Instant
  /-- `now()` of the cycle's transaction. -/
  now : Timestamp
  /-- Rows other transactions hold. -/
  locked : Uuid → Bool
  beforeSees : ω
  afterSees : ω
  fails : Point → Option String
  /-- Whether a commit that failed at the client took effect all the same. -/
  lands : Bool
  backoff : Nanos

/-- Whether the statement at a point goes through. -/
def reach {ω : Type} (env : CycleEnv ω) (aborted : Bool) (point : Point) : Except Error Unit :=
  if aborted then
    .error (.sqlx
      "current transaction is aborted, commands ignored until end of transaction block")
  else
    match env.fails point with
    | some text => .error (.sqlx text)
    | none => .ok ()

/-- Where in the cycle a dispatch failed. -/
inductive DispatchFailure where
  | handler (error : Error)
  | bookkeeping (error : Error)

namespace DispatchFailure

def error : DispatchFailure → Error
  | .handler error | .bookkeeping error => error

def disposition : DispatchFailure → FailureDisposition
  | .handler error => failureDisposition error .handler
  | .bookkeeping error => failureDisposition error .bookkeeping

def isHandlerPanic : DispatchFailure → Bool
  | .handler (.handlerPanicked _) => true
  | _ => false

end DispatchFailure

/-- History of one committed cycle: the row, and what its two hooks and the cache apply came to. -/
structure Execution where
  row : ReceivedRow
  flow : HandlerFlow
  applied : CacheApplyOutcome
  afterRan : Bool

/-- A savepoint body that held. -/
structure Converged (σ : Type) where
  db : Database σ
  mark : MarkOutcome
  execution : Execution

section Cycle

variable {σ ω : Type} (dispatcher : Dispatcher σ ω) (env : CycleEnv ω) (row : ReceivedRow)

/-- The transaction's view between two statements. -/
structure View (σ : Type) where
  db : Database σ
  aborted : Bool

/-- The pre-upsert position. -/
def runBefore (db : Database σ) : Except DispatchFailure (HandlerFlow × View σ) :=
  match dispatcher.router.beforeHandlerFor row.messageType with
  | none => .ok (.proceed, { db := db, aborted := false })
  | some before =>
      let run := before env.beforeSees (ReceivedMeta.ofRow row) row.payload db
      match runHandler run.result with
      | .error error => .error (.handler error)
      | .ok flow => .ok (flow, { db := { db with app := run.app }, aborted := run.aborted })

/-- The post-upsert position, with whether a handler ran there. -/
def runAfter (flow : HandlerFlow) (outcome : CacheApplyOutcome) (view : View σ) :
    Except DispatchFailure (Bool × View σ) :=
  if flow = .proceed ∧ outcome ≠ .ignored then
    match dispatcher.router.handlerFor row.messageType with
    | none => .ok (false, view)
    | some handler =>
        let run := handler env.afterSees (ReceivedMeta.ofRow row) row.payload view.db
        match runHandler run.result with
        | .error error => .error (.handler error)
        | .ok () => .ok (true, { db := { view.db with app := run.app }, aborted := run.aborted })
  else
    .ok (false, view)

/-- `converge_and_dispatch`: everything inside the savepoint. -/
def convergeAndDispatch (db : Database σ) : Except DispatchFailure (Converged σ) := do
  let (flow, before) ← runBefore dispatcher env row db
  let (cache, outcome) ←
    (upsertCacheFromReceived dispatcher.descriptor.topic env.now
      (reach env before.aborted) row before.db.cache).mapError DispatchFailure.bookkeeping
  let (ran, after) ← runAfter dispatcher env row flow outcome
    { before with db := { before.db with cache := cache } }
  (reach env after.aborted .markProcessed).mapError DispatchFailure.bookkeeping
  let marked := markReceivedProcessed row.messageId env.dueAt after.db.received
  return {
    db := { after.db with received := marked.1 }
    mark := marked.2
    execution :=
      { row := row
        flow := flow
        applied := outcome
        afterRan := ran } }

structure DispatchStats where
  claimed : Nat
  processed : Nat
  failed : Nat
  panicked : Nat
  panickedMessageId : Option Uuid
  deriving DecidableEq, Repr

def DispatchStats.default : DispatchStats :=
  { claimed := 0
    processed := 0
    failed := 0
    panicked := 0
    panickedMessageId := none }

/-- `dispatch_failure_stats`, with the panic the caller adds. -/
def dispatchFailureStats (outcome : MarkOutcome) (panicked : Option Uuid) : DispatchStats :=
  { claimed := 1
    processed := 0
    failed := if outcome = .updated then 1 else 0
    panicked := if panicked.isSome then 1 else 0
    panickedMessageId := panicked }

/-- A failure record on its way to a fresh connection, with the row that panicked if one did. -/
structure Fallback where
  failure : ReceivedFailureRecord
  panicked : Option Uuid

/-- How the cycle's own transaction ended. -/
inductive CycleEnd where
  | finished (result : Except Error DispatchStats)
  /-- The dispatcher's own code panicked. -/
  | panicked
  | fallback (pending : Fallback)

/-- The committed database after the transaction, and what the history gains. -/
structure CycleResult (σ : Type) where
  db : Database σ
  execution : Option Execution
  ending : CycleEnd

/-- A transaction that committed nothing. -/
def giveUp (db : Database σ) (error : Error) : CycleResult σ :=
  { db := db
    execution := none
    ending := .finished (.error error) }

/-- Record a failure in the claim transaction and commit. -/
def recordInClaimTransaction (failure : ReceivedFailureRecord) (panicked : Option Uuid)
    (db : Database σ) : CycleResult σ :=
  if failure.panics dispatcher.retry env.backoff then
    { db := db
      execution := none
      ending := .panicked }
  else match env.fails .recordFailure with
  | some text => giveUp db (.sqlx text)
  | none =>
      let recorded := recordReceivedFailure dispatcher.retry failure env.backoff db.received
      match env.fails .commitFailure with
      | some text =>
          giveUp { db with received := if env.lands then recorded.1 else db.received } (.sqlx text)
      | none =>
          { db := { db with received := recorded.1 }
            execution := none
            ending := .finished (.ok (dispatchFailureStats recorded.2 panicked)) }

/-- `rollback_handler_and_record_received_failure`; the savepoint restores `db`. -/
def unwindAndRecord (failure : DispatchFailure) (db : Database σ) : CycleResult σ :=
  let record := ReceivedFailureRecord.of row failure.disposition
    (failure.error.display dispatcher.codec.uuidText) env.dueAt
  let panicked := if failure.isHandlerPanic then some row.messageId else none
  match env.fails .rollbackToSavepoint with
  | none => recordInClaimTransaction dispatcher env record panicked db
  | some _ =>
      { db := db
        execution := none
        ending := .fallback { failure := record, panicked := panicked } }

/-- The `COMMIT` of a cycle whose savepoint body held. -/
def commitConverged (converged : Converged σ) (db : Database σ) : CycleResult σ :=
  match env.fails .commit with
  | some text =>
      -- A commit that reports an error may have gone through all the same.
      { db := if env.lands then converged.db else db
        execution := if env.lands then some converged.execution else none
        ending := .finished (.error (.sqlx text)) }
  | none =>
      { db := converged.db
        execution := some converged.execution
        ending := .finished (.ok
          { claimed := 1
            processed := if converged.mark = .updated then 1 else 0
            failed := 0
            panicked := 0
            panickedMessageId := none }) }

/-- Everything that happens to a row once it is claimed. -/
def dispatchClaimedRow (db : Database σ) : CycleResult σ :=
  if dispatcher.router.routes row.messageType then
    match env.fails .savepoint with
    | some text => giveUp db (.sqlx text)
    | none =>
        match convergeAndDispatch dispatcher env row db with
        | .ok converged => commitConverged env converged db
        | .error failure => unwindAndRecord dispatcher env row failure db
  else
    -- An unregistered type parks its row before the cache advances.
    let error := Error.missingHandler row.messageType
    recordInClaimTransaction dispatcher env
      (ReceivedFailureRecord.of row (failureDisposition error .routing)
        (error.display dispatcher.codec.uuidText) env.dueAt) none db

/-- `dispatch_once`, up to the end of its transaction. -/
def dispatchOnce (db : Database σ) : CycleResult σ :=
  match env.fails .beginClaim with
  | some text => giveUp db (.sqlx text)
  | none =>
      match env.fails .claim with
      | some text => giveUp db (.sqlx text)
      | none =>
          match claimReceivedRow env.dueAt env.locked db.received with
          | some row => dispatchClaimedRow dispatcher env row db
          | none =>
              match env.fails .commit with
              | some text => giveUp db (.sqlx text)
              | none =>
                  { db := db
                    execution := none
                    ending := .finished (.ok DispatchStats.default) }

/-- The rest of a cycle whose savepoint rollback failed: one statement on a fresh connection, at
which anything may have happened to the row meanwhile. -/
def recordOnFreshConnection (pending : Fallback) (db : Database σ) : Database σ × CycleEnd :=
  let recorded := recordReceivedFailure dispatcher.retry pending.failure env.backoff db.received
  match env.fails .acquire with
  | some text => (db, .finished (.error (.sqlx text)))
  | none =>
      if pending.failure.panics dispatcher.retry env.backoff then
        (db, .panicked)
      else match env.fails .recordFailure with
      | some text =>
          ({ db with received := if env.lands then recorded.1 else db.received },
            .finished (.error (.sqlx text)))
      | none =>
          ({ db with received := recorded.1 },
            .finished (.ok (dispatchFailureStats recorded.2 pending.panicked)))

end Cycle

end Dispatch
end Kafkaman
