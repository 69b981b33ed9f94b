import Kafkaman.Outbox.Statement

/-!
# Resync.System — repairs of a snapshot topic beside live writers

`resync` pages through entity keys and, key by key, opens a transaction that takes the entity's
advisory lock, loads the committed domain state and enqueues it.  A live writer updates the domain
state and enqueues it in one transaction, in either order, at `READ COMMITTED` or with a fixed
snapshot.  The statements of any number of both are interleaved here.

* `Process`, `Tx` — where a writer or a resync is, and its transaction on one entity;
* `ResyncRun` — the loop of `resync` around its transactions;
* `next` — one statement of one process, or of somebody else;
* `Step`, `step_of_next` — the same steps as a relation.

The advisory lock is on `lockKey entity`, a hash: entities may share a lock.
-/

namespace Kafkaman
namespace Resync

open Lib Outbox

/-! ## The loop -/

/-- `ResyncProgress`. -/
structure ResyncProgress where
  enqueued : Nat
  skipped : Nat
  lastKey : Option String
  deriving DecidableEq, Repr

/-- The progress after a key's commit. -/
def ResyncProgress.advance (progress : ResyncProgress) (key : String) (enqueued : Bool) :
    ResyncProgress :=
  { enqueued := progress.enqueued + if enqueued then 1 else 0
    skipped := progress.skipped + if enqueued then 0 else 1
    lastKey := some key }

inductive ResyncError where
  | storage (error : Error)
  | invalidResync (reason : String)

/-- A run between two transactions. -/
structure ResyncRun where
  batchSize : Nat
  progress : ResyncProgress
  /-- The keys of the current page that are left. -/
  pending : List String

def ResyncRun.start (batchSize : Nat) (startAfter : Option String) : ResyncRun :=
  { batchSize := batchSize
    progress :=
      { enqueued := 0
        skipped := 0
        lastKey := startAfter }
    pending := [] }

/-- What the loop asks of a page that is not empty. -/
def ResyncRun.accepts (run : ResyncRun) (batch : List String) : Bool :=
  batch.length ≤ run.batchSize && (batch.zip batch.tail).all (fun pair => pair.1 < pair.2) &&
    run.progress.lastKey.all fun last => batch.head?.all fun first => last < first

/-- The run after a key's commit. -/
def ResyncRun.advance (run : ResyncRun) (key : String) (enqueued : Bool) : ResyncRun :=
  { run with
    progress := run.progress.advance key enqueued
    pending := run.pending.tail }

/-! ## Transactions -/

/-- A row that is inserted and not committed, with the payload it was made from and the rows that
the same enqueue superseded. -/
structure Staged (P : Type) where
  payload : P
  row : OutboxRow
  superseded : List Uuid

/-- A transaction on one entity, as far as the outbox goes. -/
structure Tx (P : Type) where
  entity : String
  /-- The rows of a fixed snapshot; `none` is `READ COMMITTED`. -/
  fixed : Option (List OutboxRow)
  /-- Whether it holds the advisory lock. -/
  locked : Bool
  staged : Option (Staged P)

def Tx.opened {P : Type} (entity : String) (fixed : Option (List OutboxRow)) : Tx P :=
  { entity := entity
    fixed := fixed
    locked := false
    staged := none }

inductive Process (P : Type) where
  | idle
  /-- A live writer; with a domain value written it holds the entity's row lock. -/
  | writing (tx : Tx P) (written : Option P)
  /-- A resync between two transactions. -/
  | paging (run : ResyncRun)
  /-- A resync in the transaction of the first pending key, with what `load` has returned. -/
  | repairing (run : ResyncRun) (tx : Tx P) (loaded : Option (Option P))
  | ended (result : Except ResyncError ResyncProgress)

namespace Process

variable {P : Type}

def tx : Process P → Option (Tx P)
  | .idle | .paging _ | .ended _ => none
  | .writing tx _ | .repairing _ tx _ => some tx

def loaded : Process P → Option (Option P)
  | .repairing _ _ loaded => loaded
  | _ => none

/-- Whether the process holds the row lock of an entity. -/
def holdsRow (entity : String) : Process P → Bool
  | .writing tx written => tx.entity = entity && written.isSome
  | _ => false

/-- Whether the process holds an advisory lock. -/
def holdsLock (lockKey : String → Int) (lock : Int) (process : Process P) : Bool :=
  process.tx.any fun tx => lockKey tx.entity = lock && tx.locked

end Process

/-- `n` processes over one database. -/
structure State (P : Type) (n : Nat) where
  /-- The committed domain value of each entity, if there is one. -/
  domain : String → Option P
  table : OutboxTable
  sequence : Nat
  processes : Fin n → Process P

inductive Action (P : Type) (n : Nat) where
  | beginWrite (j : Fin n) (entity : String) (fixed : Bool)
  | update (j : Fin n) (value : P)
  /-- `lock_outbox_entity`, in an enqueue or at the start of a repair. -/
  | lockEntity (j : Fin n)
  /-- A writer's enqueue fails after its lock: the savepoint is rolled back, and the lock with it. -/
  | releaseEntity (j : Fin n)
  | load (j : Fin n)
  /-- The supersede and the `INSERT` of an enqueue. -/
  | insert (j : Fin n) (evt : Envelope P) (trace : Option TraceContext) (now : Timestamp)
  | commit (j : Fin n)
  /-- A statement fails, or the caller gives up. -/
  | rollback (j : Fin n) (error : Error)
  | startResync (j : Fin n) (batchSize : Nat) (startAfter : Option String)
  /-- `keys` returns a page. -/
  | page (j : Fin n) (batch : List String)
  | beginRepair (j : Fin n)
  /-- A request without an idempotency identity, in a transaction that commits all the same. -/
  | audit (insert : InsertOutboxRow) (now : Timestamp)
  /-- A statement of a relay, which assigns no frozen column. -/
  | assign (p : OutboxRow → Bool) (f : OutboxRow → OutboxRow)
      (hf : ∀ r, (f r).frozen = r.frozen)

section Semantics

variable {P : Type} {n : Nat} (message : KafkaMessage P) (descriptor : MessageDescriptor)
  (lockKey : String → Int)

def State.set (s : State P n) (j : Fin n) (process : Process P) : State P n :=
  { s with processes := Function.update s.processes j process }

/-- Whether another process has written the entity. -/
def rowLocked (s : State P n) (j : Fin n) (entity : String) : Bool :=
  decide (∃ i, i ≠ j ∧ (s.processes i).holdsRow entity = true)

/-- Whether another process holds the entity's advisory lock. -/
def entityLocked (s : State P n) (j : Fin n) (entity : String) : Bool :=
  decide (∃ i, i ≠ j ∧ (s.processes i).holdsLock lockKey (lockKey entity) = true)

/-- The checks of a repair between `load` and the first statement of its enqueue. -/
def repairRequest (entity : String) (evt : Envelope P) (trace : Option TraceContext) :
    Except ResyncError InsertOutboxRow := do
  let actual ← (catchApplicationPanic descriptor.messageType "resolve entity key"
    (message.entityKey evt.payload)).mapError ResyncError.storage
  if actual ≠ entity then
    throw (.invalidResync ("loader returned entity key `" ++ actual ++
      "` while holding the lock for `" ++ entity ++ "`"))
  (prepareInsert message descriptor evt trace).mapError ResyncError.storage

/-- With the refusal of `enqueue` besides. -/
def repairInsert (entity : String) (evt : Envelope P) (trace : Option TraceContext) :
    Except ResyncError InsertOutboxRow := do
  let insert ← repairRequest message descriptor entity evt trace
  match insert.idempotencyKey with
  | none => throw (.storage .missingIdempotencyKey)
  | some _ => return insert

/-- The transaction after its supersede and its `INSERT`, which draws from the sequence. -/
def Tx.stage (tx : Tx P) (rows : List OutboxRow) (order : Nat) (payload : P)
    (insert : InsertOutboxRow) (now : Timestamp) : Tx P :=
  { tx with
    staged := some
      { payload := payload
        row := insert.inserted now order
        superseded :=
          ((tx.fixed.getD rows).filter (supersedes (fun _ => true) insert.entityKey)).map
            OutboxRow.messageId } }

/-- What a transaction leaves when it commits; `none` is the primary key violation. -/
def State.commitTx (s : State P n) (j : Fin n) (tx : Tx P) (written : Option P)
    (process : Process P) : Option (State P n) :=
  let table := match tx.staged with
    | some staged => Statement.applyEnqueue staged.row staged.superseded s.table
    | none => some s.table
  table.map fun table =>
    { s.set j process with
      domain := match written with
        | some value => Function.update s.domain tx.entity (some value)
        | none => s.domain
      table := table }

/-- A process between two tasks. -/
def nextIdle (s : State P n) (j : Fin n) : Action P n → Option (State P n)
  | .beginWrite _ entity fixed =>
      let snapshot := if fixed then some s.table.rows else none
      some (s.set j (.writing (Tx.opened entity snapshot) none))
  | .startResync _ batchSize startAfter =>
      some (s.set j (.paging (ResyncRun.start batchSize startAfter)))
  | _ => none

/-- The loop of `resync` between two transactions. -/
def nextPaging (s : State P n) (j : Fin n) (run : ResyncRun) : Action P n → Option (State P n)
  | .page _ batch =>
      if run.pending = [] then
        if batch.isEmpty then some (s.set j (.ended (.ok run.progress)))
        else if run.accepts batch then some (s.set j (.paging { run with pending := batch }))
        else
          some (s.set j (.ended (.error (.invalidResync
            "keys must be strictly increasing, after the cursor, and within batch_size"))))
      else
        none
  | .beginRepair _ =>
      run.pending.head?.map fun key => s.set j (.repairing run (Tx.opened key none) none)
  | .rollback _ error => some (s.set j (.ended (.error (.storage error))))
  | _ => none

variable [DecidableEq P]

/-- The statements of a live writer.  It commits the value it has enqueued, or nothing. -/
def nextWriter (s : State P n) (j : Fin n) (tx : Tx P) (written : Option P) :
    Action P n → Option (State P n)
  | .update _ value =>
      if rowLocked s j tx.entity then none
      else some (s.set j (.writing tx (some value)))
  | .lockEntity _ =>
      if entityLocked lockKey s j tx.entity then none
      else some (s.set j (.writing { tx with locked := true } written))
  | .releaseEntity _ =>
      if tx.staged.isNone then some (s.set j (.writing { tx with locked := false } written))
      else none
  | .insert _ evt trace now =>
      match prepareInsert message descriptor evt trace with
      | .error _ => some s
      | .ok insert =>
          if tx.locked = true ∧ tx.staged.isNone ∧ insert.idempotencyKey.isSome ∧
              insert.entityKey = tx.entity then
            some
              { s.set j (.writing (tx.stage s.table.rows s.sequence evt.payload insert now)
                  written) with
                sequence := s.sequence + 1 }
          else
            none
  | .commit _ =>
      if written = tx.staged.map Staged.payload then s.commitTx j tx written .idle else none
  | .rollback _ _ => some (s.set j .idle)
  | _ => none

/-- The transaction of one key. -/
def nextRepair (s : State P n) (j : Fin n) (run : ResyncRun) (tx : Tx P)
    (loaded : Option (Option P)) : Action P n → Option (State P n)
  | .lockEntity _ =>
      if entityLocked lockKey s j tx.entity then none
      else some (s.set j (.repairing run { tx with locked := true } loaded))
  | .load _ =>
      if tx.locked = true ∧ loaded.isNone then
        some (s.set j (.repairing run tx (some (s.domain tx.entity))))
      else
        none
  | .insert _ evt trace now =>
      -- The enqueue takes the lock once more, which the transaction holds already.
      if tx.locked = true ∧ loaded = some (some evt.payload) ∧ tx.staged.isNone then
        match repairInsert message descriptor tx.entity evt trace with
        | .error error => some (s.set j (.ended (.error error)))
        | .ok insert =>
            some
              { s.set j (.repairing run
                  (tx.stage s.table.rows s.sequence evt.payload insert now) loaded) with
                sequence := s.sequence + 1 }
      else
        none
  | .commit _ =>
      if loaded = some (tx.staged.map Staged.payload) then
        s.commitTx j tx none (.paging (run.advance tx.entity tx.staged.isSome))
      else
        none
  | .rollback _ error => some (s.set j (.ended (.error (.storage error))))
  | _ => none

/-- The statements of one process. -/
def nextProcess (s : State P n) (j : Fin n) (a : Action P n) : Option (State P n) :=
  match s.processes j with
  | .idle | .ended _ => nextIdle s j a
  | .writing tx written => nextWriter message descriptor lockKey s j tx written a
  | .paging run => nextPaging s j run a
  | .repairing run tx loaded => nextRepair message descriptor lockKey s j run tx loaded a

def next (s : State P n) (a : Action P n) : Option (State P n) :=
  match a with
  | .beginWrite j _ _ | .update j _ | .lockEntity j | .releaseEntity j | .load j
  | .insert j _ _ _ | .commit j | .rollback j _ | .startResync j _ _ | .page j _
  | .beginRepair j => nextProcess message descriptor lockKey s j a
  | .audit insert now =>
      if insert.idempotencyKey.isNone then
        (s.table.insert? (insert.inserted now s.sequence)).map fun table =>
          { s with
            table := table
            sequence := s.sequence + 1 }
      else
        none
  | .assign p f hf =>
      some { s with table := s.table.updateWhere p f fun r => messageId_of_frozen (hf r) }

/-- Entities may have any state before the first process runs. -/
def system : TransitionSystem (State P n) (Action P n) :=
  { init := fun s => s.table = Table.empty ∧ s.sequence = 1 ∧ s.processes = fun _ => .idle
    next := next message descriptor lockKey }

end Semantics

/-! ## The steps as a relation -/

section Relation

variable {P : Type} {n : Nat} (message : KafkaMessage P) (descriptor : MessageDescriptor)
  (lockKey : String → Int)

/-- What a staged row is made from. -/
structure Stages (tx : Tx P) (payload : P) (insert : InsertOutboxRow) : Prop where
  locked : tx.locked = true
  accepted : insert.idempotencyKey.isSome = true
  entity : insert.entityKey = tx.entity
  payload : message.toValue payload = .returned (.ok insert.payload)

/-- What a transaction that commits has enqueued: the value it has written, or the value it has
loaded and not written. -/
def Agrees (process : Process P) (tx : Tx P) (written : Option P) : Prop :=
  written = tx.staged.map Staged.payload ∨
    written = none ∧ process.loaded = some (tx.staged.map Staged.payload)

/-- `next`, one constructor for each thing that can happen. -/
inductive Step (s s' : State P n) : Prop
  | unchanged (h : s' = s)
  /-- A transaction begins or ends without effect, or gives its lock back. -/
  | cleared (j : Fin n) (process : Process P) (hloaded : process.loaded = none)
      (htx : ∀ tx ∈ process.tx, tx.locked = false ∧ tx.staged = none) (h : s' = s.set j process)
  | written (j : Fin n) (tx : Tx P) (written : Option P) (value : P)
      (hj : s.processes j = .writing tx written) (h : s' = s.set j (.writing tx (some value)))
  | locked (j : Fin n) (process : Process P) (tx : Tx P) (htx : (s.processes j).tx = some tx)
      (hfree : entityLocked lockKey s j tx.entity = false)
      (htx' : process.tx = some { tx with locked := true })
      (hloaded : process.loaded = (s.processes j).loaded) (h : s' = s.set j process)
  | loaded (j : Fin n) (run : ResyncRun) (tx : Tx P) (hlocked : tx.locked = true)
      (hj : (s.processes j).tx = some tx)
      (h : s' = s.set j (.repairing run tx (some (s.domain tx.entity))))
  | staged (j : Fin n) (process : Process P) (tx : Tx P) (payload : P) (insert : InsertOutboxRow)
      (now : Timestamp) (htx : (s.processes j).tx = some tx)
      (hstages : Stages message tx payload insert)
      (htx' : process.tx = some (tx.stage s.table.rows s.sequence payload insert now))
      (hloaded : process.loaded = (s.processes j).loaded)
      (h : s' = { s.set j process with sequence := s.sequence + 1 })
  | committed (j : Fin n) (process : Process P) (tx : Tx P) (written : Option P)
      (htx : (s.processes j).tx = some tx) (htx' : process.tx = none)
      (hagrees : Agrees (s.processes j) tx written)
      (h : s.commitTx j tx written process = some s')
  | audited (insert : InsertOutboxRow) (now : Timestamp) (table : OutboxTable)
      (hnone : insert.idempotencyKey = none)
      (hinsert : s.table.insert? (insert.inserted now s.sequence) = some table)
      (h : s' =
        { s with
          table := table
          sequence := s.sequence + 1 })
  | assigned (p : OutboxRow → Bool) (f : OutboxRow → OutboxRow)
      (hf : ∀ r, (f r).frozen = r.frozen)
      (h : s' =
        { s with table := s.table.updateWhere p f fun r => messageId_of_frozen (hf r) })

variable {message descriptor lockKey}

theorem payload_of_prepareInsert {evt : Envelope P} {trace : Option TraceContext}
    {insert : InsertOutboxRow} (h : prepareInsert message descriptor evt trace = .ok insert) :
    message.toValue evt.payload = .returned (.ok insert.payload) ∧
      message.entityKey evt.payload = .returned insert.entityKey := by
  rcases prepareInsert_eq_ok.1 h with ⟨-, _, -, _, hentity, _, hvalue, rfl⟩
  exact ⟨hvalue, hentity⟩

theorem repairRequest_eq_ok {entity : String} {evt : Envelope P} {trace : Option TraceContext}
    {insert : InsertOutboxRow}
    (h : repairRequest message descriptor entity evt trace = .ok insert) :
    prepareInsert message descriptor evt trace = .ok insert ∧ insert.entityKey = entity := by
  unfold repairRequest at h
  rcases bind_eq_ok.1 h with ⟨actual, hactual, h⟩
  have hentity : message.entityKey evt.payload = .returned actual :=
    catchApplicationPanic_eq_ok.1 (mapError_eq_ok.1 hactual)
  by_cases hkey : actual = entity
  · simp only [hkey, ne_eq, not_true_eq_false, if_false] at h
    have hprepare := mapError_eq_ok.1 h
    have hsame := (payload_of_prepareInsert hprepare).2
    rw [hentity, hkey] at hsame
    injection hsame with hsame
    exact ⟨hprepare, hsame.symm⟩
  · simp only [hkey, ne_eq, not_false_eq_true, if_true] at h
    cases h

theorem repairInsert_eq_ok {entity : String} {evt : Envelope P} {trace : Option TraceContext}
    {insert : InsertOutboxRow}
    (h : repairInsert message descriptor entity evt trace = .ok insert) :
    prepareInsert message descriptor evt trace = .ok insert ∧
      insert.idempotencyKey.isSome = true ∧ insert.entityKey = entity := by
  rcases bind_eq_ok.1 h with ⟨insert', hrequest, h⟩
  rcases repairRequest_eq_ok hrequest with ⟨hprepare, hentity⟩
  cases hidentity : insert'.idempotencyKey with
  | none =>
      rw [hidentity] at h
      cases h
  | some key =>
      rw [hidentity] at h
      cases h
      exact ⟨hprepare, by rw [hidentity]; rfl, hentity⟩

variable {s s' : State P n} {j : Fin n} {a : Action P n}

theorem step_of_nextIdle (h : nextIdle s j a = some s') : Step message lockKey s s' := by
  cases a with
  | beginWrite _ entity fixed =>
      cases h
      refine .cleared j _ rfl ?_ rfl
      intro tx' htx'
      cases htx'
      exact ⟨rfl, rfl⟩
  | startResync _ batchSize startAfter =>
      cases h
      exact .cleared j _ rfl (fun tx' htx' => by cases htx') rfl
  | update _ _ | lockEntity _ | releaseEntity _ | load _ | insert _ _ _ _ | commit _
  | rollback _ _ | page _ _ | beginRepair _ | audit _ _ | assign _ _ _ =>
      cases h

theorem step_of_nextPaging {run : ResyncRun} (h : nextPaging s j run a = some s') :
    Step message lockKey s s' := by
  have hended : ∀ result, Step message lockKey s (s.set j (.ended result)) :=
    fun result => .cleared j (.ended result) rfl (fun tx' htx' => by cases htx') rfl
  cases a with
  | page _ batch =>
      simp only [nextPaging] at h
      split at h
      · split at h
        · cases h
          exact hended _
        · split at h
          · cases h
            exact .cleared j _ rfl (fun tx' htx' => by cases htx') rfl
          · cases h
            exact hended _
      · cases h
  | beginRepair _ =>
      rcases Option.map_eq_some_iff.1 h with ⟨key, -, rfl⟩
      refine .cleared j _ rfl ?_ rfl
      intro tx' htx'
      cases htx'
      exact ⟨rfl, rfl⟩
  | rollback _ error =>
      cases h
      exact hended _
  | beginWrite _ _ _ | update _ _ | lockEntity _ | releaseEntity _ | load _ | insert _ _ _ _
  | commit _ | startResync _ _ _ | audit _ _ | assign _ _ _ =>
      cases h

variable [DecidableEq P]

theorem step_of_nextWriter {tx : Tx P} {written : Option P}
    (hj : s.processes j = .writing tx written)
    (h : nextWriter message descriptor lockKey s j tx written a = some s') :
    Step message lockKey s s' := by
  have htx : (s.processes j).tx = some tx := by rw [hj]; rfl
  have hloaded : (s.processes j).loaded = none := by rw [hj]; rfl
  cases a with
  | update _ value =>
      simp only [nextWriter] at h
      split at h
      · cases h
      · cases h
        exact .written j tx written value hj rfl
  | lockEntity _ =>
      simp only [nextWriter] at h
      split at h
      · cases h
      · rename_i hfree
        cases h
        exact .locked j (.writing { tx with locked := true } written) tx htx
          (Bool.eq_false_iff.2 hfree) rfl hloaded.symm rfl
  | releaseEntity _ =>
      simp only [nextWriter] at h
      split at h
      · rename_i hstaged
        cases h
        refine .cleared j _ rfl ?_ rfl
        intro tx' htx'
        cases htx'
        exact ⟨rfl, Option.isNone_iff_eq_none.1 hstaged⟩
      · cases h
  | insert _ evt trace now =>
      simp only [nextWriter] at h
      cases hprepare : prepareInsert message descriptor evt trace with
      | error error =>
          rw [hprepare] at h
          cases h
          exact .unchanged rfl
      | ok insert =>
          rw [hprepare] at h
          dsimp only at h
          split at h
          · rename_i hguard
            rcases hguard with ⟨hlocked, -, haccepted, hentity⟩
            cases h
            exact .staged j
              (.writing (tx.stage s.table.rows s.sequence evt.payload insert now) written) tx
              evt.payload insert now htx
              { locked := hlocked
                accepted := haccepted
                entity := hentity
                payload := (payload_of_prepareInsert hprepare).1 }
              rfl hloaded.symm rfl
          · cases h
  | commit _ =>
      simp only [nextWriter] at h
      split at h
      · rename_i hagrees
        exact .committed j _ tx written htx rfl (Or.inl hagrees) h
      · cases h
  | rollback _ error =>
      cases h
      exact .cleared j .idle rfl (fun tx' htx' => by cases htx') rfl
  | beginWrite _ _ _ | load _ | startResync _ _ _ | page _ _ | beginRepair _ | audit _ _
  | assign _ _ _ =>
      cases h

theorem step_of_nextRepair {run : ResyncRun} {tx : Tx P} {loaded : Option (Option P)}
    (hj : s.processes j = .repairing run tx loaded)
    (h : nextRepair message descriptor lockKey s j run tx loaded a = some s') :
    Step message lockKey s s' := by
  have htx : (s.processes j).tx = some tx := by rw [hj]; rfl
  have hloaded : (s.processes j).loaded = loaded := by rw [hj]; rfl
  have hended : ∀ result, Step message lockKey s (s.set j (.ended result)) :=
    fun result => .cleared j (.ended result) rfl (fun tx' htx' => by cases htx') rfl
  cases a with
  | lockEntity _ =>
      simp only [nextRepair] at h
      split at h
      · cases h
      · rename_i hfree
        cases h
        exact .locked j (.repairing run { tx with locked := true } loaded) tx htx
          (Bool.eq_false_iff.2 hfree) rfl hloaded.symm rfl
  | load _ =>
      simp only [nextRepair] at h
      split at h
      · rename_i hguard
        cases h
        exact .loaded j run tx hguard.1 htx rfl
      · cases h
  | insert _ evt trace now =>
      simp only [nextRepair] at h
      split at h
      · rename_i hguard
        cases hinsert : repairInsert message descriptor tx.entity evt trace with
        | error error =>
            rw [hinsert] at h
            cases h
            exact hended _
        | ok insert =>
            rw [hinsert] at h
            cases h
            rcases repairInsert_eq_ok hinsert with ⟨hprepare, haccepted, hentity⟩
            exact .staged j
              (.repairing run (tx.stage s.table.rows s.sequence evt.payload insert now) loaded) tx
              evt.payload insert now htx
              { locked := hguard.1
                accepted := haccepted
                entity := hentity
                payload := (payload_of_prepareInsert hprepare).1 }
              rfl hloaded.symm rfl
      · cases h
  | commit _ =>
      simp only [nextRepair] at h
      split at h
      · rename_i hagrees
        exact .committed j _ tx none htx rfl (Or.inr ⟨rfl, hloaded.trans hagrees⟩) h
      · cases h
  | rollback _ error =>
      cases h
      exact hended _
  | beginWrite _ _ _ | update _ _ | releaseEntity _ | startResync _ _ _ | page _ _
  | beginRepair _ | audit _ _ | assign _ _ _ =>
      cases h

theorem step_of_next (h : next message descriptor lockKey s a = some s') :
    Step message lockKey s s' := by
  have hprocess : ∀ j, nextProcess message descriptor lockKey s j a = some s' →
      Step message lockKey s s' := by
    intro j h
    cases hj : s.processes j with
    | idle =>
        rw [nextProcess, hj] at h
        exact step_of_nextIdle h
    | ended result =>
        rw [nextProcess, hj] at h
        exact step_of_nextIdle h
    | writing tx written =>
        rw [nextProcess, hj] at h
        exact step_of_nextWriter hj h
    | paging run =>
        rw [nextProcess, hj] at h
        exact step_of_nextPaging h
    | repairing run tx loaded =>
        rw [nextProcess, hj] at h
        exact step_of_nextRepair hj h
  cases a with
  | audit insert now =>
      simp only [next] at h
      split at h
      · rename_i hnone
        rcases Option.map_eq_some_iff.1 h with ⟨table, hinsert, rfl⟩
        exact .audited insert now table (Option.isNone_iff_eq_none.1 hnone) hinsert rfl
      · cases h
  | assign p f hf =>
      cases h
      exact .assigned p f hf rfl
  | beginWrite j _ _ | update j _ | lockEntity j | releaseEntity j | load j | insert j _ _ _
  | commit j | rollback j _ | startResync j _ _ | page j _ | beginRepair j =>
      exact hprocess j h

end Relation

end Resync
end Kafkaman
