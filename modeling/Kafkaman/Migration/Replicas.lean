import Kafkaman.Lib.TransitionSystem
import Kafkaman.Migration.Runner
import Mathlib.Logic.Function.Basic

/-!
# Migration.Replicas — every replica of a service migrates when it starts

Any number of replicas run `migrate` on one database, statement by statement, and are stopped at any
of them.  Two things keep them apart: the advisory lock, which lives in a transaction on a connection
of its own and is gone with that connection, and the primary key of `changelog_history`, at which an
`INSERT` waits for another transaction with the same key and fails once that one has committed.

A transaction under `READ COMMITTED` sees, at each statement, what others have committed and what it
has done itself (`Merge`).  So a replica that has lost its lock goes on beside the next one.

* `proceed` — the next call of a replica, when it goes through;
* `Call`, `call_of_proceed` — everything such a call can do;
* `Step`, `step_of_next` — everything a step of the replicas can do.
-/

namespace Kafkaman
namespace Migration

open Lib

/-! ## A replica -/

/-- The arguments of a replica's call of `migrate`. -/
structure Replica (δ : Type) where
  maxConnections : Nat
  ctx : MigrationContext
  changesets : List (Changeset δ)

/-- What a transaction sees, from the committed data it saw last, its own and what is committed now;
where nobody else has committed, its own. -/
structure Merge (δ : Type) where
  view : δ → δ → δ → δ
  alone : ∀ seen own, view seen own seen = own

/-- An open transaction of `run_migrations`. -/
structure Transaction (δ : Type) where
  seen : δ
  data : δ
  executed : List (Int × Nat)

/-- How far a replica has come. -/
inductive Phase (δ : Type) where
  | idle
  /-- Order and pool are checked, and `SchemaLock::acquire` waits. -/
  | locking
  | bootstrapping (left : List (StateT (Database δ) (Except MigrationError) PUnit))
  /-- Between two rounds of the loop. -/
  | looping (reports : List MigrationStepReport) (left : List (Changeset δ))
  /-- The history has the changeset; its transaction is about to commit nothing. -/
  | passing (reports : List MigrationStepReport) (changeset : Changeset δ)
      (left : List (Changeset δ))
  | executing (reports : List MigrationStepReport) (changeset : Changeset δ)
      (left : List (Changeset δ)) (tx : Transaction δ) (statements : List (Statement δ × Nat))
  /-- The history row is inserted, and `COMMIT` is to be sent. -/
  | recorded (reports : List MigrationStepReport) (changeset : Changeset δ)
      (left : List (Changeset δ)) (tx : Transaction δ)
  /-- `run_migrations` is over, and the lock is to be released. -/
  | finished (result : Except MigrationError (List MigrationStepReport))
  | returned (result : Except MigrationError (List MigrationStepReport))

namespace Phase

variable {δ : Type}

/-- Between `SchemaLock::acquire` and `SchemaLock::release`. -/
def critical : Phase δ → Bool
  | .idle | .locking | .returned _ => false
  | _ => true

/-- The replica waits or has given up. -/
inductive Stopped : Phase δ → Prop where
  | idle : Stopped .idle
  | locking : Stopped .locking
  | finished (error : MigrationError) : Stopped (.finished (.error error))
  | returned (error : MigrationError) : Stopped (.returned (.error error))

/-- The key of the history that an open transaction has inserted. -/
def heldVersion : Phase δ → Option Int
  | .recorded _ changeset _ _ => some changeset.version
  | _ => none

end Phase

/-- Where a call leaves its replica and the database, and the changeset it committed. -/
structure Advance (δ : Type) where
  phase : Phase δ
  db : Database δ
  applied : List (Changeset δ)

section Replicas

variable {δ : Type} (merge : Merge δ) (replica : Replica δ)

def refuse (db : Database δ) (error : MigrationError) : Advance δ :=
  { phase := .finished (.error error)
    db := db
    applied := [] }

/-- A call that writes nothing anyone else can see. -/
def goOn (db : Database δ) (phase : Phase δ) : Advance δ :=
  { phase := phase
    db := db
    applied := [] }

section Shapes

variable (db : Database δ) (phase : Phase δ) (error : MigrationError)

@[simp] theorem phase_goOn : (goOn db phase).phase = phase := rfl

@[simp] theorem db_goOn : (goOn db phase).db = db := rfl

@[simp] theorem applied_goOn : (goOn db phase).applied = [] := rfl

@[simp] theorem db_refuse : (refuse db error).db = db := rfl

@[simp] theorem applied_refuse : (refuse db error).applied = [] := rfl

end Shapes

/-- `COMMIT` of a transaction that has inserted its history row. -/
def Transaction.commit (tx : Transaction δ) (row : HistoryRow) (db : Database δ) : Database δ :=
  { db with
    history := some (db.rows ++ [row])
    data := merge.view tx.seen tx.data db.data
    executed := db.executed ++ tx.executed }

/-- One round of the loop up to its first statement: `BEGIN`, `history_row`, and the changeset's
`build`. -/
def openRound (db : Database δ) (reports : List MigrationStepReport) (changeset : Changeset δ)
    (left : List (Changeset δ)) : Advance δ :=
  match contextSkip changeset replica.ctx with
  | some skipped => goOn db (.looping (reports ++ [skipped]) left)
  | none =>
      match db.historyRow changeset.version with
      | .error error => refuse db error
      | .ok (some history) =>
          if history.checksum ≠ changeset.checksum then
            refuse db (.checksumMismatch changeset.version history.checksum changeset.checksum)
          else
            goOn db (.passing reports changeset left)
      | .ok none =>
          match changeset.build with
          | .error error => refuse db error
          | .ok statements =>
              goOn db (.executing reports changeset left
                { seen := db.data
                  data := db.data
                  executed := [] } statements.zipIdx)

/-- The next call of a replica, when it goes through; `held` are the history keys that open
transactions of others have inserted. -/
def proceed (held : Int → Bool) (db : Database δ) : Phase δ → Option (Advance δ)
  | .bootstrapping [] => some (goOn db (.looping [] replica.changesets))
  | .bootstrapping (statement :: left) =>
      -- outside any transaction: each of these commits by itself
      match statement db with
      | .error error => some (refuse db error)
      | .ok (_, db') => some (goOn db' (.bootstrapping left))
  | .looping reports [] => some (goOn db (.finished (.ok reports)))
  | .looping reports (changeset :: left) => some (openRound replica db reports changeset left)
  | .passing reports changeset left =>
      some (goOn db (.looping (reports ++ [changeset.report .skippedAlreadyApplied]) left))
  | .executing reports changeset left tx (statement :: statements) =>
      match statement.1.run db.rows (merge.view tx.seen tx.data db.data) with
      | .error error => some (refuse db error)
      | .ok data =>
          some (goOn db (.executing reports changeset left
            { seen := db.data
              data := data
              executed := tx.executed ++ [(changeset.version, statement.2)] } statements))
  | .executing reports changeset left tx [] =>
      -- the `INSERT` waits for a transaction that has inserted the same key
      if held changeset.version then none
      else
        match db.insertHistory (changeset.historyRow replica.ctx.appliedBy) with
        | .error error => some (refuse db error)
        | .ok _ => some (goOn db (.recorded reports changeset left tx))
  | .recorded reports changeset left tx =>
      some
        { phase := .looping (reports ++ [changeset.report .applied]) left
          db := tx.commit merge (changeset.historyRow replica.ctx.appliedBy) db
          applied := [changeset] }
  | .idle | .locking | .finished _ | .returned _ => none

/-- Everything a call that goes through can do. -/
inductive Call (held : Int → Bool) (db : Database δ) : Phase δ → Advance δ → Prop where
  | bootstrapped :
      Call held db (.bootstrapping []) (goOn db (.looping [] replica.changesets))
  | prepared {statement left u db'} :
      statement db = .ok (u, db') →
      Call held db (.bootstrapping (statement :: left)) (goOn db' (.bootstrapping left))
  | exhausted {reports} :
      Call held db (.looping reports []) (goOn db (.finished (.ok reports)))
  | excluded {reports changeset left skipped} :
      contextSkip changeset replica.ctx = some skipped →
      Call held db (.looping reports (changeset :: left))
        (goOn db (.looping (reports ++ [skipped]) left))
  | found {reports changeset left history} :
      contextSkip changeset replica.ctx = none →
      db.historyRow changeset.version = .ok (some history) →
      history.checksum = changeset.checksum →
      Call held db (.looping reports (changeset :: left)) (goOn db (.passing reports changeset left))
  | opened {reports changeset left statements} :
      contextSkip changeset replica.ctx = none →
      db.historyRow changeset.version = .ok none →
      changeset.build = .ok statements →
      Call held db (.looping reports (changeset :: left))
        (goOn db (.executing reports changeset left
          { seen := db.data
            data := db.data
            executed := [] } statements.zipIdx))
  | passed {reports changeset left} :
      Call held db (.passing reports changeset left)
        (goOn db (.looping (reports ++ [changeset.report .skippedAlreadyApplied]) left))
  | executed {reports changeset left tx statement statements data} :
      statement.1.run db.rows (merge.view tx.seen tx.data db.data) = .ok data →
      Call held db (.executing reports changeset left tx (statement :: statements))
        (goOn db (.executing reports changeset left
          { seen := db.data
            data := data
            executed := tx.executed ++ [(changeset.version, statement.2)] } statements))
  | inserted {reports changeset left tx db'} :
      held changeset.version = false →
      db.insertHistory (changeset.historyRow replica.ctx.appliedBy) = .ok db' →
      Call held db (.executing reports changeset left tx []) (goOn db (.recorded reports changeset left tx))
  | committed {reports changeset left tx} :
      Call held db (.recorded reports changeset left tx)
        { phase := .looping (reports ++ [changeset.report .applied]) left
          db := tx.commit merge (changeset.historyRow replica.ctx.appliedBy) db
          applied := [changeset] }
  | refused {phase error} :
      phase.critical = true → Call held db phase (refuse db error)

variable {merge replica}

theorem call_openRound {held : Int → Bool} {db : Database δ} {reports : List MigrationStepReport}
    {changeset : Changeset δ} {left : List (Changeset δ)} :
    Call merge replica held db (.looping reports (changeset :: left))
      (openRound replica db reports changeset left) := by
  unfold openRound
  cases hskip : contextSkip changeset replica.ctx with
  | some skipped =>
      exact Call.excluded hskip
  | none =>
      cases hfound : db.historyRow changeset.version with
      | error error =>
          exact Call.refused rfl
      | ok found =>
          cases found with
          | some history =>
              by_cases hsum : history.checksum = changeset.checksum
              · simp only [hsum, ne_eq, not_true_eq_false, if_false]
                exact Call.found hskip hfound hsum
              · simp only [ne_eq, hsum, not_false_eq_true, if_true]
                exact Call.refused rfl
          | none =>
              cases hbuild : changeset.build with
              | error error =>
                  exact Call.refused rfl
              | ok statements =>
                  exact Call.opened hskip hfound hbuild

theorem call_of_proceed {held : Int → Bool} {db : Database δ} {phase : Phase δ} {adv : Advance δ}
    (h : proceed merge replica held db phase = some adv) : Call merge replica held db phase adv := by
  cases phase with
  | idle => cases h
  | locking => cases h
  | bootstrapping left =>
      cases left with
      | nil =>
          cases h
          exact Call.bootstrapped
      | cons statement left =>
          simp only [proceed] at h
          split at h
          · cases h
            exact Call.refused rfl
          · rename_i u db' hstatement
            cases h
            exact Call.prepared hstatement
  | looping reports left =>
      cases left with
      | nil =>
          cases h
          exact Call.exhausted
      | cons changeset left =>
          cases h
          exact call_openRound
  | passing reports changeset left =>
      cases h
      exact Call.passed
  | executing reports changeset left tx statements =>
      cases statements with
      | nil =>
          simp only [proceed] at h
          split at h
          · cases h
          · rename_i hheld
            split at h
            · cases h
              exact Call.refused rfl
            · rename_i db' hinsert
              cases h
              exact Call.inserted (by simpa using hheld) hinsert
      | cons statement statements =>
          simp only [proceed] at h
          split at h
          · cases h
            exact Call.refused rfl
          · rename_i data hrun
            cases h
            exact Call.executed hrun
  | recorded reports changeset left tx =>
      cases h
      exact Call.committed
  | finished result => cases h
  | returned result => cases h

theorem Call.critical {held : Int → Bool} {db : Database δ} {phase : Phase δ} {adv : Advance δ}
    (h : Call merge replica held db phase adv) : phase.critical = true := by
  cases h with
  | refused hcritical => exact hcritical
  | _ => rfl

end Replicas

/-! ## The replicas together -/

structure World (n : Nat) (δ : Type) where
  db : Database δ
  /-- Whose transaction holds the advisory lock. -/
  holder : Option (Fin n)
  phase : Fin n → Phase δ
  /-- History: the changesets whose transactions committed, in that order. -/
  applied : List (Fin n × Changeset δ)

inductive Action (n : Nat) (δ : Type) where
  /-- The replica calls `migrate`, for the first time or again. -/
  | start (i : Fin n)
  | acquire (i : Fin n)
  | proceed (i : Fin n)
  /-- The next call reports an error; it may have gone through all the same. -/
  | fail (i : Fin n) (text : String) (lands : Bool)
  /-- The process dies or drops the future, with its last call on the way. -/
  | cancel (i : Fin n) (lands : Bool)
  /-- The database ends the transaction the lock lives in. -/
  | loseLock (i : Fin n)
  | release (i : Fin n)
  /-- Anyone else writes the tables of the service. -/
  | write (data : δ)

section System

variable {n : Nat} {δ : Type} (merge : Merge δ) (replicas : Fin n → Replica δ)

namespace World

def setPhase (w : World n δ) (i : Fin n) (phase : Phase δ) : World n δ :=
  { w with phase := Function.update w.phase i phase }

/-- Whether an open transaction of another replica has inserted this key. -/
def heldBy (w : World n δ) (i : Fin n) (version : Int) : Bool :=
  decide (∃ j, j ≠ i ∧ (w.phase j).heldVersion = some version)

/-- The world after a call of `i` took effect, `i` being left in `phase`. -/
def land (w : World n δ) (i : Fin n) (adv : Advance δ) (phase : Phase δ) : World n δ :=
  { w with
    db := adv.db
    phase := Function.update w.phase i phase
    applied := w.applied ++ adv.applied.map fun changeset => (i, changeset) }

end World

/-- What `migrate` checks before it asks for the lock. -/
def enter (replica : Replica δ) : Phase δ :=
  match assertChangelogOrder Changeset.version replica.changesets with
  | .error error => .returned (.error error)
  | .ok () =>
      if replica.maxConnections < 2 then
        .returned (.error (.migrationPoolTooSmall replica.maxConnections))
      else
        .locking

/-- `SchemaLock::release`: a lost connection fails its `ROLLBACK`. -/
def releaseResult (held : Bool) (result : Except MigrationError (List MigrationStepReport)) :
    Except MigrationError (List MigrationStepReport) :=
  match result with
  | .error error => .error error
  | .ok reports => if held then .ok reports else .error (.sqlx "connection closed")

def nextReplica (w : World n δ) : Action n δ → Option (World n δ)
  | .start i =>
      match w.phase i with
      | .idle | .returned _ => some (w.setPhase i (enter (replicas i)))
      | _ => none
  | .acquire i =>
      match w.phase i, w.holder with
      | .locking, none =>
          some
            { w.setPhase i (.bootstrapping bootstrapHistory) with
              holder := some i }
      | _, _ => none
  | .proceed i =>
      (proceed merge (replicas i) (w.heldBy i) w.db (w.phase i)).map fun adv =>
        w.land i adv adv.phase
  | .fail i text lands =>
      match w.phase i with
      | .locking => some (w.setPhase i (.returned (.error (.sqlx text))))
      | phase =>
          let failed : Phase δ := .finished (.error (.sqlx text))
          (proceed merge (replicas i) (w.heldBy i) w.db phase).map fun adv =>
            if lands then w.land i adv failed else w.setPhase i failed
  | .cancel i lands =>
      match proceed merge (replicas i) (w.heldBy i) w.db (w.phase i) with
      | some adv => some (if lands then w.land i adv .idle else w.setPhase i .idle)
      | none => some (w.setPhase i .idle)
  | .loseLock i =>
      if w.holder = some i then some { w with holder := none } else none
  | .release i =>
      match w.phase i with
      | .finished result =>
          some
            { w.setPhase i (.returned (releaseResult (w.holder = some i) result)) with
              holder := if w.holder = some i then none else w.holder }
      | _ => none
  | .write data => some { w with db := { w.db with data := data } }

def replicaSystem (start : Database δ) : TransitionSystem (World n δ) (Action n δ) :=
  { init := fun w =>
      w.db = start ∧ w.holder = none ∧ w.applied = [] ∧ ∀ i, w.phase i = .idle
    next := nextReplica merge replicas }

/-- Everything a step can do. -/
inductive Step (w : World n δ) : Action n δ → World n δ → Prop where
  /-- A replica moves without touching the database, and is not in its loop afterwards. -/
  | moved {a : Action n δ} {i : Fin n} {phase : Phase δ} :
      phase.Stopped → (phase.critical = true → (w.phase i).critical = true) →
      Step w a (w.setPhase i phase)
  | acquired {i : Fin n} :
      w.phase i = .locking → w.holder = none →
      Step w (.acquire i)
        { w.setPhase i (.bootstrapping bootstrapHistory) with
          holder := some i }
  /-- A call goes through, and its replica sees its answer or not. -/
  | called {a : Action n δ} {i : Fin n} {adv : Advance δ} {phase : Phase δ} :
      Call merge (replicas i) (w.heldBy i) w.db (w.phase i) adv →
      phase = adv.phase ∨ phase.Stopped → Step w a (w.land i adv phase)
  | unlocked {i : Fin n} :
      w.holder = some i → Step w (.loseLock i) { w with holder := none }
  | released {i : Fin n} {result : Except MigrationError (List MigrationStepReport)} :
      w.phase i = .finished result →
      Step w (.release i)
        { w.setPhase i (.returned (releaseResult (w.holder = some i) result)) with
          holder := if w.holder = some i then none else w.holder }
  | wrote {data : δ} :
      Step w (.write data) { w with db := { w.db with data := data } }

variable {merge replicas}

theorem enter_cases (replica : Replica δ) :
    enter replica = .locking ∨ ∃ error, enter replica = .returned (.error error) := by
  unfold enter
  cases assertChangelogOrder Changeset.version replica.changesets with
  | error error => exact Or.inr ⟨error, rfl⟩
  | ok u =>
      dsimp only
      split
      · exact Or.inr ⟨_, rfl⟩
      · exact Or.inl rfl

theorem step_of_next {start : Database δ} {w w' : World n δ} {a : Action n δ}
    (h : (replicaSystem merge replicas start).next w a = some w') :
    Step merge replicas w a w' := by
  change nextReplica merge replicas w a = some w' at h
  cases a with
  | start i =>
      have hmoved : Step merge replicas w (.start i) (w.setPhase i (enter (replicas i))) := by
        rcases enter_cases (replicas i) with hlocking | ⟨error, herror⟩
        · rw [hlocking]
          exact Step.moved .locking (fun hc => by cases hc)
        · rw [herror]
          exact Step.moved (.returned error) (fun hc => by cases hc)
      simp only [nextReplica] at h
      split at h
      · cases h
        exact hmoved
      · cases h
        exact hmoved
      · cases h
  | acquire i =>
      simp only [nextReplica] at h
      split at h
      · rename_i hphase hholder
        cases h
        exact Step.acquired hphase hholder
      · cases h
  | proceed i =>
      rcases Option.map_eq_some_iff.1 h with ⟨adv, hadv, rfl⟩
      exact Step.called (call_of_proceed hadv) (Or.inl rfl)
  | fail i text lands =>
      simp only [nextReplica] at h
      split at h
      · cases h
        exact Step.moved (.returned _) (fun hc => by cases hc)
      · rcases Option.map_eq_some_iff.1 h with ⟨adv, hadv, rfl⟩
        have hcall := call_of_proceed hadv
        cases lands with
        | true => exact Step.called hcall (Or.inr (.finished _))
        | false => exact Step.moved (.finished _) (fun _ => hcall.critical)
  | cancel i lands =>
      have hidle : Step merge replicas w (.cancel i lands) (w.setPhase i .idle) :=
        Step.moved .idle (fun hc => by cases hc)
      simp only [nextReplica] at h
      split at h
      · rename_i adv hadv
        cases h
        cases lands with
        | true => exact Step.called (call_of_proceed hadv) (Or.inr .idle)
        | false => exact hidle
      · cases h
        exact hidle
  | loseLock i =>
      simp only [nextReplica] at h
      split at h
      · rename_i hholder
        cases h
        exact Step.unlocked hholder
      · cases h
  | release i =>
      simp only [nextReplica] at h
      split at h
      · rename_i result hphase
        cases h
        exact Step.released hphase
      · cases h
  | write data =>
      cases h
      exact Step.wrote

end System

end Migration
end Kafkaman
