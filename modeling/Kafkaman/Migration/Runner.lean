import Kafkaman.Lib.Interruptible
import Kafkaman.Migration.Changeset

/-!
# Migration.Runner — applying a changelog, one transaction a changeset

The runner of `migration_runner` against a database that can be lost at any statement.  A
transaction works on a copy of the database which its `COMMIT` puts in place; nothing else writes
in the meantime, so a run that stops inside a transaction leaves the database as it was.

* `Database` — the runner's bookkeeping, everything else, and a record of what was executed;
* `migrate` — the run: the order of the changelog, the pool, the lock, the bootstrap, the loop;
* `migrateStep`, `settle` — the same with every transaction as one step, and nothing to stop it;
* `implements_runChangeset` — a changeset's transaction happens as a whole or not at all;
* `implements_migrate` — a run that is stopped has applied a first part of what it had to.
-/

namespace Kafkaman
namespace Migration

open Lib

/-! ## The database -/

/-- The database a service migrates. -/
structure Database (δ : Type) where
  schema : Bool
  /-- `changelog_history`, once it exists. -/
  history : Option (List HistoryRow)
  ingestFailures : Bool
  data : δ
  /-- The statements whose effects are in `data`: the version of the changeset, and which one. -/
  executed : List (Int × Nat)
  deriving DecidableEq

/-- The history row of a changeset that is applied. -/
def Changeset.historyRow {δ : Type} (changeset : Changeset δ) (appliedBy : String) : HistoryRow :=
  { version := changeset.version
    name := changeset.name
    checksum := changeset.checksum
    appliedBy := appliedBy }

section Databases

variable {δ : Type}

namespace Database

def rows (db : Database δ) : List HistoryRow :=
  db.history.getD []

/-- `CREATE SCHEMA IF NOT EXISTS`. -/
def createSchema : StateT (Database δ) (Except MigrationError) PUnit := fun db =>
  .ok (⟨⟩, { db with schema := true })

/-- `CREATE TABLE IF NOT EXISTS` for the history. -/
def createHistory : StateT (Database δ) (Except MigrationError) PUnit := fun db =>
  if db.schema then .ok (⟨⟩, { db with history := some db.rows })
  else .error (.sqlx "schema does not exist")

/-- `create_received_ingest_failures_table_sql`. -/
def createIngestFailures : StateT (Database δ) (Except MigrationError) PUnit := fun db =>
  if db.schema then .ok (⟨⟩, { db with ingestFailures := true })
  else .error (.sqlx "schema does not exist")

/-- `history_row`, without the columns it does not select. -/
def historyRow (db : Database δ) (version : Int) : Except MigrationError (Option HistoryRow) :=
  match db.history with
  | none => .error (.sqlx "relation changelog_history does not exist")
  | some rows => .ok (rows.find? fun row => row.version == version)

/-- `insert_history`; the version is the primary key. -/
def insertHistory (db : Database δ) (row : HistoryRow) : Except MigrationError (Database δ) :=
  match db.history with
  | none => .error (.sqlx "relation changelog_history does not exist")
  | some rows =>
      if rows.any fun old => old.version == row.version then
        .error (.sqlx "duplicate key value violates unique constraint changelog_history_pkey")
      else
        .ok { db with history := some (rows ++ [row]) }

/-- One statement of the changeset `version`, the one at `statement.2`. -/
def execute (db : Database δ) (version : Int) (statement : Statement δ × Nat) :
    Except MigrationError (Database δ) := do
  let data ← statement.1.run db.rows db.data
  pure { db with
    data := data
    executed := db.executed ++ [(version, statement.2)] }

end Database

/-- The statements of `bootstrap_history`. -/
def bootstrapHistory : List (StateT (Database δ) (Except MigrationError) PUnit) :=
  [Database.createSchema, Database.createHistory, Database.createIngestFailures]

end Databases

/-! ## The run -/

/-- A program that talks to the database. -/
abbrev Session (δ : Type) :=
  Prog (Database δ) MigrationError

section Sessions

variable {δ α : Type}

/-- A round trip that changes nothing: taking the lock, giving it back, a connection. -/
def roundTrip : Session δ PUnit :=
  .call fun db => .ok (⟨⟩, db)

/-- `BEGIN`; the transaction is its copy of the database. -/
def beginTransaction : Session δ (Database δ) :=
  .call fun db => .ok (db, db)

/-- A statement of an open transaction, whose answer `x` comes from the copy. -/
def inTransaction (x : Except MigrationError α) : Session δ α :=
  .call (StateT.lift x)

def commit (tx : Database δ) : Session δ PUnit :=
  .call fun _ => .ok (⟨⟩, tx)

/-- The body of the loop of `run_migrations`. -/
def runChangeset (ctx : MigrationContext) (changeset : Changeset δ) :
    Session δ MigrationStepReport :=
  match contextSkip changeset ctx with
  | some skipped => pure skipped
  | none => do
      let tx ← beginTransaction
      match ← inTransaction (tx.historyRow changeset.version) with
      | some history =>
          if history.checksum ≠ changeset.checksum then
            -- the transaction is dropped here, which rolls it back
            .lift (.error
              (.checksumMismatch changeset.version history.checksum changeset.checksum))
          else do
            commit tx
            pure (changeset.report .skippedAlreadyApplied)
      | none => do
          let statements ← .lift changeset.build
          let tx ← statements.zipIdx.foldlM
            (fun tx statement => inTransaction (tx.execute changeset.version statement)) tx
          let tx ← inTransaction (tx.insertHistory (changeset.historyRow ctx.appliedBy))
          commit tx
          pure (changeset.report .applied)

def runMigrations (ctx : MigrationContext) (changesets : List (Changeset δ)) :
    Session δ (List MigrationStepReport) := do
  let _ ← bootstrapHistory.mapM' Prog.call
  changesets.mapM' (runChangeset ctx)

/-- `migrate`, on a pool of at most `maxConnections`. -/
def migrate (maxConnections : Nat) (ctx : MigrationContext) (changesets : List (Changeset δ)) :
    Session δ (List MigrationStepReport) := do
  .lift (assertChangelogOrder Changeset.version changesets)
  if maxConnections < 2 then
    .lift (.error (.migrationPoolTooSmall maxConnections))
  else do
    -- `SchemaLock::acquire` begins a transaction and takes the lock in it
    roundTrip
    roundTrip
    -- the connection the changesets run on
    roundTrip
    (runMigrations ctx changesets).release roundTrip

/-! ## The run with every transaction as one step -/

/-- What the transaction of a changeset that was never applied does. -/
def applyChangeset (ctx : MigrationContext) (changeset : Changeset δ) (db : Database δ) :
    Except MigrationError (Database δ) := do
  let statements ← changeset.build
  let db ← statements.zipIdx.foldlM
    (fun db statement => db.execute changeset.version statement) db
  db.insertHistory (changeset.historyRow ctx.appliedBy)

def migrateStep (ctx : MigrationContext) (changeset : Changeset δ) :
    StateT (Database δ) (Except MigrationError) MigrationStepReport := fun db =>
  match contextSkip changeset ctx with
  | some skipped => .ok (skipped, db)
  | none => do
      match ← db.historyRow changeset.version with
      | some history =>
          -- The version is taken: either by this very changeset or by another text of it.
          if history.checksum ≠ changeset.checksum then
            .error (.checksumMismatch changeset.version history.checksum changeset.checksum)
          else
            .ok (changeset.report .skippedAlreadyApplied, db)
      | none => do
          let db ← applyChangeset ctx changeset db
          .ok (changeset.report .applied, db)

/-- `run_migrations` without interruptions. -/
def settle (ctx : MigrationContext) (changesets : List (Changeset δ)) :
    StateT (Database δ) (Except MigrationError) (List MigrationStepReport) := do
  let _ ← bootstrapHistory.mapM' id
  changesets.mapM' (migrateStep ctx)

/-- `migrate` without interruptions. -/
def migrateAtOnce (maxConnections : Nat) (ctx : MigrationContext)
    (changesets : List (Changeset δ)) :
    StateT (Database δ) (Except MigrationError) (List MigrationStepReport) := do
  StateT.lift (assertChangelogOrder Changeset.version changesets)
  if maxConnections < 2 then
    StateT.lift (.error (.migrationPoolTooSmall maxConnections))
  else
    settle ctx changesets

/-- Where a run may stop: in the bootstrap, or after a first part of the changelog. -/
def Interrupted (ctx : MigrationContext) (changesets : List (Changeset δ)) (db db' : Database δ) :
    Prop :=
  Partly id bootstrapHistory db db' ∨
    ∃ units ready, bootstrapHistory.mapM' id db = .ok (units, ready) ∧
      Partly (migrateStep ctx) changesets ready db'

/-! ## The run implements it -/

theorem implements_roundTrip : Implements (roundTrip : Session δ PUnit) (pure ⟨⟩) Eq :=
  Implements.call_eq fun h => by
    cases h
    rfl

theorem implements_after_roundTrip {p : Session δ α}
    {f : StateT (Database δ) (Except MigrationError) α} {R : Database δ → Database δ → Prop}
    (h : Implements p f R) (hrefl : ∀ db, R db db) : Implements (do roundTrip; p) f R :=
  implements_roundTrip.bind_reads (f := pure PUnit.unit) (g := fun _ => f) hrefl fun _ => h

theorem implements_beginTransaction :
    Implements (beginTransaction : Session δ (Database δ)) StateT.get Eq :=
  Implements.call_eq fun h => by
    cases h
    rfl

theorem implements_inTransaction (x : Except MigrationError α) :
    Implements (inTransaction x : Session δ α) (StateT.lift x) Eq :=
  Implements.call_eq fun h => by
    cases x with
    | error error => cases h
    | ok a =>
        cases h
        rfl

theorem implements_commit (tx : Database δ) (report : MigrationStepReport) :
    ImplementsAtomically (do commit tx; pure report : Session δ MigrationStepReport)
      (do set tx; pure report) :=
  (Implements.call (set tx)).atomically_pure fun _ => report

/-- The statements of a changeset and its history row, up to the commit of both. -/
theorem implements_applyChangeset (ctx : MigrationContext) (changeset : Changeset δ)
    (tx : Database δ) :
    ImplementsAtomically
      (do
        let statements ← .lift changeset.build
        let tx ← statements.zipIdx.foldlM
          (fun tx statement => inTransaction (tx.execute changeset.version statement)) tx
        let tx ← inTransaction (tx.insertHistory (changeset.historyRow ctx.appliedBy))
        commit tx
        pure (changeset.report .applied) : Session δ MigrationStepReport)
      (do
        let tx ← StateT.lift (applyChangeset ctx changeset tx)
        set tx
        pure (changeset.report .applied)) := by
  simp only [applyChangeset, ← Implements.lift_bind, bind_assoc]
  refine (Implements.lift changeset.build).bind_atomically fun statements => ?_
  refine (Implements.foldlM (fun tx statement => implements_inTransaction _) _ tx).bind_atomically
    fun tx => ?_
  exact (implements_inTransaction _).bind_atomically fun tx => implements_commit tx _

/-- A step of a changeset the context runs, written as its transaction. -/
theorem migrateStep_eq_transaction {ctx : MigrationContext} {changeset : Changeset δ}
    (hskip : contextSkip changeset ctx = none) :
    migrateStep ctx changeset = (do
      let tx ← StateT.get
      match ← StateT.lift (tx.historyRow changeset.version) with
      | some history =>
          if history.checksum ≠ changeset.checksum then
            StateT.lift (.error
              (.checksumMismatch changeset.version history.checksum changeset.checksum))
          else do
            set tx
            pure (changeset.report .skippedAlreadyApplied)
      | none => do
          let tx ← StateT.lift (applyChangeset ctx changeset tx)
          set tx
          pure (changeset.report .applied)) := by
  funext db
  have hget : ∀ k : Database δ → StateT (Database δ) (Except MigrationError) MigrationStepReport,
      (StateT.get >>= k) db = k db db := fun _ => rfl
  simp only [migrateStep, hskip, hget, Implements.lift_bind_apply]
  refine bind_congr fun found => ?_
  cases found with
  | none =>
      simp only [Implements.lift_bind_apply]
      rfl
  | some history =>
      by_cases hsum : history.checksum ≠ changeset.checksum
      · simp only [if_pos hsum]
        rfl
      · simp only [if_neg hsum]
        rfl

/-- A changeset's transaction happens as a whole or not at all. -/
theorem implements_runChangeset (ctx : MigrationContext) (changeset : Changeset δ) :
    ImplementsAtomically (runChangeset ctx changeset) (migrateStep ctx changeset) := by
  cases hskip : contextSkip changeset ctx with
  | some skipped =>
      have hstep : migrateStep ctx changeset = pure skipped := by
        funext db
        simp only [migrateStep, hskip]
        rfl
      rw [runChangeset, hskip, hstep]
      exact (Implements.pure skipped).weaken fun _ _ h => .inl h.symm
  | none =>
      rw [runChangeset, hskip, migrateStep_eq_transaction hskip]
      refine implements_beginTransaction.bind_atomically fun tx => ?_
      refine (implements_inTransaction _).bind_atomically fun found => ?_
      cases found with
      | none => exact implements_applyChangeset ctx changeset tx
      | some history =>
          by_cases hsum : history.checksum ≠ changeset.checksum
          · simp only [if_pos hsum]
            exact (Implements.lift _).weaken fun _ _ h => .inl h.symm
          · simp only [if_neg hsum]
            exact implements_commit tx _

theorem implements_runMigrations (ctx : MigrationContext) (changesets : List (Changeset δ)) :
    Implements (runMigrations ctx changesets) (settle ctx changesets)
      (Interrupted ctx changesets) := by
  refine (Implements.mapM Implements.call bootstrapHistory).bind
    (fun _ => Implements.mapM (implements_runChangeset ctx) changesets) .inl ?_
  intro db ready db' units hready hpartly
  exact .inr ⟨units, ready, hready, hpartly⟩

/-- A run that is stopped has applied a first part of what it had to. -/
theorem implements_migrate (maxConnections : Nat) (ctx : MigrationContext)
    (changesets : List (Changeset δ)) :
    Implements (migrate maxConnections ctx changesets)
      (migrateAtOnce maxConnections ctx changesets) (Interrupted ctx changesets) := by
  have hstay : ∀ db : Database δ, Interrupted ctx changesets db db := fun db =>
    .inl (Partly.refl _ db)
  refine (Implements.lift _).bind_reads hstay fun _ => ?_
  by_cases hpool : maxConnections < 2
  · simp only [if_pos hpool]
    exact (Implements.lift _).weaken (by rintro db _ rfl; exact hstay db)
  · simp only [if_neg hpool]
    have hrun := (implements_runMigrations ctx changesets).release implements_roundTrip
    exact implements_after_roundTrip
      (implements_after_roundTrip (implements_after_roundTrip hrun hstay) hstay) hstay

end Sessions

end Migration
end Kafkaman
