import Kafkaman.Migration.Resume
import Kafkaman.Migration.Shipped
import Mathlib.Data.List.Forall2

/-!
# Migration.DryRun — the preview of a migration

A dry run bootstraps, looks every changeset up in the history and counts what a replay would
requeue, all in one transaction that is rolled back.  It executes none of the changesets, so a
replay is counted in the database as it is before the run.

* `migrateDryRun` — the preview, as a program that can be stopped like a migration;
* `implements_migrateDryRun` — it moves nothing, wherever it ends;
* `Predicts` — a previewed step against the step a migration reports;
* `FindsTable` — the received table of a replay exists before the run;
* `dry_run_predicts_iff` — the preview of a migration that would go through is right exactly when
  every pending replay finds its table.
-/

namespace Kafkaman
namespace Migration

open Lib Schema Received

/-! ## The preview -/

section Preview

variable {δ : Type}

/-- The preview of a changeset, with the count of a replay in it. -/
def withCount : Option Nat → String → String
  | some count, preview => preview.replace "~N" ("~" ++ toString count)
  | none, preview => preview

/-- The body of the loop of `dry_run_in_tx`, whose transaction is `tx`. -/
def dryRunChangeset (ctx : MigrationContext) (tx : Database δ) (changeset : Changeset δ) :
    Session δ MigrationStepReport :=
  match contextSkip changeset ctx with
  | some skipped => pure skipped
  | none => do
      match ← inTransaction (tx.historyRow changeset.version) with
      | some history =>
          -- a preview reports a mismatch and goes on
          pure (changeset.report
            (if history.checksum = changeset.checksum then .skippedAlreadyApplied
            else .checksumMismatch history.checksum changeset.checksum))
      | none => do
          let count ← inTransaction (changeset.estimateReplayCount tx.data)
          let preview ← .lift changeset.dryRunPreview
          pure { changeset.report .wouldApply with preview := some (withCount count preview) }

def dryRunInTx (ctx : MigrationContext) (tx : Database δ) (changesets : List (Changeset δ)) :
    Session δ (List MigrationStepReport) := do
  let tx ← bootstrapHistory.foldlM
    (fun tx statement => inTransaction ((statement tx).map Prod.snd)) tx
  changesets.mapM' (dryRunChangeset ctx tx)

/-- `migrate_dry_run`; `acquired` is what `pg_try_advisory_xact_lock` answers. -/
def migrateDryRun (acquired : Bool) (ctx : MigrationContext) (changesets : List (Changeset δ)) :
    Session δ (List MigrationStepReport) := do
  .lift (assertChangelogOrder Changeset.version changesets)
  let tx ← beginTransaction
  let acquired ← inTransaction (.ok acquired)
  if acquired then
    (dryRunInTx ctx tx changesets).release roundTrip
  else
    .lift (.error .migrationLockBusy)

/-! ## What it computes -/

/-- What the preview says about one changeset. -/
def dryRunStep (ctx : MigrationContext) (tx : Database δ) (changeset : Changeset δ) :
    Except MigrationError MigrationStepReport :=
  match contextSkip changeset ctx with
  | some skipped => .ok skipped
  | none => do
      match ← tx.historyRow changeset.version with
      | some history =>
          -- A migration would stop here; the preview reports the mismatch and goes on.
          .ok (changeset.report
            (if history.checksum = changeset.checksum then .skippedAlreadyApplied
            else .checksumMismatch history.checksum changeset.checksum))
      | none => do
          let count ← changeset.estimateReplayCount tx.data
          let preview ← changeset.dryRunPreview
          .ok { changeset.report .wouldApply with preview := some (withCount count preview) }

def dryRunAtOnce (acquired : Bool) (ctx : MigrationContext) (changesets : List (Changeset δ)) :
    StateT (Database δ) (Except MigrationError) (List MigrationStepReport) := do
  StateT.lift (assertChangelogOrder Changeset.version changesets)
  let tx ← StateT.get
  if acquired then
    StateT.lift (changesets.mapM' (dryRunStep ctx tx.prepared))
  else
    StateT.lift (.error .migrationLockBusy)

theorem implements_dryRunChangeset (ctx : MigrationContext) (tx : Database δ)
    (changeset : Changeset δ) :
    Implements (dryRunChangeset ctx tx changeset) (StateT.lift (dryRunStep ctx tx changeset)) Eq := by
  cases hskip : contextSkip changeset ctx with
  | some skipped =>
      simp only [dryRunChangeset, dryRunStep, hskip]
      exact Implements.pure skipped
  | none =>
      simp only [dryRunChangeset, dryRunStep, hskip]
      rw [← Implements.lift_bind]
      refine (implements_inTransaction _).bind_reads Eq.refl fun found => ?_
      cases found with
      | some history => exact Implements.pure _
      | none =>
          simp only [← Implements.lift_bind]
          refine (implements_inTransaction _).bind_reads Eq.refl fun count => ?_
          exact (Implements.lift _).bind_reads Eq.refl fun preview => Implements.pure _

theorem implements_dryRunInTx (ctx : MigrationContext) (tx : Database δ)
    (changesets : List (Changeset δ)) :
    Implements (dryRunInTx ctx tx changesets)
      (StateT.lift (changesets.mapM' (dryRunStep ctx tx.prepared))) Eq := by
  have hbootstrap : bootstrapHistory.foldlM
      (fun (tx : Database δ) statement => (statement tx).map Prod.snd) tx = .ok tx.prepared := rfl
  have hparts : Implements (dryRunInTx ctx tx changesets)
      (StateT.lift (bootstrapHistory.foldlM (fun tx statement => (statement tx).map Prod.snd) tx) >>=
        fun tx => StateT.lift (changesets.mapM' (dryRunStep ctx tx))) Eq :=
    (Implements.foldlM (fun tx statement => implements_inTransaction _) _ tx).bind_reads Eq.refl
      fun tx => Implements.mapM_reads (implements_dryRunChangeset ctx tx) changesets
  rw [hbootstrap] at hparts
  exact hparts

/-- A preview moves nothing, wherever it ends. -/
theorem implements_migrateDryRun (acquired : Bool) (ctx : MigrationContext)
    (changesets : List (Changeset δ)) :
    Implements (migrateDryRun acquired ctx changesets) (dryRunAtOnce acquired ctx changesets) Eq := by
  refine (Implements.lift _).bind_reads Eq.refl fun _ => ?_
  refine implements_beginTransaction.bind_reads Eq.refl fun tx => ?_
  refine (implements_inTransaction (.ok acquired)).bind_reads (g := fun acquired =>
    if acquired then StateT.lift (changesets.mapM' (dryRunStep ctx tx.prepared))
    else StateT.lift (.error .migrationLockBusy)) Eq.refl fun acquired => ?_
  cases acquired with
  | false => exact Implements.lift _
  | true => exact (implements_dryRunInTx ctx tx changesets).release implements_roundTrip

theorem dryRun_returned_iff {ctx : MigrationContext} {changesets : List (Changeset δ)}
    {db : Database δ} {predicted : List MigrationStepReport}
    (horder : assertChangelogOrder Changeset.version changesets = .ok ()) :
    (migrateDryRun true ctx changesets [] db).ending = .returned predicted ↔
      changesets.mapM' (dryRunStep ctx db.prepared) = .ok predicted := by
  have hspec : dryRunAtOnce true ctx changesets db =
      StateT.lift (changesets.mapM' (dryRunStep ctx db.prepared)) db := by
    rw [dryRunAtOnce, Implements.lift_bind_apply, horder]
    rfl
  rw [((implements_migrateDryRun true ctx changesets).undisturbed db).1, hspec]
  cases hsteps : changesets.mapM' (dryRunStep ctx db.prepared) with
  | error error => simp [StateT.lift, bind, Except.bind, Except.map, Ending.ofExcept]
  | ok steps => simp [StateT.lift, bind, Except.bind, pure, Except.pure, Except.map, Ending.ofExcept]

end Preview

/-! ## Previewed steps and reported ones -/

/-- A step of a preview, and the step of the migration it is about: what it says would be applied is
applied, and what it skips is skipped, for the same reason. -/
inductive Predicts : MigrationStepReport → MigrationStepReport → Prop
  | applied (version : Int) (name : String) (preview : String) :
      Predicts ⟨version, name, .wouldApply, some preview⟩ ⟨version, name, .applied, none⟩
  | already (version : Int) (name : String) :
      Predicts ⟨version, name, .skippedAlreadyApplied, none⟩
        ⟨version, name, .skippedAlreadyApplied, none⟩
  | excluded (version : Int) (name : String) (preview : String) :
      Predicts ⟨version, name, .skippedContext, some preview⟩
        ⟨version, name, .skippedContext, some preview⟩

theorem predicts_contextSkip {δ : Type} {ctx : MigrationContext} {changeset : Changeset δ}
    {skipped : MigrationStepReport} (h : contextSkip changeset ctx = some skipped) :
    ctx.matches changeset.contexts = false ∧ Predicts skipped skipped := by
  cases hmatches : ctx.matches changeset.contexts with
  | true => simp [contextSkip, hmatches] at h
  | false =>
      simp only [contextSkip, hmatches, Bool.false_eq_true, if_false, Option.some.injEq] at h
      subst h
      exact ⟨rfl, .excluded _ _ _⟩

section Lookups

variable {δ : Type} {ctx : MigrationContext} {changeset : Changeset δ}
  {base current next : Database δ} {report : MigrationStepReport}

/-- A migration has come from `base` to `current` without the versions still to come. -/
structure Ahead (base current : Database δ) (versions : List Int) : Prop where
  baseHistory : base.history = some base.rows
  history : current.history = some current.rows
  rows : ∃ added, current.rows = base.rows ++ added ∧ ∀ row ∈ added, row.version ∉ versions

theorem Ahead.historyRow_eq {versions : List Int} (h : Ahead base current versions) {version : Int}
    (hversion : version ∈ versions) : current.historyRow version = base.historyRow version := by
  rcases h.rows with ⟨added, hrows, hadded⟩
  have hnone : added.find? (fun row => row.version == version) = none := by
    rw [List.find?_eq_none]
    intro row hrow hsame
    exact hadded row hrow (by simpa [beq_iff_eq.1 hsame] using hversion)
  simp [Database.historyRow, h.baseHistory, h.history, hrows, List.find?_append, hnone]

theorem historyRow_eq_none {version : Int} :
    base.historyRow version = .ok none ↔ base.history = some base.rows ∧ version ∉ base.versions := by
  cases hhistory : base.history with
  | none => simp [Database.historyRow, hhistory]
  | some rows => simp [Database.historyRow, Database.versions, Database.rows, hhistory]

theorem Ahead.step {versions : List Int} (h : Ahead base current (changeset.version :: versions))
    (hdistinct : changeset.version ∉ versions)
    (hstep : migrateStep ctx changeset current = .ok (report, next)) :
    Ahead base next versions := by
  rcases h.rows with ⟨added, hrows, hadded⟩
  have hstay : ∃ added, current.rows = base.rows ++ added ∧ ∀ row ∈ added, row.version ∉ versions :=
    ⟨added, hrows, fun row hrow hmem => hadded row hrow (List.mem_cons_of_mem _ hmem)⟩
  rcases migrateStep_cases hstep with ⟨_, -, -, rfl⟩ | ⟨-, _, -, -, -, rfl⟩ | ⟨-, -, -, happly⟩
  · exact ⟨h.baseHistory, h.history, hstay⟩
  · exact ⟨h.baseHistory, h.history, hstay⟩
  · rcases applyChangeset_ok happly with ⟨-, -, _, rfl⟩
    refine ⟨h.baseHistory, rfl, added ++ [changeset.historyRow ctx.appliedBy], ?_, ?_⟩
    · show current.rows ++ [changeset.historyRow ctx.appliedBy] = _
      rw [hrows, List.append_assoc]
    · intro row hrow
      rcases List.mem_append.1 hrow with hrow | hrow
      · exact fun hmem => hadded row hrow (List.mem_cons_of_mem _ hmem)
      · cases List.mem_singleton.1 hrow
        exact hdistinct

theorem data_of_foldlM_execute {R : δ → δ → Prop} (hrefl : ∀ data, R data data)
    (htrans : ∀ {a b c}, R a b → R b c → R a c) {version : Int} :
    ∀ {statements : List (Statement δ × Nat)} {current : Database δ},
      (∀ statement ∈ statements, ∀ {rows data data'},
        statement.1.run rows data = .ok data' → R data data') →
      statements.foldlM (fun db statement => db.execute version statement) current = .ok next →
        R current.data next.data := by
  intro statements
  induction statements with
  | nil =>
      intro current _ h
      cases h
      exact hrefl _
  | cons statement statements ih =>
      intro current hstatement h
      rcases bind_eq_ok.1 h with ⟨middle, hmiddle, hrest⟩
      rcases bind_eq_ok.1 hmiddle with ⟨data, hrun, hpure⟩
      cases pure_eq_ok.1 hpure
      exact htrans (hstatement statement (by simp) hrun)
        (ih (fun other hmem => hstatement other (List.mem_cons_of_mem _ hmem)) hrest)

theorem dryRunStep_fresh (hskip : contextSkip changeset ctx = none)
    (hfresh : base.historyRow changeset.version = .ok none) :
    (∃ predicted, dryRunStep ctx base changeset = .ok predicted ∧
        Predicts predicted (changeset.report .applied)) ↔
      (∃ count, changeset.estimateReplayCount base.data = .ok count) ∧
        ∃ preview, changeset.dryRunPreview = .ok preview := by
  simp only [dryRunStep, hskip, hfresh]
  constructor
  · rintro ⟨predicted, h, -⟩
    rcases bind_eq_ok.1 h with ⟨_, hfound, hrest⟩
    cases hfound
    rcases bind_eq_ok.1 hrest with ⟨count, hcount, hlast⟩
    rcases bind_eq_ok.1 hlast with ⟨preview, hpreview, -⟩
    exact ⟨⟨count, hcount⟩, preview, hpreview⟩
  · rintro ⟨⟨count, hcount⟩, preview, hpreview⟩
    refine ⟨_, ?_, .applied _ _ (withCount count preview)⟩
    exact bind_eq_ok.2 ⟨none, rfl,
      bind_eq_ok.2 ⟨count, hcount, bind_eq_ok.2 ⟨preview, hpreview, rfl⟩⟩⟩

theorem data_of_migrateStep {R : δ → δ → Prop} (hrefl : ∀ data, R data data)
    (htrans : ∀ {a b c}, R a b → R b c → R a c)
    (hstatement : ∀ {statements : List (Statement δ)} {statement : Statement δ},
      changeset.build = .ok statements → statement ∈ statements →
        ∀ {rows data data'}, statement.run rows data = .ok data' → R data data')
    (hstep : migrateStep ctx changeset current = .ok (report, next)) :
    R current.data next.data := by
  rcases migrateStep_cases hstep with ⟨_, -, -, rfl⟩ | ⟨-, _, -, -, -, rfl⟩ | ⟨-, -, -, happly⟩
  · exact hrefl _
  · exact hrefl _
  · rcases bind_eq_ok.1 happly with ⟨statements, hbuild, hrest⟩
    rcases bind_eq_ok.1 hrest with ⟨executed, hexecute, hinsert⟩
    rcases insertHistory_eq_ok.1 hinsert with ⟨-, -, rfl⟩
    have hdata : R current.data executed.data := by
      refine data_of_foldlM_execute hrefl htrans ?_ hexecute
      intro statement hmem rows data data' hrun
      exact hstatement hbuild (List.fst_mem_of_mem_zipIdx hmem) hrun
    exact hdata

end Lookups

/-! ## Replays and their tables -/

section Replays

variable {κ τ : Type} {deployment : Deployment κ τ} {ctx : MigrationContext}

/-- A replay that this run is going to apply finds the received table it reads. -/
def FindsTable (deployment : Deployment κ τ) (ctx : MigrationContext)
    (db : Database (Catalog κ τ)) : ShippedChangeset → Prop
  | .schema _ => True
  | .replay changeset =>
      ctx.matches changeset.contexts = true → changeset.spec.version ∉ db.versions →
        ∀ relation, ReceivedTable.new deployment.schema changeset.descriptor = .ok relation →
          (db.data.relations relation.table.value).isSome

variable {shipped : ShippedChangeset} {base current next : Database (Catalog κ τ)}
  {report : MigrationStepReport}

theorem received_iff_findsTable {changeset : ReplayChangeset} {relation : Relation}
    {table : Received.ReceivedTable} (hkeeps : KeepsReceived base.data current.data)
    (hmatches : ctx.matches changeset.contexts = true)
    (hfresh : changeset.spec.version ∉ base.versions)
    (hrelation : ReceivedTable.new deployment.schema changeset.descriptor = .ok relation)
    (hfound : current.data.relations relation.table.value = some (.received table)) :
    (∃ table, base.data.relations relation.table.value = some (.received table)) ↔
      FindsTable deployment ctx base (.replay changeset) := by
  constructor
  · rintro ⟨table, hbase⟩ - - relation' hrelation'
    rw [hrelation] at hrelation'
    cases hrelation'
    rw [hbase]
    rfl
  · intro hfinds
    rcases Option.isSome_iff_exists.1 (hfinds hmatches hfresh relation hrelation) with
      ⟨contents, hbase⟩
    rcases Relation.new_eq_ok.1 hrelation with ⟨-, -, rfl⟩
    -- What the migration read as a received table cannot have been anything else before.
    rcases hkeeps _ contents hbase with ⟨contents', hcurrent, hshape⟩
    rw [hfound] at hcurrent
    cases hcurrent
    cases contents with
    | received table => exact ⟨table, hbase⟩
    | foreign content => cases hshape

theorem step_predicts_iff {versions : List Int}
    (hahead : Ahead base current versions)
    (hversion : (shipped.toChangeset deployment).version ∈ versions)
    (hkeeps : KeepsReceived base.data current.data)
    (hstep : migrateStep ctx (shipped.toChangeset deployment) current = .ok (report, next)) :
    (∃ predicted, dryRunStep ctx base (shipped.toChangeset deployment) = .ok predicted ∧
        Predicts predicted report) ↔
      FindsTable deployment ctx base shipped := by
  have hlookup := hahead.historyRow_eq hversion
  rcases migrateStep_cases hstep with ⟨skipped, hskip, rfl, -⟩ | ⟨hskip, row, hrow, hsum, rfl, -⟩ |
    ⟨hskip, hfresh, rfl, happly⟩
  · rcases predicts_contextSkip hskip with ⟨hmatches, hpredicts⟩
    refine iff_of_true ⟨report, by simp [dryRunStep, hskip], hpredicts⟩ ?_
    cases shipped with
    | schema changeset => trivial
    | replay changeset =>
        intro hincluded
        exact absurd hincluded (by simpa [ShippedChangeset.toChangeset] using hmatches)
  · rw [hlookup] at hrow
    refine iff_of_true ⟨_, ?_, .already _ _⟩ ?_
    · simp [dryRunStep, hskip, hrow, hsum, bind, Except.bind]
      rfl
    · cases shipped with
      | schema changeset => trivial
      | replay changeset =>
          intro _ hfresh
          have hfound := List.find?_some (historyRow_eq_some.1 hrow)
          have hmem := List.mem_of_find?_eq_some (historyRow_eq_some.1 hrow)
          exact absurd (List.mem_map.2 ⟨row, hmem, beq_iff_eq.1 hfound⟩) hfresh
  · rw [hlookup] at hfresh
    rw [dryRunStep_fresh hskip hfresh]
    rcases bind_eq_ok.1 happly with ⟨statements, hbuild, hrest⟩
    rcases bind_eq_ok.1 hrest with ⟨executed, hexecute, -⟩
    cases shipped with
    | schema changeset =>
        refine iff_of_true ⟨⟨none, rfl⟩, ?_⟩ trivial
        have hbuilt : deployment.buildSchema changeset = .ok statements := hbuild
        simp [ShippedChangeset.toChangeset, hbuilt, Except.map]
    | replay changeset =>
        rcases buildReplay_ok hbuild with ⟨relation, hrelation, rfl⟩
        rcases bind_eq_ok.1 hexecute with ⟨_, hone, -⟩
        rcases bind_eq_ok.1 hone with ⟨_, hrun, -⟩
        rcases replayStatement_ok hrun with ⟨table, _, hfound, ⟨replay, hresolve⟩, -⟩
        have hpreview : ∃ preview,
            ((ShippedChangeset.replay changeset).toChangeset deployment).dryRunPreview =
              .ok preview :=
          ⟨_, bind_eq_ok.2 ⟨relation, mapError_eq_ok.2 hrelation, rfl⟩⟩
        -- The preview fails only where the count does, and that is a question about the table.
        refine (and_iff_left hpreview).trans ((estimateReplay_ok hrelation hresolve).trans ?_)
        exact received_iff_findsTable hkeeps (contextSkip_eq_none.1 hskip)
          (historyRow_eq_none.1 hfresh).2 hrelation hfound

variable {last : Database (Catalog κ τ)}

/-- A run, previewed from where it started: by induction on what is left of the changelog. -/
theorem steps_predict_iff :
    ∀ {changesets : List ShippedChangeset} {current : Database (Catalog κ τ)}
      {reports : List MigrationStepReport},
      Ahead base current (changesets.map fun shipped => (shipped.toChangeset deployment).version) →
      (changesets.map fun shipped => (shipped.toChangeset deployment).version).Pairwise (· < ·) →
      KeepsReceived base.data current.data →
      (changesets.map fun shipped => shipped.toChangeset deployment).mapM' (migrateStep ctx) current =
        .ok (reports, last) →
      ((∃ predicted,
          (changesets.map fun shipped => shipped.toChangeset deployment).mapM' (dryRunStep ctx base) =
            .ok predicted ∧ List.Forall₂ Predicts predicted reports) ↔
        ∀ shipped ∈ changesets, FindsTable deployment ctx base shipped) := by
  intro changesets
  induction changesets with
  | nil =>
      intro current reports _ _ _ hrun
      cases hrun
      exact iff_of_true ⟨[], rfl, .nil⟩ (by simp)
  | cons shipped changesets ih =>
      intro current reports hahead horder hkeeps hrun
      rcases mapM'_cons_ok.1 hrun with ⟨report, next, rest, hstep, hrest, rfl⟩
      rcases List.pairwise_cons.1 horder with ⟨hless, horder'⟩
      have hfirst := step_predicts_iff hahead List.mem_cons_self hkeeps hstep
      -- No later changeset asks the history for the version this one adds.
      have hdistinct : (shipped.toChangeset deployment).version ∉
          changesets.map fun shipped => (shipped.toChangeset deployment).version :=
        fun hmem => lt_irrefl _ (hless _ hmem)
      have hnext : KeepsReceived current.data next.data :=
        data_of_migrateStep KeepsReceived.refl KeepsReceived.trans
          (fun hbuild hmem => keepsReceived_statement hbuild hmem) hstep
      have htail := ih (hahead.step hdistinct hstep) horder' (hkeeps.trans hnext) hrest
      rw [List.forall_mem_cons, ← hfirst, ← htail]
      constructor
      · rintro ⟨predicted, hpredicted, hforall⟩
        rcases bind_eq_ok.1 hpredicted with ⟨step, hdry, hrest'⟩
        rcases bind_eq_ok.1 hrest' with ⟨steps, hsteps, hlast⟩
        cases pure_eq_ok.1 hlast
        rcases List.forall₂_cons.1 hforall with ⟨hone, hall⟩
        exact ⟨⟨step, hdry, hone⟩, steps, hsteps, hall⟩
      · rintro ⟨⟨step, hdry, hone⟩, steps, hsteps, hall⟩
        exact ⟨step :: steps, bind_eq_ok.2 ⟨step, hdry, bind_eq_ok.2 ⟨steps, hsteps, rfl⟩⟩,
          .cons hone hall⟩

/-- A preview agrees with the migration that follows it, and leaves the database alone, exactly when
every replay the migration is going to apply has its table before the migration starts. -/
theorem dry_run_predicts_iff (deployment : Deployment κ τ) (ctx : MigrationContext)
    (changesets : List ShippedChangeset) (db : Database (Catalog κ τ)) (maxConnections : Nat)
    {report : List MigrationStepReport}
    (hmigrate : (migrate maxConnections ctx
      (changesets.map fun shipped => shipped.toChangeset deployment) [] db).ending =
        .returned report) :
    let preview := migrateDryRun true ctx
      (changesets.map fun shipped => shipped.toChangeset deployment) [] db
    (preview.state = db ∧
        ∃ predicted, preview.ending = .returned predicted ∧ List.Forall₂ Predicts predicted report) ↔
      ∀ shipped ∈ changesets, FindsTable deployment ctx db shipped := by
  intro preview
  rcases migrateAtOnce_eq_ok.1 ((implements_migrate _ _ _).returned hmigrate) with
    ⟨horder, -, hsettle⟩
  have hstate : preview.state = db := ((implements_migrateDryRun true ctx _).reaches [] db).symm
  have hahead : Ahead db.prepared db.prepared
      (changesets.map fun shipped => (shipped.toChangeset deployment).version) :=
    ⟨rfl, rfl, [], by simp, by simp⟩
  have hascending : (changesets.map fun shipped =>
      (shipped.toChangeset deployment).version).Pairwise (· < ·) := by
    simpa [Function.comp_def] using assertChangelogOrder_eq_ok.1 horder
  have hsteps := steps_predict_iff hahead hascending (KeepsReceived.refl _) hsettle
  refine (and_iff_right hstate).trans (Iff.trans ?_ hsteps)
  exact exists_congr fun predicted => and_congr_left fun _ => dryRun_returned_iff horder

end Replays

/-! ### A replay with its table, and one that comes with it -/

/-- A deployment whose statements touch nothing but the tables. -/
def plainDeployment : Deployment Unit Unit :=
  { schema := ⟨"kafkaman"⟩
    sha256 := lengthDigest
    literals := plainLiterals
    displayInstant := fun _ => ""
    ddlText := fun _ relation => "DDL on " ++ relation.qualifiedName
    replayText := fun relation _ => "UPDATE " ++ relation.qualifiedName
    ddl := fun _ _ _ => .ok ()
    emptyTable := fun _ => ()
    enqueueOrder := id }

def orderCreated : MessageDescriptor :=
  { messageType := "order_created"
    topic := "orders" }

def replayOrders : ReplayChangeset :=
  { spec :=
      { version := 3
        occurredAfter := none
        maxRows := some 1
        failureKind := none
        clearHistory := false }
    descriptor := orderCreated
    contexts := [] }

def stockedDatabase : Database (Catalog Unit Unit) :=
  { schema := true
    history := some []
    ingestFailures := true
    data :=
      { relations := fun name =>
          if name = "received_order_created" then some (.received twoDeadLetters) else none
        other := () }
    executed := [] }

theorem dry_run_predicts_iff_stocked :
    let preview := migrateDryRun true ⟨[], "deploy"⟩
      ([.replay replayOrders].map fun shipped => ShippedChangeset.toChangeset plainDeployment shipped)
      [] stockedDatabase
    preview.state = stockedDatabase ∧
      ∃ predicted, preview.ending = .returned predicted ∧
        List.Forall₂ Predicts predicted [⟨3, "replay_received", .applied, none⟩] := by
  refine (dry_run_predicts_iff plainDeployment ⟨[], "deploy"⟩ [.replay replayOrders]
    stockedDatabase 2 (by decide +kernel)).2 ?_
  intro shipped hmem
  cases List.mem_singleton.1 hmem
  rintro - - relation hrelation
  rcases Relation.new_eq_ok.1 hrelation with ⟨-, -, rfl⟩
  rfl

def freshDatabase : Database (Catalog Unit Unit) :=
  { schema := false
    history := none
    ingestFailures := false
    data :=
      { relations := fun _ => none
        other := () }
    executed := [] }

/-- A service's first changelog, with a replay at its end. -/
def createThenReplay : List ShippedChangeset :=
  [.schema .initSchema, .schema (.createReceivedTable 2 orderCreated), .replay replayOrders]

/-- The migration creates the table it then replays; the preview looks for it before. -/
theorem dry_run_misses_created_table :
    (migrate 2 ⟨[], "deploy"⟩
        (createThenReplay.map fun shipped => shipped.toChangeset plainDeployment) []
        freshDatabase).ending =
      .returned
        [⟨1, "init_schema", .applied, none⟩, ⟨2, "create_received_table", .applied, none⟩,
          ⟨3, "replay_received", .applied, none⟩] ∧
    (migrateDryRun true ⟨[], "deploy"⟩
        (createThenReplay.map fun shipped => shipped.toChangeset plainDeployment) []
        freshDatabase).ending =
      .raised (.sqlx "relation received_order_created does not exist") := by
  constructor
  · decide +kernel
  · decide +kernel

end Migration
end Kafkaman
