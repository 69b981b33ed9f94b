import Kafkaman.Migration.Replicas
import Kafkaman.Migration.Resume
import Mathlib.Data.List.Forall2

/-!
# Migration.ReplicaFence — the primary key of the history is the fence

The lock of a replica is gone when its connection is, and the replica does not learn of it before it
releases.  What keeps a changeset from being applied twice is the key of its history row, which is
inserted in the changeset's own transaction.

* `Books` — the history, and what was executed, as one list of changesets;
* `Stage` — what a replica has behind it, phase by phase;
* `Call.stage`, `Call.books` — a call that goes through accounts for one thing more;
* `replicas_apply_once` — in every run, with the lock or without it.
-/

namespace Kafkaman
namespace Migration

open Lib

section Fence

variable {n : Nat} {δ : Type} {merge : Merge δ} {replicas : Fin n → Replica δ}

/-! ## The books -/

/-- The history row of a committed changeset. -/
def appliedRow (replicas : Fin n → Replica δ) (entry : Fin n × Changeset δ) : HistoryRow :=
  entry.2.historyRow (replicas entry.1).ctx.appliedBy

/-- The history and what was executed, read as one list of changesets. -/
structure Books (replicas : Fin n → Replica δ) (start : Database δ)
    (applied : List (Fin n × Changeset δ)) (db : Database δ) : Prop where
  rows : db.rows = start.rows ++ applied.map (appliedRow replicas)
  executed : db.executed = start.executed ++ applied.flatMap fun entry => entry.2.positions
  included : ∀ entry ∈ applied, entry.2 ∈ (replicas entry.1).changesets ∧
    (replicas entry.1).ctx.matches entry.2.contexts = true
  fresh : ∀ entry ∈ applied, entry.2.version ∉ start.versions
  once : (applied.map fun entry => entry.2.version).Nodup

theorem Books.versions {start db : Database δ} {applied : List (Fin n × Changeset δ)}
    (h : Books replicas start applied db) :
    db.versions = start.versions ++ applied.map fun entry => entry.2.version := by
  simp [Database.versions, h.rows, Function.comp_def, appliedRow, Changeset.historyRow]

theorem Books.congr {start db db' : Database δ} {applied : List (Fin n × Changeset δ)}
    (h : Books replicas start applied db) (hrows : db'.rows = db.rows)
    (hexecuted : db'.executed = db.executed) : Books replicas start applied db' :=
  { h with
    rows := hrows.trans h.rows
    executed := hexecuted.trans h.executed }

theorem Books.commit {start db : Database δ} {applied : List (Fin n × Changeset δ)} {i : Fin n}
    {changeset : Changeset δ} {tx : Transaction δ} (h : Books replicas start applied db)
    (hmem : changeset ∈ (replicas i).changesets)
    (hmatches : (replicas i).ctx.matches changeset.contexts = true)
    (hexecuted : tx.executed = changeset.positions) (hfresh : changeset.version ∉ db.versions) :
    Books replicas start (applied ++ [(i, changeset)])
      (tx.commit merge (changeset.historyRow (replicas i).ctx.appliedBy) db) := by
  rw [h.versions, List.mem_append, not_or] at hfresh
  constructor
  case rows =>
    rw [List.map_append, ← List.append_assoc, ← h.rows]
    rfl
  case executed =>
    rw [List.flatMap_append, ← List.append_assoc, ← h.executed]
    simp [Transaction.commit, hexecuted]
  case included =>
    intro entry hentry
    rcases List.mem_append.1 hentry with hold | hnew
    · exact h.included entry hold
    · cases List.mem_singleton.1 hnew
      exact ⟨hmem, hmatches⟩
  case fresh =>
    intro entry hentry
    rcases List.mem_append.1 hentry with hold | hnew
    · exact h.fresh entry hold
    · cases List.mem_singleton.1 hnew
      exact hfresh.1
  case once =>
    rw [List.map_append]
    refine List.nodup_append.2 ⟨h.once, List.nodup_singleton _, ?_⟩
    rintro version hold _ hnew rfl
    cases List.mem_singleton.1 hnew
    exact hfresh.2 hold

/-! ## What a replica has behind it -/

/-- What a run says of a changeset: it was settled, or this replica has applied it. -/
def Accounts (ctx : MigrationContext) (i : Fin n) (applied : List (Fin n × Changeset δ))
    (changeset : Changeset δ) (report : MigrationStepReport) : Prop :=
  report = settledReport ctx changeset ∨
    report = changeset.report .applied ∧ (i, changeset) ∈ applied

/-- The changesets a replica is done with, and its reports on them. -/
structure Accounted (ctx : MigrationContext) (i : Fin n) (applied : List (Fin n × Changeset δ))
    (db : Database δ) (done : List (Changeset δ)) (reports : List MigrationStepReport) : Prop where
  settled : ∀ changeset ∈ done, Settled ctx changeset db
  reported : List.Forall₂ (Accounts ctx i applied) done reports

section Accounting

variable {ctx : MigrationContext} {i : Fin n} {applied applied' : List (Fin n × Changeset δ)}
  {db db' : Database δ} {done : List (Changeset δ)} {reports : List MigrationStepReport}
  {changeset : Changeset δ} {report : MigrationStepReport}

theorem Accounted.nil : Accounted ctx i applied db [] [] :=
  { settled := by simp
    reported := List.Forall₂.nil }

theorem Accounted.mono (h : Accounted ctx i applied db done reports)
    (hrows : db.rows <+: db'.rows) (happlied : applied ⊆ applied') :
    Accounted ctx i applied' db' done reports :=
  { settled := fun changeset hmem => (h.settled changeset hmem).mono hrows
    reported := h.reported.imp fun _ _ hreport => hreport.imp_right fun hnew =>
      ⟨hnew.1, happlied hnew.2⟩ }

theorem Accounted.snoc (h : Accounted ctx i applied db done reports)
    (hsettled : Settled ctx changeset db) (hreport : Accounts ctx i applied changeset report) :
    Accounted ctx i applied db (done ++ [changeset]) (reports ++ [report]) := by
  refine
    { settled := ?_
      reported := List.rel_append h.reported (List.Forall₂.cons hreport List.Forall₂.nil) }
  intro c hc
  rcases List.mem_append.1 hc with hold | hnew
  · exact h.settled c hold
  · cases List.mem_singleton.1 hnew
    exact hsettled

end Accounting

/-- What a replica's phase says about the database and about its own past. -/
def Stage (replica : Replica δ) (i : Fin n) (applied : List (Fin n × Changeset δ))
    (db : Database δ) : Phase δ → Prop
  | .bootstrapping left => left <:+ bootstrapHistory
  | .looping reports left =>
      ∃ done, replica.changesets = done ++ left ∧
        Accounted replica.ctx i applied db done reports
  | .passing reports changeset left =>
      ∃ done, replica.changesets = done ++ changeset :: left ∧
        Accounted replica.ctx i applied db done reports ∧
        contextSkip changeset replica.ctx = none ∧ Settled replica.ctx changeset db
  | .executing reports changeset left tx statements =>
      ∃ done, replica.changesets = done ++ changeset :: left ∧
        Accounted replica.ctx i applied db done reports ∧
        contextSkip changeset replica.ctx = none ∧
        tx.executed ++ statements.map (fun statement => (changeset.version, statement.2)) =
          changeset.positions
  | .recorded reports changeset left tx =>
      ∃ done, replica.changesets = done ++ changeset :: left ∧
        Accounted replica.ctx i applied db done reports ∧
        contextSkip changeset replica.ctx = none ∧
        tx.executed = changeset.positions ∧ changeset.version ∉ db.versions
  | .finished (.ok reports) | .returned (.ok reports) =>
      Accounted replica.ctx i applied db replica.changesets reports
  | _ => True

theorem Stage.mono {replica : Replica δ} {i : Fin n} {applied applied' : List (Fin n × Changeset δ)}
    {db db' : Database δ} {phase : Phase δ} (h : Stage replica i applied db phase)
    (hrows : db.rows <+: db'.rows) (happlied : applied ⊆ applied')
    (hkey : ∀ version, phase.heldVersion = some version → version ∉ db.versions →
      version ∉ db'.versions) : Stage replica i applied' db' phase := by
  cases phase with
  | looping reports left =>
      rcases h with ⟨done, hdone, haccounted⟩
      exact ⟨done, hdone, haccounted.mono hrows happlied⟩
  | passing reports changeset left =>
      rcases h with ⟨done, hdone, haccounted, hskip, hsettled⟩
      exact ⟨done, hdone, haccounted.mono hrows happlied, hskip, hsettled.mono hrows⟩
  | executing reports changeset left tx statements =>
      rcases h with ⟨done, hdone, haccounted, hskip, htx⟩
      exact ⟨done, hdone, haccounted.mono hrows happlied, hskip, htx⟩
  | recorded reports changeset left tx =>
      rcases h with ⟨done, hdone, haccounted, hskip, htx, hfresh⟩
      exact ⟨done, hdone, haccounted.mono hrows happlied, hskip, htx, hkey _ rfl hfresh⟩
  | finished result =>
      cases result with
      | error error => trivial
      | ok reports => exact Accounted.mono h hrows happlied
  | returned result =>
      cases result with
      | error error => trivial
      | ok reports => exact Accounted.mono h hrows happlied
  | bootstrapping left => exact h
  | _ => trivial

theorem stage_of_stopped {replica : Replica δ} {i : Fin n}
    {applied : List (Fin n × Changeset δ)} {db : Database δ} {phase : Phase δ}
    (h : phase.Stopped) : Stage replica i applied db phase := by
  cases h <;> trivial

theorem settledReport_eq {ctx : MigrationContext} {changeset : Changeset δ}
    {skipped : MigrationStepReport} (h : contextSkip changeset ctx = some skipped) :
    settledReport ctx changeset = skipped := by
  simp [settledReport, h]

theorem settledReport_eq_skipped {ctx : MigrationContext} {changeset : Changeset δ}
    (h : contextSkip changeset ctx = none) :
    settledReport ctx changeset = changeset.report .skippedAlreadyApplied := by
  simp [settledReport, h]

theorem positions_of_build {changeset : Changeset δ} {statements : List (Statement δ)}
    (h : changeset.build = .ok statements) :
    changeset.positions =
      statements.zipIdx.map fun statement => (changeset.version, statement.2) := by
  simp [Changeset.positions, h]

theorem settled_of_rows_snoc {ctx : MigrationContext} {changeset : Changeset δ} {appliedBy : String}
    {db db' : Database δ} (hfresh : changeset.version ∉ db.versions)
    (hrows : db'.rows = db.rows ++ [changeset.historyRow appliedBy]) :
    Settled ctx changeset db' := by
  have hnot : db.rows.find? (fun row => row.version == changeset.version) = none := by
    rw [List.find?_eq_none]
    intro row hrow hversion
    exact hfresh (List.mem_map.2 ⟨row, hrow, by simpa using hversion⟩)
  intro _
  refine ⟨changeset.historyRow appliedBy, historyRow_eq_some.2 ?_, rfl⟩
  rw [hrows, List.find?_append, hnot]
  simp [Changeset.historyRow]

theorem rows_of_bootstrap {statement : StateT (Database δ) (Except MigrationError) PUnit}
    {db db' : Database δ} {u : PUnit} (hmem : statement ∈ bootstrapHistory)
    (h : statement db = .ok (u, db')) :
    db'.rows = db.rows ∧ db'.executed = db.executed := by
  simp only [bootstrapHistory, List.mem_cons, List.not_mem_nil, or_false] at hmem
  rcases hmem with rfl | rfl | rfl
  · cases h
    exact ⟨rfl, rfl⟩
  · simp only [Database.createHistory] at h
    split at h
    · cases h
      exact ⟨rfl, rfl⟩
    · cases h
  · simp only [Database.createIngestFailures] at h
    split at h
    · cases h
      exact ⟨rfl, rfl⟩
    · cases h

section Calls

variable {replica : Replica δ} {i : Fin n} {applied : List (Fin n × Changeset δ)}
  {held : Int → Bool} {db : Database δ} {phase : Phase δ} {adv : Advance δ}

theorem Call.heldVersion_applied (h : Call merge replica held db phase adv) :
    ∀ changeset ∈ adv.applied, phase.heldVersion = some changeset.version := by
  intro changeset hmem
  cases h with
  | committed =>
      cases List.mem_singleton.1 hmem
      rfl
  | _ => cases hmem

theorem Call.heldVersion_phase (h : Call merge replica held db phase adv) {version : Int}
    (hversion : adv.phase.heldVersion = some version) : held version = false := by
  cases h with
  | inserted hheld _ =>
      cases hversion
      exact hheld
  | _ => cases hversion

theorem Call.versions (h : Call merge replica held db phase adv)
    (hstage : Stage replica i applied db phase) :
    adv.db.versions = db.versions ++ adv.applied.map Changeset.version := by
  cases h with
  | prepared hstatement =>
      have hmem := List.IsSuffix.mem List.mem_cons_self hstage
      simp [Database.versions, (rows_of_bootstrap hmem hstatement).1]
  | committed =>
      simp [Database.versions, Transaction.commit, Database.rows, Changeset.historyRow]
  | _ => simp

theorem Call.rows (h : Call merge replica held db phase adv)
    (hstage : Stage replica i applied db phase) : db.rows <+: adv.db.rows := by
  cases h with
  | prepared hstatement =>
      have hmem := List.IsSuffix.mem List.mem_cons_self hstage
      rw [db_goOn, (rows_of_bootstrap hmem hstatement).1]
  | committed => exact List.prefix_append _ _
  | _ => exact List.prefix_refl _

/-- A replica whose call goes through has accounted for one thing more. -/
theorem Call.stage (h : Call merge replica held db phase adv)
    (hstage : Stage replica i applied db phase) :
    Stage replica i (applied ++ adv.applied.map fun changeset => (i, changeset)) adv.db
      adv.phase := by
  cases h with
  | bootstrapped => exact ⟨[], rfl, Accounted.nil⟩
  | prepared _ => exact (List.suffix_cons _ _).trans hstage
  | exhausted =>
      rcases hstage with ⟨done, hdone, haccounted⟩
      rw [List.append_nil] at hdone
      simpa [Stage, hdone] using haccounted
  | @excluded reports changeset left skipped hskip =>
      rcases hstage with ⟨done, hdone, haccounted⟩
      have hsettled : Settled replica.ctx changeset db := by
        intro hnone
        rw [hnone] at hskip
        cases hskip
      refine ⟨done ++ [changeset], by simpa using hdone, ?_⟩
      simpa using haccounted.snoc hsettled (Or.inl (settledReport_eq hskip).symm)
  | found hskip hfound hsum =>
      rcases hstage with ⟨done, hdone, haccounted⟩
      exact ⟨done, hdone, by simpa using haccounted, hskip, fun _ => ⟨_, hfound, hsum⟩⟩
  | opened hskip _ hbuild =>
      rcases hstage with ⟨done, hdone, haccounted⟩
      exact ⟨done, hdone, by simpa using haccounted, hskip, (positions_of_build hbuild).symm⟩
  | @passed reports changeset left =>
      rcases hstage with ⟨done, hdone, haccounted, hskip, hsettled⟩
      refine ⟨done ++ [changeset], by simpa using hdone, ?_⟩
      simpa using haccounted.snoc hsettled (Or.inl (settledReport_eq_skipped hskip).symm)
  | executed _ =>
      rcases hstage with ⟨done, hdone, haccounted, hskip, htx⟩
      exact ⟨done, hdone, by simpa using haccounted, hskip, by simpa using htx⟩
  | inserted _ hinsert =>
      rcases hstage with ⟨done, hdone, haccounted, hskip, htx⟩
      exact ⟨done, hdone, by simpa using haccounted, hskip, by simpa using htx,
        (insertHistory_eq_ok.1 hinsert).2.1⟩
  | @committed reports changeset left tx =>
      rcases hstage with ⟨done, hdone, haccounted, _, _, hfresh⟩
      refine ⟨done ++ [changeset], by simpa using hdone, ?_⟩
      refine (haccounted.mono (List.prefix_append _ _) (List.subset_append_left _ _)).snoc
        (settled_of_rows_snoc hfresh rfl) (Or.inr ⟨rfl, by simp⟩)
  | refused _ => trivial

/-- A call is entered in the books. -/
theorem Call.books {start : Database δ}
    (h : Call merge (replicas i) held db phase adv)
    (hstage : Stage (replicas i) i applied db phase) (hbooks : Books replicas start applied db) :
    Books replicas start (applied ++ adv.applied.map fun changeset => (i, changeset)) adv.db := by
  cases h with
  | prepared hstatement =>
      have hmem := List.IsSuffix.mem List.mem_cons_self hstage
      rcases rows_of_bootstrap hmem hstatement with ⟨hrows, hexecuted⟩
      simpa using hbooks.congr hrows hexecuted
  | committed =>
      rcases hstage with ⟨done, hdone, _, hskip, hexecuted, hfresh⟩
      exact hbooks.commit (by simp [hdone]) (contextSkip_eq_none.1 hskip) hexecuted hfresh
  | _ => simpa using hbooks

end Calls

/-! ## Every run of the replicas -/

/-- What every run keeps, whether the lock holds or not. -/
structure Fenced (replicas : Fin n → Replica δ) (start : Database δ) (w : World n δ) : Prop where
  books : Books replicas start w.applied w.db
  stages : ∀ i, Stage (replicas i) i w.applied w.db (w.phase i)
  keys : ∀ i j version, (w.phase i).heldVersion = some version →
    (w.phase j).heldVersion = some version → i = j

theorem Fenced.setPhase {start : Database δ} {w : World n δ} {i : Fin n} {phase : Phase δ}
    (h : Fenced replicas start w) (hstage : Stage (replicas i) i w.applied w.db phase)
    (hkey : phase.heldVersion = none) : Fenced replicas start (w.setPhase i phase) := by
  have hheld : ∀ j version, ((w.setPhase i phase).phase j).heldVersion = some version →
      (w.phase j).heldVersion = some version := by
    intro j version hversion
    by_cases hj : j = i
    · subst hj
      simp [World.setPhase, hkey] at hversion
    · simpa [World.setPhase, hj] using hversion
  refine
    { books := h.books
      stages := ?_
      keys := fun j k version hj hk => h.keys j k version (hheld j version hj) (hheld k version hk) }
  intro j
  by_cases hj : j = i
  · subst hj
    simpa [World.setPhase] using hstage
  · simpa [World.setPhase, hj] using h.stages j

theorem heldBy_eq_false {w : World n δ} {i : Fin n} {version : Int} :
    w.heldBy i version = false ↔ ∀ j, (w.phase j).heldVersion = some version → j = i := by
  simp only [World.heldBy, decide_eq_false_iff_not, not_exists, not_and]
  exact forall_congr' fun j => ⟨fun h hj => by_contra fun hne => h hne hj, fun h hne hj => hne (h hj)⟩

theorem Fenced.called {start : Database δ} {w : World n δ} {i : Fin n} {adv : Advance δ}
    {phase : Phase δ} (h : Fenced replicas start w)
    (hcall : Call merge (replicas i) (w.heldBy i) w.db (w.phase i) adv)
    (hphase : phase = adv.phase ∨ phase.Stopped) : Fenced replicas start (w.land i adv phase) := by
  have hstage := h.stages i
  -- the keys of others are not among the versions the call adds
  have hothers : ∀ j, j ≠ i → ∀ version, (w.phase j).heldVersion = some version →
      version ∉ w.db.versions → version ∉ adv.db.versions := by
    intro j hj version hversion hfresh hmem
    rw [hcall.versions hstage] at hmem
    rcases List.mem_append.1 hmem with hold | hnew
    · exact hfresh hold
    · rcases List.mem_map.1 hnew with ⟨changeset, hchangeset, rfl⟩
      exact hj (h.keys j i _ hversion (hcall.heldVersion_applied changeset hchangeset))
  have hheld : ∀ j version, ((w.land i adv phase).phase j).heldVersion = some version →
      (j = i ∧ w.heldBy i version = false) ∨ (j ≠ i ∧ (w.phase j).heldVersion = some version) := by
    intro j version hversion
    by_cases hj : j = i
    · subst hj
      simp only [World.land, Function.update_self] at hversion
      rcases hphase with rfl | hstopped
      · exact Or.inl ⟨rfl, hcall.heldVersion_phase hversion⟩
      · cases hstopped <;> cases hversion
    · exact Or.inr ⟨hj, by simpa [World.land, hj] using hversion⟩
  refine
    { books := hcall.books hstage h.books
      stages := ?_
      keys := ?_ }
  · intro j
    by_cases hj : j = i
    · subst hj
      simp only [World.land, Function.update_self]
      rcases hphase with rfl | hstopped
      · exact hcall.stage hstage
      · exact stage_of_stopped hstopped
    · simp only [World.land, Function.update_of_ne hj]
      exact (h.stages j).mono (hcall.rows hstage) (List.subset_append_left _ _) (hothers j hj)
  · intro j k version hjheld hkheld
    rcases hheld j version hjheld with ⟨rfl, hfree⟩ | ⟨hj, hjversion⟩
    · rcases hheld k version hkheld with ⟨rfl, _⟩ | ⟨_, hkversion⟩
      · rfl
      · exact (heldBy_eq_false.1 hfree k hkversion).symm
    · rcases hheld k version hkheld with ⟨rfl, hfree⟩ | ⟨_, hkversion⟩
      · exact heldBy_eq_false.1 hfree j hjversion
      · exact h.keys j k version hjversion hkversion

theorem Fenced.step {start : Database δ} {w w' : World n δ} {a : Action n δ}
    (h : Fenced replicas start w) (hstep : Step merge replicas w a w') :
    Fenced replicas start w' := by
  cases hstep with
  | moved hstopped _ =>
      refine h.setPhase (stage_of_stopped hstopped) ?_
      cases hstopped <;> rfl
  | @acquired i _ _ =>
      have hstage : Stage (replicas i) i w.applied w.db (.bootstrapping bootstrapHistory) :=
        List.suffix_refl _
      exact { h.setPhase hstage rfl with }
  | called hcall hphase => exact h.called hcall hphase
  | unlocked _ => exact { h with }
  | @released i result hphase =>
      have hstage := h.stages i
      rw [hphase] at hstage
      have hreturned : Stage (replicas i) i w.applied w.db
          (.returned (releaseResult (w.holder = some i) result)) := by
        cases result with
        | error error => trivial
        | ok reports =>
            by_cases hheld : w.holder = some i
            · simpa [releaseResult, hheld, Stage] using hstage
            · simp [releaseResult, hheld, Stage]
      exact { h.setPhase hreturned rfl with }
  | wrote =>
      exact
        { books := h.books.congr rfl rfl
          stages := fun i => (h.stages i).mono (List.prefix_refl _) (List.Subset.refl _)
            fun _ _ hfresh => hfresh
          keys := h.keys }

theorem fenced_of_reachable {start : Database δ} {w : World n δ}
    (h : (replicaSystem merge replicas start).Reachable w) : Fenced replicas start w := by
  refine TransitionSystem.Reachable.invariant ?_ ?_ h
  · rintro w ⟨hdb, _, happlied, hphase⟩
    refine
      { books := ?_
        stages := fun i => by rw [hphase i]; trivial
        keys := fun i j version hi _ => by rw [hphase i] at hi; cases hi }
    rw [hdb, happlied]
    exact
      { rows := by simp
        executed := by simp
        included := by simp
        fresh := by simp
        once := by simp }
  · intro w a w' hw hnext
    exact hw.step (step_of_next hnext)

theorem action_settledReport {ctx : MigrationContext} {changeset : Changeset δ} :
    (settledReport ctx changeset).action ≠ .applied := by
  cases hskip : contextSkip changeset ctx with
  | none =>
      rw [settledReport_eq_skipped hskip]
      simp [Changeset.report]
  | some skipped =>
      rw [settledReport_eq hskip]
      unfold contextSkip at hskip
      split at hskip
      · cases hskip
      · cases hskip
        simp [Changeset.report]

theorem mem_applied_of_report {ctx : MigrationContext} {i : Fin n}
    {applied : List (Fin n × Changeset δ)} {changesets : List (Changeset δ)}
    {reports : List MigrationStepReport} {report : MigrationStepReport}
    (h : List.Forall₂ (Accounts ctx i applied) changesets reports) (hmem : report ∈ reports)
    (haction : report.action = .applied) :
    ∃ changeset, (i, changeset) ∈ applied ∧ changeset.version = report.version := by
  induction h with
  | nil => cases hmem
  | cons hreport _ ih =>
      rcases List.mem_cons.1 hmem with rfl | hmem
      · rcases hreport with rfl | ⟨rfl, hin⟩
        · exact absurd haction action_settledReport
        · exact ⟨_, hin, rfl⟩
      · exact ih hmem

end Fence

/-- **Replicas that migrate side by side apply a changeset once.**  Wherever they are stopped and
whoever has lost the lock: the history grows by the committed changesets, each under a version of its
own, and what was executed are their statements, each changeset's all together; a replica that
returns leaves every changeset of its own settled; no two replicas report to have applied one
version. -/
theorem replicas_apply_once {n : Nat} {δ : Type} (merge : Merge δ) (replicas : Fin n → Replica δ)
    (start : Database δ) {w : World n δ} (h : (replicaSystem merge replicas start).Reachable w) :
    Books replicas start w.applied w.db ∧
    (∀ i reports, w.phase i = .returned (.ok reports) →
      (∀ changeset ∈ (replicas i).changesets, Settled (replicas i).ctx changeset w.db) ∧
      List.Forall₂ (Accounts (replicas i).ctx i w.applied) (replicas i).changesets reports) ∧
    ∀ i j reports reports', w.phase i = .returned (.ok reports) →
      w.phase j = .returned (.ok reports') →
      ∀ report ∈ reports, ∀ report' ∈ reports', report.action = .applied →
        report'.action = .applied → report.version = report'.version → i = j := by
  have hfenced := fenced_of_reachable h
  have hreturned : ∀ i reports, w.phase i = .returned (.ok reports) →
      Accounted (replicas i).ctx i w.applied w.db (replicas i).changesets reports := by
    intro i reports hphase
    have hstage := hfenced.stages i
    rw [hphase] at hstage
    exact hstage
  refine ⟨hfenced.books, ?_, ?_⟩
  · intro i reports hphase
    exact ⟨(hreturned i reports hphase).settled, (hreturned i reports hphase).reported⟩
  · intro i j reports reports' hi hj report hreport report' hreport' haction haction' hversion
    rcases mem_applied_of_report (hreturned i reports hi).reported hreport haction with
      ⟨changeset, hmem, hsame⟩
    rcases mem_applied_of_report (hreturned j reports' hj).reported hreport' haction' with
      ⟨changeset', hmem', hsame'⟩
    have heq := List.inj_on_of_nodup_map hfenced.books.once hmem hmem'
      (hsame.trans (hversion.trans hsame'.symm))
    exact congrArg Prod.fst heq

/-! ### A replica that loses its lock inside a transaction -/

namespace Journal

/-- Entries of others come first, unless there are none. -/
def merge : Merge (List String) :=
  { view := fun seen own committed =>
      if committed = seen then own else committed ++ own.drop seen.length
    alone := fun _ _ => if_pos rfl }

def replicas : Fin 2 → Replica (List String) := fun i =>
  { maxConnections := 2
    ctx := ⟨[], if i.val = 0 then "first" else "second"⟩
    changesets := [journalChangeset 1 ["one"]] }

def initial : World 2 (List String) :=
  { db := emptyJournal
    holder := none
    phase := fun _ => .idle
    applied := [] }

/-- The calls of a replica that nobody disturbs, from the lock up to the last of `calls`. -/
def calls (i : Fin 2) (count : Nat) : List (Action 2 (List String)) :=
  [.start i, .acquire i] ++ List.replicate count (.proceed i)

/-- Replica `i` loses its lock after it has run the statement of its changeset; replica `j` applies
the changeset meanwhile. -/
def lockLost (i j : Fin 2) : List (Action 2 (List String)) :=
  calls i 6 ++ [.loseLock i] ++ calls j 9 ++ [.release j, .proceed i, .release i]

end Journal

open Journal in
theorem replicas_apply_once_lock_lost :
    ∃ w, (replicaSystem merge replicas emptyJournal).Reachable w ∧
      w.phase 0 = .returned (.error
        (.sqlx "duplicate key value violates unique constraint changelog_history_pkey")) ∧
      w.phase 1 = .returned (.ok [(journalChangeset 1 ["one"]).report .applied]) ∧
      w.db.data = ["one"] ∧ Books replicas emptyJournal w.applied w.db := by
  obtain ⟨w, hrun, hfirst, hsecond, hdata⟩ :
      ∃ w, (replicaSystem merge replicas emptyJournal).run initial (lockLost 0 1) = some w ∧
        w.phase 0 = .returned (.error
          (.sqlx "duplicate key value violates unique constraint changelog_history_pkey")) ∧
        w.phase 1 = .returned (.ok [(journalChangeset 1 ["one"]).report .applied]) ∧
        w.db.data = ["one"] :=
    ⟨_, rfl, rfl, rfl, rfl⟩
  have hstart : (replicaSystem merge replicas emptyJournal).Reachable initial :=
    TransitionSystem.Reachable.start ⟨rfl, rfl, rfl, fun _ => rfl⟩
  have hreach := TransitionSystem.reachable_of_run hstart hrun
  exact ⟨w, hreach, hfirst, hsecond, hdata, (replicas_apply_once merge replicas emptyJournal hreach).1⟩

end Migration
end Kafkaman
