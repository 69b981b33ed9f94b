import Kafkaman.Migration.Runner
import Mathlib.Data.List.Nodup

/-!
# Migration.Resume — runs that stop anywhere, and the run that finishes

A changeset the history knows is passed over, so a run picks up where the last one stopped.

* `TookEffect` — the changesets between two databases, each with its row and its statements;
* `migrateStep_cases`, `applyChangeset_ok` — what a changeset's transaction does;
* `Settled` — the history has the changeset, under its present checksum, or the context excludes it;
* `tookEffect_of_interrupted` — a run moves the database by whole changesets, in order;
* `settle_of_interrupted` — a run that goes on from there ends where an uninterrupted one does;
* `migrations_resumable` — over any sequence of runs.
-/

namespace Kafkaman
namespace Migration

open Lib

section Steps

variable {δ : Type} {ctx : MigrationContext} {changeset : Changeset δ} {db db' : Database δ}

def Database.versions (db : Database δ) : List Int :=
  db.rows.map HistoryRow.version

/-- The statements of a changeset, as they are recorded when they are executed. -/
def Changeset.positions (changeset : Changeset δ) : List (Int × Nat) :=
  match changeset.build with
  | .ok statements => statements.zipIdx.map fun statement => (changeset.version, statement.2)
  | .error _ => []

/-! ## One changeset -/

theorem foldlM_execute_ok {version : Int} :
    ∀ {statements : List (Statement δ × Nat)} {db : Database δ},
      statements.foldlM (fun db statement => db.execute version statement) db = .ok db' →
        ∃ data, db' =
          { db with
            data := data
            executed := db.executed ++ statements.map fun statement => (version, statement.2) } := by
  intro statements
  induction statements with
  | nil =>
      intro db h
      cases h
      exact ⟨db'.data, by simp⟩
  | cons statement statements ih =>
      intro db h
      rcases bind_eq_ok.1 h with ⟨next, hnext, hrest⟩
      rcases bind_eq_ok.1 hnext with ⟨data, -, hpure⟩
      cases hpure
      rcases ih hrest with ⟨data', rfl⟩
      exact ⟨data', by simp⟩

theorem insertHistory_eq_ok {row : HistoryRow} :
    db.insertHistory row = .ok db' ↔
      db.history = some db.rows ∧ row.version ∉ db.versions ∧
        db' = { db with history := some (db.rows ++ [row]) } := by
  cases hhistory : db.history with
  | none => simp [Database.insertHistory, hhistory]
  | some rows =>
      have hrows : db.rows = rows := by simp [Database.rows, hhistory]
      by_cases hmem : row.version ∈ db.versions
      · have hany : (rows.any fun old => old.version == row.version) = true := by
          simpa [Database.versions, hrows] using hmem
        simp [Database.insertHistory, hhistory, hany, hmem]
      · have hany : (rows.any fun old => old.version == row.version) = false := by
          simpa [Database.versions, hrows] using hmem
        simp [Database.insertHistory, hhistory, hany, hmem, hrows, eq_comm]

/-- An applied changeset leaves its row and the record of its statements. -/
theorem applyChangeset_ok (h : applyChangeset ctx changeset db = .ok db') :
    db.history = some db.rows ∧ changeset.version ∉ db.versions ∧
      ∃ data, db' =
        { db with
          history := some (db.rows ++ [changeset.historyRow ctx.appliedBy])
          data := data
          executed := db.executed ++ changeset.positions } := by
  rcases bind_eq_ok.1 h with ⟨statements, hbuild, hrest⟩
  rcases bind_eq_ok.1 hrest with ⟨next, hexecute, hinsert⟩
  rcases foldlM_execute_ok hexecute with ⟨data, rfl⟩
  rcases insertHistory_eq_ok.1 hinsert with ⟨hhistory, hfresh, rfl⟩
  refine ⟨hhistory, hfresh, data, ?_⟩
  simp only [Changeset.positions, hbuild]
  rfl

/-- What a step that went through did. -/
theorem migrateStep_cases {report : MigrationStepReport}
    (h : migrateStep ctx changeset db = .ok (report, db')) :
    (∃ skipped, contextSkip changeset ctx = some skipped ∧ report = skipped ∧ db' = db) ∨
      (contextSkip changeset ctx = none ∧
        ∃ row, db.historyRow changeset.version = .ok (some row) ∧
          row.checksum = changeset.checksum ∧
          report = changeset.report .skippedAlreadyApplied ∧ db' = db) ∨
      (contextSkip changeset ctx = none ∧ db.historyRow changeset.version = .ok none ∧
        report = changeset.report .applied ∧ applyChangeset ctx changeset db = .ok db') := by
  cases hskip : contextSkip changeset ctx with
  | some skipped =>
      simp only [migrateStep, hskip, Except.ok.injEq, Prod.mk.injEq] at h
      exact .inl ⟨skipped, rfl, h.1.symm, h.2.symm⟩
  | none =>
      simp only [migrateStep, hskip] at h
      rcases bind_eq_ok.1 h with ⟨found, hfound, hrest⟩
      cases found with
      | none =>
          rcases bind_eq_ok.1 hrest with ⟨next, happly, hnext⟩
          cases hnext
          exact .inr (.inr ⟨rfl, hfound, rfl, happly⟩)
      | some row =>
          by_cases hsum : row.checksum = changeset.checksum
          · simp only [hsum, ne_eq, not_true_eq_false, if_false, Except.ok.injEq,
              Prod.mk.injEq] at hrest
            exact .inr (.inl ⟨rfl, row, hfound, hsum, hrest.1.symm, hrest.2.symm⟩)
          · simp [hsum] at hrest

theorem historyRow_eq_some {version : Int} {row : HistoryRow} :
    db.historyRow version = .ok (some row) ↔
      db.rows.find? (fun row => row.version == version) = some row := by
  cases hhistory : db.history with
  | none => simp [Database.historyRow, Database.rows, hhistory]
  | some rows => simp [Database.historyRow, Database.rows, hhistory]

theorem rows_of_migrateStep {report : MigrationStepReport}
    (h : migrateStep ctx changeset db = .ok (report, db')) : db.rows <+: db'.rows := by
  rcases migrateStep_cases h with ⟨_, -, -, rfl⟩ | ⟨-, _, -, -, -, rfl⟩ | ⟨-, -, -, happly⟩
  · exact List.prefix_refl _
  · exact List.prefix_refl _
  · rcases applyChangeset_ok happly with ⟨-, -, _, rfl⟩
    exact List.prefix_append _ _

theorem find?_stays {α : Type} {p : α → Bool} {xs ys : List α} {a : α} (h : xs <+: ys)
    (hfound : xs.find? p = some a) : ys.find? p = some a := by
  rcases h with ⟨zs, rfl⟩
  simp [hfound]

/-! ## What is settled stays settled -/

/-- The history has the changeset, under its present checksum, or the context excludes it. -/
def Settled (ctx : MigrationContext) (changeset : Changeset δ) (db : Database δ) : Prop :=
  contextSkip changeset ctx = none →
    ∃ row, db.historyRow changeset.version = .ok (some row) ∧ row.checksum = changeset.checksum

/-- What a run says about a changeset that is settled. -/
def settledReport (ctx : MigrationContext) (changeset : Changeset δ) : MigrationStepReport :=
  (contextSkip changeset ctx).getD (changeset.report .skippedAlreadyApplied)

theorem Settled.mono (h : Settled ctx changeset db) (hrows : db.rows <+: db'.rows) :
    Settled ctx changeset db' := by
  intro hskip
  rcases h hskip with ⟨row, hrow, hsum⟩
  exact ⟨row, historyRow_eq_some.2 (find?_stays hrows (historyRow_eq_some.1 hrow)), hsum⟩

theorem migrateStep_of_settled (h : Settled ctx changeset db) :
    migrateStep ctx changeset db = .ok (settledReport ctx changeset, db) := by
  cases hskip : contextSkip changeset ctx with
  | some skipped => simp [migrateStep, settledReport, hskip]
  | none =>
      rcases h hskip with ⟨row, hrow, hsum⟩
      simp [migrateStep, settledReport, hskip, hrow, hsum, bind, Except.bind]

theorem settled_of_migrateStep {report : MigrationStepReport}
    (h : migrateStep ctx changeset db = .ok (report, db')) : Settled ctx changeset db' := by
  intro hnone
  rcases migrateStep_cases h with ⟨_, hskip, -⟩ | ⟨-, row, hrow, hsum, -, rfl⟩ |
    ⟨-, hfound, -, happly⟩
  · rw [hnone] at hskip
    cases hskip
  · exact ⟨row, hrow, hsum⟩
  · rcases applyChangeset_ok happly with ⟨-, hfresh, _, rfl⟩
    have hnot : db.rows.find? (fun row => row.version == changeset.version) = none := by
      rw [List.find?_eq_none]
      intro row hrow hversion
      exact hfresh (List.mem_map.2 ⟨row, hrow, by simpa using hversion⟩)
    refine ⟨changeset.historyRow ctx.appliedBy, historyRow_eq_some.2 ?_, rfl⟩
    show (db.rows ++ [changeset.historyRow ctx.appliedBy]).find? _ = _
    simp [List.find?_append, hnot, Changeset.historyRow]

variable {changesets : List (Changeset δ)} {reports : List MigrationStepReport}

theorem rows_of_mapM' (h : changesets.mapM' (migrateStep ctx) db = .ok (reports, db')) :
    db.rows <+: db'.rows := by
  induction changesets generalizing db reports with
  | nil =>
      cases h
      exact List.prefix_refl _
  | cons changeset changesets ih =>
      rcases mapM'_cons_ok.1 h with ⟨_, _, _, hstep, hrest, -⟩
      exact (rows_of_migrateStep hstep).trans (ih hrest)

theorem settled_of_mapM' (h : changesets.mapM' (migrateStep ctx) db = .ok (reports, db')) :
    ∀ changeset ∈ changesets, Settled ctx changeset db' := by
  induction changesets generalizing db reports with
  | nil =>
      intro changeset hmem
      cases hmem
  | cons first changesets ih =>
      intro changeset hmem
      rcases mapM'_cons_ok.1 h with ⟨_, _, _, hstep, hrest, -⟩
      rcases List.mem_cons.1 hmem with rfl | hmem
      · exact (settled_of_migrateStep hstep).mono (rows_of_mapM' hrest)
      · exact ih hrest changeset hmem

theorem mapM'_of_settled (h : ∀ changeset ∈ changesets, Settled ctx changeset db) :
    changesets.mapM' (migrateStep ctx) db = .ok (changesets.map (settledReport ctx), db) := by
  induction changesets with
  | nil => rfl
  | cons changeset changesets ih =>
      exact mapM'_cons_ok.2 ⟨_, db, _, migrateStep_of_settled (h changeset (by simp)),
        ih fun c hc => h c (List.mem_cons_of_mem _ hc), rfl⟩

/-! ## The bootstrap -/

/-- The database once the runner's own tables exist. -/
def Database.prepared (db : Database δ) : Database δ :=
  { db with
    schema := true
    history := some db.rows
    ingestFailures := true }

theorem bootstrapHistory_ok (db : Database δ) :
    bootstrapHistory.mapM' id db = .ok ([⟨⟩, ⟨⟩, ⟨⟩], db.prepared) :=
  rfl

theorem prepared_of_partly (h : Partly id bootstrapHistory db db') :
    db'.prepared = db.prepared ∧ db'.rows = db.rows ∧ db'.data = db.data ∧
      db'.executed = db.executed ∧ (db.prepared = db → db' = db) := by
  rcases h with ⟨done, hdone, units, hunits⟩
  -- it stopped before its first statement, or after one, two or all three of them
  rcases List.prefix_cons_iff.1 hdone with rfl | ⟨_, rfl, htwo⟩
  · cases hunits
    exact ⟨rfl, rfl, rfl, rfl, fun _ => rfl⟩
  rcases List.prefix_cons_iff.1 htwo with rfl | ⟨_, rfl, hthree⟩
  · cases hunits
    refine ⟨rfl, rfl, rfl, rfl, fun hready => ?_⟩
    rw [← hready]
    rfl
  rcases List.prefix_cons_iff.1 hthree with rfl | ⟨_, rfl, hnone⟩
  · cases hunits
    refine ⟨rfl, rfl, rfl, rfl, fun hready => ?_⟩
    rw [← hready]
    rfl
  rcases List.prefix_nil.1 hnone
  cases hunits
  exact ⟨rfl, rfl, rfl, rfl, id⟩

theorem prepared_of_migrateStep {report : MigrationStepReport} (hready : db.prepared = db)
    (h : migrateStep ctx changeset db = .ok (report, db')) : db'.prepared = db' := by
  rcases migrateStep_cases h with ⟨_, -, -, rfl⟩ | ⟨-, _, -, -, -, rfl⟩ | ⟨-, -, -, happly⟩
  · exact hready
  · exact hready
  · rcases applyChangeset_ok happly with ⟨-, -, _, rfl⟩
    rw [← hready]
    rfl

theorem prepared_of_mapM' (hready : db.prepared = db)
    (h : changesets.mapM' (migrateStep ctx) db = .ok (reports, db')) : db'.prepared = db' := by
  induction changesets generalizing db reports with
  | nil =>
      cases h
      exact hready
  | cons changeset changesets ih =>
      rcases mapM'_cons_ok.1 h with ⟨_, _, _, hstep, hrest, -⟩
      exact ih (prepared_of_migrateStep hready hstep) hrest

/-- The bootstrap always goes through, so a run stops inside it or inside the loop. -/
theorem interrupted_iff :
    Interrupted ctx changesets db db' ↔
      Partly id bootstrapHistory db db' ∨ Partly (migrateStep ctx) changesets db.prepared db' := by
  simp [Interrupted, bootstrapHistory_ok]

theorem settle_eq (ctx : MigrationContext) (changesets : List (Changeset δ)) (db : Database δ) :
    settle ctx changesets db = changesets.mapM' (migrateStep ctx) db.prepared :=
  rfl

/-! ## What a run leaves behind -/

/-- The changesets `applied` took effect between `before` and `after`, and nothing else did. -/
structure TookEffect (ctx : MigrationContext) (applied : List (Changeset δ))
    (before after : Database δ) : Prop where
  included : ∀ changeset ∈ applied, ctx.matches changeset.contexts = true
  fresh : ∀ changeset ∈ applied, changeset.version ∉ before.versions
  distinct : (applied.map Changeset.version).Nodup
  rows : after.rows = before.rows ++ applied.map fun changeset => changeset.historyRow ctx.appliedBy
  executed : after.executed = before.executed ++ applied.flatMap Changeset.positions
  /-- All their statements, in their order, from what was there. -/
  effect : ∃ ready, ready.rows = before.rows ∧ ready.data = before.data ∧
    ready.executed = before.executed ∧
      applied.foldlM (fun db changeset => applyChangeset ctx changeset db) ready = .ok after

theorem contextSkip_eq_none : contextSkip changeset ctx = none ↔ ctx.matches changeset.contexts = true := by
  cases hmatches : ctx.matches changeset.contexts <;> simp [contextSkip, hmatches]

theorem exists_applied (h : changesets.mapM' (migrateStep ctx) db = .ok (reports, db')) :
    ∃ applied : List (Changeset δ), applied.Sublist changesets ∧
      (∀ changeset ∈ applied, ctx.matches changeset.contexts = true) ∧
      applied.foldlM (fun db changeset => applyChangeset ctx changeset db) db = .ok db' := by
  induction changesets generalizing db reports with
  | nil =>
      cases h
      exact ⟨[], List.Sublist.refl _, by simp, rfl⟩
  | cons changeset changesets ih =>
      rcases mapM'_cons_ok.1 h with ⟨_, next, _, hstep, hrest, -⟩
      rcases ih hrest with ⟨applied, hsublist, hincluded, heffect⟩
      rcases migrateStep_cases hstep with ⟨_, -, -, rfl⟩ | ⟨-, _, -, -, -, rfl⟩ |
        ⟨hskip, -, -, happly⟩
      · exact ⟨applied, hsublist.cons _, hincluded, heffect⟩
      · exact ⟨applied, hsublist.cons _, hincluded, heffect⟩
      · refine ⟨changeset :: applied, hsublist.cons_cons _, ?_, bind_eq_ok.2 ⟨next, happly, heffect⟩⟩
        intro c hc
        rcases List.mem_cons.1 hc with rfl | hc
        · exact contextSkip_eq_none.1 hskip
        · exact hincluded c hc

theorem foldlM_applyChangeset_ok {applied : List (Changeset δ)}
    (h : applied.foldlM (fun db changeset => applyChangeset ctx changeset db) db = .ok db') :
    (∀ changeset ∈ applied, changeset.version ∉ db.versions) ∧
      (applied.map Changeset.version).Nodup ∧
      (db'.rows = db.rows ++ applied.map fun changeset => changeset.historyRow ctx.appliedBy) ∧
      db'.executed = db.executed ++ applied.flatMap Changeset.positions := by
  induction applied generalizing db with
  | nil =>
      cases h
      simp
  | cons changeset applied ih =>
      rcases bind_eq_ok.1 h with ⟨next, happly, hrest⟩
      rcases applyChangeset_ok happly with ⟨-, hfresh, _, rfl⟩
      rcases ih hrest with ⟨hrestFresh, hdistinct, hrows, hexecuted⟩
      -- The later ones find the history with this version in it, and are not there either.
      have hversions : ∀ c ∈ applied, c.version ≠ changeset.version ∧ c.version ∉ db.versions := by
        intro c hc
        have hnot := hrestFresh c hc
        simpa [Database.versions, Database.rows, Changeset.historyRow, not_or, and_comm] using hnot
      refine ⟨?_, ?_, ?_, ?_⟩
      · intro c hc
        rcases List.mem_cons.1 hc with rfl | hc
        · exact hfresh
        · exact (hversions c hc).2
      · refine List.nodup_cons.2 ⟨?_, hdistinct⟩
        intro hmem
        rcases List.mem_map.1 hmem with ⟨c, hc, hsame⟩
        exact (hversions c hc).1 hsame
      · rw [hrows]
        simp [Database.rows]
      · rw [hexecuted]
        simp

/-- A run moves the database by whole changesets. -/
theorem tookEffect_of_interrupted (h : Interrupted ctx changesets db db') :
    ∃ applied : List (Changeset δ), applied.Sublist changesets ∧ TookEffect ctx applied db db' := by
  rcases interrupted_iff.1 h with hbootstrap | ⟨done, hdone, reports, hreports⟩
  · rcases prepared_of_partly hbootstrap with ⟨-, hrows, hdata, hexecuted, -⟩
    exact ⟨[], List.nil_sublist _,
      { included := by simp
        fresh := by simp
        distinct := by simp
        rows := by simpa using hrows
        executed := by simpa using hexecuted
        effect := ⟨db', hrows, hdata, hexecuted, rfl⟩ }⟩
  · rcases exists_applied hreports with ⟨applied, hsublist, hincluded, heffect⟩
    rcases foldlM_applyChangeset_ok heffect with ⟨hfresh, hdistinct, hrows, hexecuted⟩
    exact ⟨applied, hsublist.trans hdone.sublist,
      { included := hincluded
        fresh := hfresh
        distinct := hdistinct
        rows := hrows
        executed := hexecuted
        effect := ⟨db.prepared, rfl, rfl, rfl, heffect⟩ }⟩

/-! ## Going on from where a run stopped -/

variable {last : Database δ}

/-- The prefix that was applied is passed over; the rest is what was left to do. -/
theorem settle_of_interrupted (h : Interrupted ctx changesets db db')
    (hsettle : ∃ reports, settle ctx changesets db' = .ok (reports, last)) :
    ∃ reports, settle ctx changesets db = .ok (reports, last) := by
  rcases hsettle with ⟨reports, hsettle⟩
  rw [settle_eq] at hsettle
  rcases interrupted_iff.1 h with hbootstrap | ⟨done, ⟨rest, rfl⟩, reports', hdone⟩
  · rw [(prepared_of_partly hbootstrap).1] at hsettle
    exact ⟨reports, hsettle⟩
  · have hprepared : db'.prepared = db' := prepared_of_mapM' rfl hdone
    rw [hprepared] at hsettle
    rcases mapM'_append_ok.1 hsettle with ⟨_, _, reports'', hagain, hrest, -⟩
    rw [mapM'_of_settled (settled_of_mapM' hdone)] at hagain
    cases hagain
    exact ⟨reports' ++ reports'', mapM'_append_ok.2 ⟨reports', db', reports'', hdone, hrest, rfl⟩⟩

theorem settle_again (h : settle ctx changesets db = .ok (reports, last)) :
    last.prepared = last ∧ (∀ changeset ∈ changesets, Settled ctx changeset last) ∧
      settle ctx changesets last = .ok (changesets.map (settledReport ctx), last) := by
  rw [settle_eq] at h
  have hprepared : last.prepared = last := prepared_of_mapM' rfl h
  have hsettled := settled_of_mapM' h
  refine ⟨hprepared, hsettled, ?_⟩
  rw [settle_eq, hprepared]
  exact mapM'_of_settled hsettled

theorem eq_of_interrupted (h : settle ctx changesets db = .ok (reports, last))
    (hstop : Interrupted ctx changesets last db') : db' = last := by
  rcases settle_again h with ⟨hprepared, hsettled, -⟩
  rcases interrupted_iff.1 hstop with hbootstrap | ⟨done, hdone, reports', hreports⟩
  · exact (prepared_of_partly hbootstrap).2.2.2.2 hprepared
  · rw [hprepared, mapM'_of_settled fun c hc => hsettled c (hdone.subset hc)] at hreports
    cases hreports
    rfl

/-! ## A changeset that was edited after it was applied -/

section Mismatch

variable {row : HistoryRow}

/-- The history has the changeset under another checksum. -/
structure Edited (ctx : MigrationContext) (changeset : Changeset δ) (row : HistoryRow)
    (db : Database δ) : Prop where
  included : ctx.matches changeset.contexts = true
  stored : db.rows.find? (fun row => row.version == changeset.version) = some row
  differs : row.checksum ≠ changeset.checksum

theorem migrateStep_of_edited (h : Edited ctx changeset row db) :
    migrateStep ctx changeset db =
      .error (.checksumMismatch changeset.version row.checksum changeset.checksum) := by
  have hskip := contextSkip_eq_none.2 h.included
  have hrow := historyRow_eq_some.2 h.stored
  simp [migrateStep, hskip, hrow, h.differs, bind, Except.bind]

theorem Edited.mono (h : Edited ctx changeset row db) (hrows : db.rows <+: db'.rows) :
    Edited ctx changeset row db' where
  included := h.included
  stored := find?_stays hrows h.stored
  differs := h.differs

theorem Edited.prepared (h : Edited ctx changeset row db) :
    Edited ctx changeset row db.prepared :=
  h.mono (List.prefix_refl _)

variable {before after : List (Changeset δ)}

theorem mapM'_append_edited (h : Edited ctx changeset row db) :
    (before ++ changeset :: after).mapM' (migrateStep ctx) db ≠ .ok (reports, db') := by
  intro hrun
  rcases mapM'_append_ok.1 hrun with ⟨_, next, _, hbefore, hrest, -⟩
  rcases mapM'_cons_ok.1 hrest with ⟨_, _, _, hstep, -⟩
  rw [migrateStep_of_edited (h.mono (rows_of_mapM' hbefore))] at hstep
  cases hstep

theorem interrupted_before_edited (h : Edited ctx changeset row db)
    (hstop : Interrupted ctx (before ++ changeset :: after) db db') :
    Interrupted ctx before db db' := by
  rw [interrupted_iff] at hstop ⊢
  refine hstop.imp_right ?_
  rintro ⟨done, hdone, reports, hreports⟩
  rcases List.prefix_or_prefix_of_prefix hdone (List.prefix_append before _) with hin | ⟨rest, rfl⟩
  · exact ⟨done, hin, reports, hreports⟩
  · rw [List.prefix_append_right_inj] at hdone
    rcases List.prefix_cons_iff.1 hdone with rfl | ⟨_, rfl, -⟩
    · exact ⟨before ++ [], by simp, reports, hreports⟩
    · exact absurd hreports (mapM'_append_edited h.prepared)

theorem settle_edited (h : Edited ctx changeset row db)
    (hbefore : settle ctx before db = .ok (reports, last)) :
    settle ctx (before ++ changeset :: after) db =
      .error (.checksumMismatch changeset.version row.checksum changeset.checksum) := by
  rw [settle_eq] at hbefore ⊢
  have hstep := migrateStep_of_edited (h.prepared.mono (rows_of_mapM' hbefore))
  rw [mapM'_append_apply, hbefore]
  show (changeset :: after).mapM' (migrateStep ctx) last >>= _ = _
  rw [mapM'_cons_apply, hstep]
  rfl

end Mismatch

/-! ## Runs -/

theorem migrateAtOnce_eq_ok {maxConnections : Nat} {result : List MigrationStepReport × Database δ} :
    migrateAtOnce maxConnections ctx changesets db = .ok result ↔
      assertChangelogOrder Changeset.version changesets = .ok () ∧ ¬maxConnections < 2 ∧
        settle ctx changesets db = .ok result := by
  rw [migrateAtOnce, Implements.lift_bind_apply, bind_eq_ok]
  by_cases hpool : maxConnections < 2
  · simp [hpool, StateT.lift, bind, Except.bind]
  · constructor
    · rintro ⟨⟨⟩, horder, hsettle⟩
      exact ⟨horder, hpool, by simpa [hpool] using hsettle⟩
    · rintro ⟨horder, -, hsettle⟩
      exact ⟨(), horder, by simpa [hpool] using hsettle⟩

/-- What was executed since `start`, each statement once, under versions the history has now and
did not have then. -/
structure ExecutedOnce (start db : Database δ) (added : List (Int × Nat)) : Prop where
  executed : db.executed = start.executed ++ added
  once : added.Nodup
  fresh : ∀ entry ∈ added, entry.1 ∉ start.versions
  recorded : ∀ entry ∈ added, entry.1 ∈ db.versions
  kept : start.versions ⊆ db.versions

theorem mem_positions {entry : Int × Nat} (h : entry ∈ changeset.positions) :
    entry.1 = changeset.version := by
  rw [Changeset.positions] at h
  cases hbuild : changeset.build with
  | error error => simp [hbuild] at h
  | ok statements =>
      rw [hbuild] at h
      rcases List.mem_map.1 h with ⟨_, -, rfl⟩
      rfl

theorem nodup_positions (changeset : Changeset δ) : changeset.positions.Nodup := by
  cases hbuild : changeset.build with
  | error error => simp [Changeset.positions, hbuild]
  | ok statements =>
      have hindices : (statements.zipIdx.map Prod.snd).Nodup := by
        rw [List.zipIdx_map_snd]
        exact List.nodup_range'
      have hpositions : changeset.positions =
          (statements.zipIdx.map Prod.snd).map fun position => (changeset.version, position) := by
        simp only [Changeset.positions, hbuild, List.map_map]
        rfl
      rw [hpositions]
      exact hindices.map fun _ _ h => congrArg Prod.snd h

theorem executedOnce_refl (start : Database δ) : ExecutedOnce start start [] where
  executed := by simp
  once := List.nodup_nil
  fresh := by simp
  recorded := by simp
  kept := List.Subset.refl _

theorem ExecutedOnce.step {start : Database δ} {added : List (Int × Nat)}
    {applied : List (Changeset δ)} (h : ExecutedOnce start db added)
    (heffect : TookEffect ctx applied db db') :
    ExecutedOnce start db' (added ++ applied.flatMap Changeset.positions) := by
  have hversions : db'.versions = db.versions ++ applied.map Changeset.version := by
    simp [Database.versions, heffect.rows, Function.comp_def, Changeset.historyRow]
  have hnew : ∀ entry ∈ applied.flatMap Changeset.positions,
      ∃ changeset ∈ applied, entry.1 = changeset.version := by
    intro entry hentry
    rcases List.mem_flatMap.1 hentry with ⟨changeset, hmem, hposition⟩
    exact ⟨changeset, hmem, mem_positions hposition⟩
  have hdisjoint : applied.Pairwise fun a b => List.Disjoint a.positions b.positions := by
    refine (List.pairwise_map.1 heffect.distinct).imp ?_
    intro a b hne entry ha hb
    exact hne ((mem_positions ha).symm.trans (mem_positions hb))
  constructor
  case executed => rw [heffect.executed, h.executed, List.append_assoc]
  case once =>
    refine List.nodup_append.2 ⟨h.once, List.nodup_flatMap.2
      ⟨fun changeset _ => nodup_positions changeset, hdisjoint⟩, ?_⟩
    -- an older entry has a version of the history, a new one has not
    rintro entry hold _ hentry rfl
    rcases hnew entry hentry with ⟨changeset, hmem, hversion⟩
    exact heffect.fresh changeset hmem (hversion ▸ h.recorded entry hold)
  case fresh =>
    intro entry hentry
    rcases List.mem_append.1 hentry with hold | hentry
    · exact h.fresh entry hold
    · rcases hnew entry hentry with ⟨changeset, hmem, hversion⟩
      rw [hversion]
      exact fun hstart => heffect.fresh changeset hmem (h.kept hstart)
  case recorded =>
    intro entry hentry
    rw [hversions]
    rcases List.mem_append.1 hentry with hold | hentry
    · exact List.mem_append_left _ (h.recorded entry hold)
    · rcases hnew entry hentry with ⟨changeset, hmem, hversion⟩
      exact List.mem_append_right _ (List.mem_map.2 ⟨changeset, hmem, hversion.symm⟩)
  case kept =>
    rw [hversions]
    exact List.subset_append_of_subset_left _ h.kept

theorem executedOnce_run (maxConnections : Nat) {start : Database δ} {added : List (Int × Nat)}
    (honce : ExecutedOnce start db added) (script : Script MigrationError) :
    ∃ added', ExecutedOnce start (migrate maxConnections ctx changesets script db).state added' := by
  have himplements : Implements (migrate maxConnections ctx changesets) _ _ :=
    implements_migrate maxConnections ctx changesets
  rcases tookEffect_of_interrupted (himplements.reaches script db) with ⟨_, -, heffect⟩
  exact ⟨_, honce.step heffect⟩

theorem again_after_returned {maxConnections : Nat} {script : Script MigrationError}
    {report : List MigrationStepReport}
    (horder : assertChangelogOrder Changeset.version changesets = .ok ())
    (hreturned : (migrate maxConnections ctx changesets script db).ending = .returned report) :
    let program := migrate maxConnections ctx changesets
    let last := (program script db).state
    (program [] last).ending = .returned (changesets.map (settledReport ctx)) ∧
      ∀ again, (program again last).state = last ∧
        ∀ report', (program again last).ending = .returned report' →
          report' = changesets.map (settledReport ctx) := by
  intro program last
  have himplements : Implements program (migrateAtOnce maxConnections ctx changesets)
      (Interrupted ctx changesets) := implements_migrate maxConnections ctx changesets
  rcases migrateAtOnce_eq_ok.1 (himplements.returned hreturned) with ⟨-, hpool, hsettled⟩
  rcases settle_again hsettled with ⟨-, -, hagain⟩
  have hagain' := migrateAtOnce_eq_ok.2 ⟨horder, hpool, hagain⟩
  refine ⟨congrArg Ended.ending (himplements.run_of_ok hagain'), ?_⟩
  intro again
  refine ⟨eq_of_interrupted hsettled (himplements.reaches again last), ?_⟩
  intro report' hreturned'
  have hsame := himplements.returned hreturned'
  rw [hagain'] at hsame
  exact (Prod.mk.inj (Except.ok.inj hsame)).1.symm

/-- What the first run to return leaves is what one undisturbed run leaves: a run of the whole
specification from an interrupted state can be taken back to the state the interruption found. -/
theorem single_run_of_returned {maxConnections : Nat} {start : Database δ}
    {scripts : List (Script MigrationError)} {script : Script MigrationError}
    {report : List MigrationStepReport}
    (horder : assertChangelogOrder Changeset.version changesets = .ok ())
    (hreturned : (migrate maxConnections ctx changesets script
      ((migrate maxConnections ctx changesets).afterRuns scripts start)).ending =
        .returned report) :
    let program := migrate maxConnections ctx changesets
    ∃ single, program [] start =
      ⟨.returned single, (program script (program.afterRuns scripts start)).state, []⟩ := by
  intro program
  have himplements : Implements program (migrateAtOnce maxConnections ctx changesets)
      (Interrupted ctx changesets) := implements_migrate maxConnections ctx changesets
  have hsingle := himplements.state_of_returned (s := start) ?_ scripts hreturned
  · rcases hsingle with ⟨single, hsingle⟩
    exact ⟨single, himplements.run_of_ok hsingle⟩
  · rintro db db' last hinterrupted ⟨reports, hlast⟩
    rcases migrateAtOnce_eq_ok.1 hlast with ⟨-, hpool, hlast⟩
    rcases settle_of_interrupted hinterrupted ⟨reports, hlast⟩ with ⟨reports', hfirst⟩
    exact ⟨reports', migrateAtOnce_eq_ok.2 ⟨horder, hpool, hfirst⟩⟩

/-- No run returns over an edited changeset; where the changesets before it go through, the run
ends in the mismatch. -/
theorem mismatch_of_edited {maxConnections : Nat} {before after : List (Changeset δ)}
    (horder : assertChangelogOrder Changeset.version (before ++ changeset :: after) = .ok ())
    (hedited : Edited ctx changeset row db) :
    let program := migrate maxConnections ctx (before ++ changeset :: after)
    (∀ script report, (program script db).ending ≠ .returned report) ∧
      ∀ report, (migrate maxConnections ctx before [] db).ending = .returned report →
        (program [] db).ending =
          .raised (.checksumMismatch changeset.version row.checksum changeset.checksum) := by
  intro program
  have himplements : Implements program (migrateAtOnce maxConnections ctx _)
      (Interrupted ctx (before ++ changeset :: after)) := implements_migrate maxConnections ctx _
  refine ⟨?_, ?_⟩
  · intro script report hreturned
    have hsettle := (migrateAtOnce_eq_ok.1 (himplements.returned hreturned)).2.2
    exact mapM'_append_edited hedited.prepared hsettle
  · intro report hbefore
    have hrun := (implements_migrate maxConnections ctx before).returned hbefore
    rcases migrateAtOnce_eq_ok.1 hrun with ⟨-, hpool, hsettle⟩
    have hfails : migrateAtOnce maxConnections ctx (before ++ changeset :: after) db =
        .error (.checksumMismatch changeset.version row.checksum changeset.checksum) := by
      -- The order and the pool are checked before anything is run.
      rw [migrateAtOnce, Implements.lift_bind_apply, horder]
      show (if maxConnections < 2 then _ else settle ctx _) db = _
      rw [if_neg hpool]
      exact settle_edited hedited hsettle
    rw [(himplements.undisturbed db).1, hfails]
    rfl

/-- Whatever stops the runs of a changelog, and wherever: each run moves the history by the
changesets whose statements it put in the database, no statement is executed twice, and the first
run to return leaves what a single run would have left, after which there is nothing to do. -/
theorem migrations_resumable (maxConnections : Nat) (ctx : MigrationContext)
    {changesets : List (Changeset δ)}
    (horder : assertChangelogOrder Changeset.version changesets = .ok ()) (start : Database δ)
    (scripts : List (Script MigrationError)) (script : Script MigrationError) :
    let program := migrate maxConnections ctx changesets
    let reached := program.afterRuns scripts start
    let run := program script reached
    (∃ applied : List (Changeset δ), applied.Sublist changesets ∧
      TookEffect ctx applied reached run.state) ∧
    (∃ added, ExecutedOnce start run.state added) ∧
    (∀ report, run.ending = .returned report →
      (∃ single, program [] start = ⟨.returned single, run.state, []⟩) ∧
      (program [] run.state).ending = .returned (changesets.map (settledReport ctx)) ∧
      ∀ again, (program again run.state).state = run.state ∧
        ∀ report', (program again run.state).ending = .returned report' →
          report' = changesets.map (settledReport ctx)) ∧
    ∀ before changeset after row, changesets = before ++ changeset :: after →
      Edited ctx changeset row reached →
        (∀ report, run.ending ≠ .returned report) ∧
        (∃ applied : List (Changeset δ), applied.Sublist before ∧
          TookEffect ctx applied reached run.state) ∧
        ∀ report, (migrate maxConnections ctx before [] reached).ending = .returned report →
          (program [] reached).ending =
            .raised (.checksumMismatch changeset.version row.checksum changeset.checksum) := by
  intro program reached run
  have hstop : Interrupted ctx changesets reached run.state :=
    (implements_migrate maxConnections ctx changesets).reaches script reached
  refine ⟨tookEffect_of_interrupted hstop, ?_, ?_, ?_⟩
  -- Executed at most once is kept by every run, and so by any number of them.
  · have hstep : ∀ script db, (∃ added, ExecutedOnce start db added) →
        ∃ added, ExecutedOnce start (program script db).state added := by
      rintro script db ⟨added, honce⟩
      exact executedOnce_run maxConnections honce script
    have hreached : ∃ added, ExecutedOnce start reached added :=
      Prog.afterRuns_induction hstep scripts ⟨[], executedOnce_refl start⟩
    exact hstep script reached hreached
  · intro report hreturned
    exact ⟨single_run_of_returned horder hreturned, again_after_returned horder hreturned⟩
  · rintro before changeset after row rfl hedited
    rcases mismatch_of_edited horder hedited with ⟨hnever, hmismatch⟩
    exact ⟨hnever script,
      tookEffect_of_interrupted (interrupted_before_edited hedited hstop), hmismatch⟩

end Steps

/-- A changeset that writes down what it ran. -/
def journalChangeset (version : Int) (notes : List String) : Changeset (List String) :=
  { version := version
    name := "journal"
    contexts := []
    checksum := "sha256:journal"
    build := .ok (notes.map fun note =>
      { text := note
        run := fun _ journal => .ok (journal ++ [note]) })
    dryRunPreview := .ok ""
    estimateReplayCount := fun _ => .ok none }

def journalChangelog : List (Changeset (List String)) :=
  [journalChangeset 1 ["one"], journalChangeset 2 ["two", "three"]]

def emptyJournal : Database (List String) :=
  { schema := false
    history := none
    ingestFailures := false
    data := []
    executed := [] }

/-- The lock, the bootstrap and the first changeset take eleven calls; the crash follows the last of
them, a commit whose answer never arrives. -/
def crashAfterCommit : Script MigrationError :=
  List.replicate 10 none ++ [some (.after none)]

theorem migrations_resumable_after_commit :
    let program := migrate 2 ⟨[], "deploy"⟩ journalChangelog
    let reached := (program crashAfterCommit emptyJournal).state
    (program crashAfterCommit emptyJournal).ending = .crashed ∧ reached.data = ["one"] ∧
      (program [] reached).state.executed = [(1, 0), (2, 0), (2, 1)] ∧
      ∃ single, program [] emptyJournal = ⟨.returned single, (program [] reached).state, []⟩ := by
  intro program reached
  have hreturned : (program [] reached).ending = .returned
      [(journalChangeset 1 ["one"]).report .skippedAlreadyApplied,
        (journalChangeset 2 ["two", "three"]).report .applied] := rfl
  have hresumable := migrations_resumable 2 ⟨[], "deploy"⟩
    (show assertChangelogOrder Changeset.version journalChangelog = .ok () from rfl)
    emptyJournal [crashAfterCommit] []
  exact ⟨rfl, rfl, rfl, (hresumable.2.2.1 _ hreturned).1⟩

end Migration
end Kafkaman
