import Kafkaman.Migration.Generated
import Kafkaman.Received.DeadLetters

/-!
# Migration.Shipped — the changesets the crate comes with, on a catalog of tables

What the statements of the shipped changesets do to the tables of a schema: a creation adds a table
where there is none, the outbox upgrade rewrites an outbox, a replay redrives a received table.
Everything else a statement may touch or fail on — indexes, sequences, constraints — is left to the
deployment.

* `Catalog`, `Deployment` — the tables, and what is not decided here;
* `ShippedChangeset.toChangeset` — each kind as the runner sees it;
* `KeepsReceived` — what stands under a received table's name stays what it is;
* `keepsReceived_statement` — no statement of a shipped changeset breaks this.
-/

namespace Kafkaman

/-- `ReceivedFailureKind::discriminant`. -/
def ReceivedFailureKind.discriminant : ReceivedFailureKind → String
  | .missingHandler => "MissingHandler"
  | .invalidPayload => "InvalidPayload"
  | .infrastructure => "Infrastructure"
  | .handler => "Handler"

namespace Migration

open Lib Schema Received

/-! ## Tables -/

/-- What stands under a table's name: a received table with its rows, or something else. -/
inductive Contents (κ : Type)
  | received (table : Received.ReceivedTable)
  | foreign (content : κ)

def Contents.isReceived {κ : Type} : Contents κ → Bool
  | .received _ => true
  | .foreign _ => false

/-- The schema of a deployment, by table name, and everything else in the database. -/
structure Catalog (κ τ : Type) where
  relations : String → Option (Contents κ)
  other : τ

def Catalog.put {κ τ : Type} (catalog : Catalog κ τ) (name : String) (contents : Contents κ) :
    Catalog κ τ :=
  { catalog with
    relations := fun other => if other = name then some contents else catalog.relations other }

/-- The statements of `schema_sql` that the changesets emit. -/
inductive DdlStatement
  | createTable (kind : TableKind)
  | createIndex (kind : TableKind) (suffix : String)
  | addOutboxEnqueueOrder
  deriving DecidableEq

/-- A configuration, and what the database does outside the tables modelled here. -/
structure Deployment (κ τ : Type) where
  schema : SqlIdentifier
  sha256 : Sha256
  literals : TimestampLiterals
  /-- `OffsetDateTime::to_string`. -/
  displayInstant : Instant → String
  ddlText : DdlStatement → Relation → String
  replayText : Relation → ReplaySpec → String
  /-- What becomes of everything else, or why the statement fails. -/
  ddl : DdlStatement → Relation → Catalog κ τ → Except MigrationError τ
  /-- A new outbox or cache. -/
  emptyTable : TableKind → κ
  /-- What the upgrade makes of an outbox. -/
  enqueueOrder : Contents κ → Contents κ

/-- An error of the received tables' queries; a replay has no filter of a request to reject. -/
def queryError : QueryError → MigrationError
  | .invalidReplay version message => .invalidReplay version message
  | .invalidReceivedFilter message | .sqlx message => .sqlx message

section Statements

variable {κ τ : Type} (deployment : Deployment κ τ)

def Deployment.newTable : TableKind → Contents κ
  | .received => .received Received.ReceivedTable.empty
  | kind => .foreign (deployment.emptyTable kind)

/-- The tables after a statement that does not fail. -/
def Deployment.execute (statement : DdlStatement) (relation : Relation) (catalog : Catalog κ τ) :
    Except MigrationError (Catalog κ τ) := do
  let other ← deployment.ddl statement relation catalog
  let name := relation.table.value
  match statement, catalog.relations name with
  | .createTable kind, none => pure { catalog.put name (deployment.newTable kind) with other := other }
  | .addOutboxEnqueueOrder, none => .error (.sqlx ("relation " ++ name ++ " does not exist"))
  | .addOutboxEnqueueOrder, some contents =>
      pure { catalog.put name (deployment.enqueueOrder contents) with other := other }
  | _, _ => pure { catalog with other := other }

/-- The received table a replay's statement names. -/
def Catalog.received (catalog : Catalog κ τ) (relation : Relation) :
    Except MigrationError Received.ReceivedTable :=
  match catalog.relations relation.table.value with
  | some (.received table) => .ok table
  | some (.foreign _) => .error (.sqlx "column status does not exist")
  | none => .error (.sqlx ("relation " ++ relation.table.value ++ " does not exist"))

def Deployment.ddlStatement (statement : DdlStatement) (relation : Relation) :
    Statement (Catalog κ τ) :=
  { text := deployment.ddlText statement relation
    run := fun _ catalog => deployment.execute statement relation catalog }

/-- The statement of `replay_received_update_sql`. -/
def Deployment.replayStatement (spec : ReplaySpec) (relation : Relation) :
    Statement (Catalog κ τ) :=
  { text := deployment.replayText relation spec
    run := fun _ catalog => do
      let table ← catalog.received relation
      let (table, _) ← (redriveReceived deployment.literals spec table).mapError queryError
      pure (catalog.put relation.table.value (.received table)) }

/-! ## Changesets -/

/-- A `Replay` with the message type and the contexts it is for. -/
structure ReplayChangeset where
  spec : ReplaySpec
  descriptor : MessageDescriptor
  contexts : List String

inductive ShippedChangeset
  | schema (changeset : SchemaChangeset)
  | replay (changeset : ReplayChangeset)

/-- The statements of a changeset that targets one message type's tables. -/
def Deployment.onTable (kind : TableKind) (descriptor : MessageDescriptor)
    (statements : List DdlStatement) : Except MigrationError (List (Statement (Catalog κ τ))) := do
  let relation ← (kind.relation deployment.schema descriptor).mapError .core
  pure (statements.map fun statement => deployment.ddlStatement statement relation)

/-- `Changeset::build` of the schema changesets. -/
def Deployment.buildSchema : SchemaChangeset → Except MigrationError (List (Statement (Catalog κ τ)))
  | .initSchema => .ok []
  | .createOutboxTable _ descriptor =>
      deployment.onTable .outbox descriptor
        [.createTable .outbox, .createIndex .outbox "_state", .createIndex .outbox "_entity_state",
          .createIndex .outbox "_retention"]
  | .addOutboxEnqueueOrder _ descriptor =>
      deployment.onTable .outbox descriptor [.addOutboxEnqueueOrder]
  | .createReceivedTable _ descriptor =>
      deployment.onTable .received descriptor
        [.createTable .received, .createIndex .received "_idempotency",
          .createIndex .received "_state", .createIndex .received "_failed"]
  | .createCacheTable _ descriptor =>
      deployment.onTable .cache descriptor [.createTable .cache]

def SchemaChangeset.checksumMaterial (changeset : SchemaChangeset) : String :=
  let identity := "version=" ++ toString changeset.version ++ ";name=" ++ changeset.name
  match changeset with
  | .initSchema => identity
  | .createOutboxTable _ descriptor | .addOutboxEnqueueOrder _ descriptor
  | .createReceivedTable _ descriptor | .createCacheTable _ descriptor =>
      identity ++ ";message_type=" ++ descriptor.messageType ++ ";topic=" ++ descriptor.topic

/-- `Replay::checksum_material`. -/
def Deployment.replayMaterial (changeset : ReplayChangeset) : String :=
  let spec := changeset.spec
  let occurredAfter :=
    match spec.occurredAfter with
    | none => "none"
    | some instant =>
        match deployment.literals.format instant with
        | .ok text => text
        -- A year that RFC 3339 cannot write does not fail the checksum.
        | .error _ => deployment.displayInstant instant
  "version=" ++ toString spec.version ++ ";name=replay_received" ++
    ";message_type=" ++ changeset.descriptor.messageType ++
    ";topic=" ++ changeset.descriptor.topic ++
    ";occurred_after=" ++ occurredAfter ++
    ";max_rows=" ++ ((spec.maxRows.map toString).getD "none") ++
    ";contexts=" ++ ",".intercalate changeset.contexts ++
    ";failure_kind=" ++ ((spec.failureKind.map ReceivedFailureKind.discriminant).getD "none") ++
    ";clear_history=" ++ toString spec.clearHistory

/-- `Replay::build`: the statement is only written down here, so its literal is not read yet. -/
def Deployment.buildReplay (changeset : ReplayChangeset) :
    Except MigrationError (List (Statement (Catalog κ τ))) := do
  let relation ← (ReceivedTable.new deployment.schema changeset.descriptor).mapError .core
  let _ ← changeset.spec.maxRowsOrError.mapError queryError
  let _ ← (changeset.spec.filter deployment.literals).mapError queryError
  pure [deployment.replayStatement changeset.spec relation]

/-- `Replay::estimate_replay_count`. -/
def Deployment.estimateReplay (changeset : ReplayChangeset) (catalog : Catalog κ τ) :
    Except MigrationError (Option Nat) := do
  let relation ← (ReceivedTable.new deployment.schema changeset.descriptor).mapError .core
  let _ ← changeset.spec.maxRowsOrError.mapError queryError
  let _ ← (changeset.spec.filter deployment.literals).mapError queryError
  let table ← catalog.received relation
  let count ← (estimateReplayCount deployment.literals changeset.spec table).mapError queryError
  pure (some count)

/-- A shipped changeset as the runner sees it. -/
def ShippedChangeset.toChangeset : ShippedChangeset → Changeset (Catalog κ τ)
  | .schema changeset =>
      { version := changeset.version
        name := changeset.name
        contexts := []
        checksum := stableChecksum deployment.sha256 changeset.checksumMaterial
        build := deployment.buildSchema changeset
        dryRunPreview := (deployment.buildSchema changeset).map fun statements =>
          "\n".intercalate (statements.map Statement.text)
        estimateReplayCount := fun _ => .ok none }
  | .replay changeset =>
      { version := changeset.spec.version
        name := "replay_received"
        contexts := changeset.contexts
        checksum := stableChecksum deployment.sha256 (deployment.replayMaterial changeset)
        build := deployment.buildReplay changeset
        dryRunPreview := do
          let relation ← (ReceivedTable.new deployment.schema changeset.descriptor).mapError .core
          pure ("would requeue ~N received rows in " ++ relation.qualifiedName)
        estimateReplayCount := deployment.estimateReplay changeset }

/-! ## What stands under a received table's name -/

/-- What stands under the name of a received table stays there, and stays what it is. -/
def KeepsReceived (before after : Catalog κ τ) : Prop :=
  ∀ messageType contents, before.relations ("received_" ++ messageType) = some contents →
    ∃ contents', after.relations ("received_" ++ messageType) = some contents' ∧
      contents'.isReceived = contents.isReceived

theorem KeepsReceived.refl (catalog : Catalog κ τ) : KeepsReceived catalog catalog := by
  intro messageType contents h
  exact ⟨contents, h, rfl⟩

theorem KeepsReceived.trans {first second third : Catalog κ τ} (h : KeepsReceived first second)
    (h' : KeepsReceived second third) : KeepsReceived first third := by
  intro messageType contents hfirst
  rcases h messageType contents hfirst with ⟨contents', hsecond, hshape⟩
  rcases h' messageType contents' hsecond with ⟨contents'', hthird, hshape'⟩
  exact ⟨contents'', hthird, hshape'.trans hshape⟩

theorem keepsReceived_put {catalog : Catalog κ τ} {name : String} {contents : Contents κ} {other : τ}
    (h : ∀ messageType old, name = "received_" ++ messageType → catalog.relations name = some old →
      contents.isReceived = old.isReceived) :
    KeepsReceived catalog { catalog.put name contents with other := other } := by
  intro messageType old hold
  by_cases hname : "received_" ++ messageType = name
  · exact ⟨contents, by simp [Catalog.put, hname], h messageType old hname.symm (hname ▸ hold)⟩
  · exact ⟨old, by simp [Catalog.put, hname, hold], rfl⟩

variable {deployment}

theorem keepsReceived_execute {statement : DdlStatement} {relation : Relation}
    {catalog catalog' : Catalog κ τ}
    (houtbox : statement = .addOutboxEnqueueOrder →
      ∀ messageType, relation.table.value ≠ "received_" ++ messageType)
    (h : deployment.execute statement relation catalog = .ok catalog') :
    KeepsReceived catalog catalog' := by
  rcases bind_eq_ok.1 h with ⟨other, -, hrest⟩
  cases hfound : catalog.relations relation.table.value with
  | none =>
      cases statement with
      | createTable kind =>
          simp only [hfound, pure_eq_ok] at hrest
          subst hrest
          refine keepsReceived_put fun messageType old _ hold => ?_
          rw [hfound] at hold
          cases hold
      | createIndex kind suffix =>
          simp only [pure_eq_ok] at hrest
          subst hrest
          exact KeepsReceived.refl catalog
      | addOutboxEnqueueOrder =>
          simp [hfound] at hrest
  | some contents =>
      cases statement with
      | createTable kind | createIndex kind suffix =>
          simp only [hfound, pure_eq_ok] at hrest
          subst hrest
          exact KeepsReceived.refl catalog
      | addOutboxEnqueueOrder =>
          simp only [hfound, pure_eq_ok] at hrest
          subst hrest
          -- The column goes to an outbox table, whose name no received table has.
          exact keepsReceived_put fun messageType _ hname _ => absurd hname (houtbox rfl messageType)

theorem received_eq_ok {relation : Relation} {catalog : Catalog κ τ}
    {table : Received.ReceivedTable} :
    catalog.received relation = .ok table ↔
      catalog.relations relation.table.value = some (.received table) := by
  rcases hfound : catalog.relations relation.table.value with _ | ⟨_ | _⟩ <;>
    simp [Catalog.received, hfound]

theorem buildReplay_ok {changeset : ReplayChangeset} {statements : List (Statement (Catalog κ τ))}
    (h : deployment.buildReplay changeset = .ok statements) :
    ∃ relation, ReceivedTable.new deployment.schema changeset.descriptor = .ok relation ∧
      statements = [deployment.replayStatement changeset.spec relation] := by
  rcases bind_eq_ok.1 h with ⟨relation, hrelation, hrest⟩
  rcases bind_eq_ok.1 hrest with ⟨_, -, hrest'⟩
  rcases bind_eq_ok.1 hrest' with ⟨_, -, hlast⟩
  exact ⟨relation, mapError_eq_ok.1 hrelation, (pure_eq_ok.1 hlast).symm⟩

theorem replayStatement_ok {spec : ReplaySpec} {relation : Relation} {rows : List HistoryRow}
    {catalog catalog' : Catalog κ τ}
    (h : (deployment.replayStatement spec relation).run rows catalog = .ok catalog') :
    ∃ table table', catalog.relations relation.table.value = some (.received table) ∧
      (∃ replay, spec.resolve deployment.literals = .ok replay) ∧
      catalog' = catalog.put relation.table.value (.received table') := by
  rcases bind_eq_ok.1 h with ⟨table, hfound, hrest⟩
  rcases bind_eq_ok.1 hrest with ⟨⟨table', _⟩, hredrive, hlast⟩
  rcases bind_eq_ok.1 (mapError_eq_ok.1 hredrive) with ⟨replay, hresolve, -⟩
  exact ⟨table, table', received_eq_ok.1 hfound, ⟨replay, hresolve⟩, (pure_eq_ok.1 hlast).symm⟩

theorem estimateReplay_ok {changeset : ReplayChangeset} {relation : Relation} {replay : Replay}
    {catalog : Catalog κ τ}
    (hrelation : ReceivedTable.new deployment.schema changeset.descriptor = .ok relation)
    (hresolve : changeset.spec.resolve deployment.literals = .ok replay) :
    (∃ count, deployment.estimateReplay changeset catalog = .ok count) ↔
      ∃ table, catalog.relations relation.table.value = some (.received table) := by
  constructor
  · rintro ⟨count, hcount⟩
    rcases bind_eq_ok.1 hcount with ⟨relation', hrelation', hrest⟩
    rw [hrelation] at hrelation'
    cases mapError_eq_ok.1 hrelation'
    rcases bind_eq_ok.1 hrest with ⟨_, -, hrest'⟩
    rcases bind_eq_ok.1 hrest' with ⟨_, -, hlast⟩
    rcases bind_eq_ok.1 hlast with ⟨table, hfound, -⟩
    exact ⟨table, received_eq_ok.1 hfound⟩
  · rintro ⟨table, hfound⟩
    -- What the build reads before the estimate is part of resolving the bounds.
    rcases bind_eq_ok.1 hresolve with ⟨maxRows, hmax, hrest⟩
    rcases bind_eq_ok.1 hrest with ⟨sql, hsql, -⟩
    obtain ⟨count, hcount⟩ :
        ∃ count, estimateReplayCount deployment.literals changeset.spec table = .ok count :=
      ⟨_, bind_eq_ok.2 ⟨replay, hresolve, rfl⟩⟩
    refine ⟨some count, bind_eq_ok.2 ⟨relation, mapError_eq_ok.2 hrelation, ?_⟩⟩
    refine bind_eq_ok.2 ⟨maxRows, mapError_eq_ok.2 hmax, ?_⟩
    refine bind_eq_ok.2 ⟨sql, mapError_eq_ok.2 hsql, ?_⟩
    refine bind_eq_ok.2 ⟨table, received_eq_ok.2 hfound, ?_⟩
    exact bind_eq_ok.2 ⟨count, mapError_eq_ok.2 hcount, rfl⟩

theorem outbox_ne_received (messageType messageType' : String) :
    "outbox_" ++ messageType ≠ "received_" ++ messageType' := by
  intro h
  have hchars := congrArg String.toList h
  simp at hchars

theorem mem_onTable {kind : TableKind} {descriptor : MessageDescriptor}
    {ddls : List DdlStatement} {statements : List (Statement (Catalog κ τ))}
    {statement : Statement (Catalog κ τ)}
    (h : deployment.onTable kind descriptor ddls = .ok statements) (hmem : statement ∈ statements) :
    ∃ relation ddl, kind.relation deployment.schema descriptor = .ok relation ∧ ddl ∈ ddls ∧
      statement = deployment.ddlStatement ddl relation := by
  rcases bind_eq_ok.1 h with ⟨relation, hrelation, hstatements⟩
  cases pure_eq_ok.1 hstatements
  rcases List.mem_map.1 hmem with ⟨ddl, hddl, rfl⟩
  exact ⟨relation, ddl, mapError_eq_ok.1 hrelation, hddl, rfl⟩

theorem keepsReceived_onTable {kind : TableKind} {descriptor : MessageDescriptor}
    {ddls : List DdlStatement} (houtbox : .addOutboxEnqueueOrder ∈ ddls → kind = .outbox)
    {statements : List (Statement (Catalog κ τ))} {statement : Statement (Catalog κ τ)}
    (h : deployment.onTable kind descriptor ddls = .ok statements) (hmem : statement ∈ statements)
    {rows : List HistoryRow} {catalog catalog' : Catalog κ τ}
    (hrun : statement.run rows catalog = .ok catalog') : KeepsReceived catalog catalog' := by
  rcases mem_onTable h hmem with ⟨relation, ddl, hrelation, hddl, rfl⟩
  refine keepsReceived_execute ?_ hrun
  rintro rfl messageType
  cases houtbox hddl
  rcases Relation.new_eq_ok.1 hrelation with ⟨-, -, rfl⟩
  exact outbox_ne_received _ _

/-- No statement of a shipped changeset drops a received table or makes one of another table. -/
theorem keepsReceived_statement {shipped : ShippedChangeset}
    {statements : List (Statement (Catalog κ τ))} {statement : Statement (Catalog κ τ)}
    (hbuild : (shipped.toChangeset deployment).build = .ok statements) (hmem : statement ∈ statements)
    {rows : List HistoryRow} {catalog catalog' : Catalog κ τ}
    (hrun : statement.run rows catalog = .ok catalog') : KeepsReceived catalog catalog' := by
  cases shipped with
  | schema changeset =>
      cases changeset with
      | initSchema =>
          cases hbuild
          cases hmem
      | createOutboxTable version descriptor =>
          exact keepsReceived_onTable (by simp) hbuild hmem hrun
      | addOutboxEnqueueOrder version descriptor =>
          exact keepsReceived_onTable (fun _ => rfl) hbuild hmem hrun
      | createReceivedTable version descriptor =>
          exact keepsReceived_onTable (by simp) hbuild hmem hrun
      | createCacheTable version descriptor =>
          exact keepsReceived_onTable (by simp) hbuild hmem hrun
  | replay changeset =>
      rcases buildReplay_ok hbuild with ⟨relation, -, rfl⟩
      cases List.mem_singleton.1 hmem
      rcases replayStatement_ok hrun with ⟨table, table', hfound, -, rfl⟩
      -- A replay puts back the table it found, with other rows.
      refine keepsReceived_put fun _ old _ hold => ?_
      rw [hfound] at hold
      cases hold
      rfl

end Statements

end Migration
end Kafkaman
