import Kafkaman.Core.Identifier
import Kafkaman.Lib.Fallible
import Mathlib.Data.List.Basic
import Mathlib.Order.Basic

/-!
# Migration.Changeset — versioned units of schema change, and the order of a changelog

A changeset is anything with a version, a name, a checksum, the contexts it needs and statements to
run; the runner sees no more of it.  Statements read the whole database and write the part of it
that is not the runner's own bookkeeping.

* `Changeset`, `MigrationContext`, `MigrationStepReport` — what the runner works with;
* `stableChecksum` — the digest stored beside a version, over an arbitrary SHA-256;
* `assertChangelogOrder` — the check every run starts with;
* `assertChangelogOrder_eq_ok` — it accepts exactly the strictly ascending changelogs.
-/

namespace Kafkaman
namespace Migration

open Lib
open Lib.Utf8 (textBytes)

/-- The errors of `kafkaman_sqlx` that migrating can raise. -/
inductive MigrationError
  | sqlx (text : String)
  | core (error : CoreError)
  | duplicateChangesetVersion (version : Int)
  | disorderedChangesetVersion (previous next : Int)
  | checksumMismatch (version : Int) (stored current : String)
  | invalidReplay (version : Int) (message : String)
  | migrationLockBusy
  | migrationPoolTooSmall (maxConnections : Nat)
  | changesetBandCollision (band : Int) (first second : String)
  deriving DecidableEq

/-! ## Digests -/

/-- SHA-256, as far as anything here depends on it: a function to 32 bytes. -/
abbrev Sha256 :=
  List UInt8 → Vector UInt8 32

/-- `stable_checksum`. -/
def stableChecksum (sha256 : Sha256) (material : String) : String :=
  "sha256:" ++ String.ofList ((sha256 (textBytes "changeset:" ++ textBytes material)).toList.flatMap
    IdempotencyKey.encodeHexByte)

/-! ## Changesets and what a run says about them -/

/-- A row of `changelog_history`, without its timestamp. -/
structure HistoryRow where
  version : Int
  name : String
  checksum : String
  appliedBy : String
  deriving DecidableEq

/-- A statement of a changeset; `δ` is everything but the runner's bookkeeping. -/
structure Statement (δ : Type) where
  text : String
  run : List HistoryRow → δ → Except MigrationError δ

/-- `dyn Changeset`, for one configuration. -/
structure Changeset (δ : Type) where
  version : Int
  name : String
  contexts : List String
  checksum : String
  build : Except MigrationError (List (Statement δ))
  dryRunPreview : Except MigrationError String
  estimateReplayCount : δ → Except MigrationError (Option Nat)

structure MigrationContext where
  contexts : List String
  appliedBy : String

/-- Whether this context runs a changeset that requires one of `required`. -/
def MigrationContext.matches (ctx : MigrationContext) (required : List String) : Bool :=
  required.isEmpty || required.any fun context => ctx.contexts.contains context

inductive MigrationAction
  | applied
  | skippedAlreadyApplied
  | skippedContext
  | wouldApply
  | checksumMismatch (stored current : String)
  deriving DecidableEq

structure MigrationStepReport where
  version : Int
  name : String
  action : MigrationAction
  preview : Option String
  deriving DecidableEq

section Reports

variable {δ : Type}

/-- `MigrationStepReport::new`. -/
def Changeset.report (changeset : Changeset δ) (action : MigrationAction) : MigrationStepReport :=
  { version := changeset.version
    name := changeset.name
    action := action
    preview := none }

/-- `MigrationStepReport::context_skip`. -/
def contextSkip (changeset : Changeset δ) (ctx : MigrationContext) : Option MigrationStepReport :=
  if ctx.matches changeset.contexts then none
  else some
    { changeset.report .skippedContext with
      preview := some ("requires one of contexts: " ++ ",".intercalate changeset.contexts) }

end Reports

/-! ## The order of a changelog -/

section Order

variable {C : Type} (version : C → Int)

/-- The loop of `assert_changelog_order`. -/
def assertAscending (versions : List Int) (previous : Option Int) :
    List C → Except MigrationError Unit
  | [] => .ok ()
  | changeset :: rest =>
      if version changeset ∈ versions then
        .error (.duplicateChangesetVersion (version changeset))
      else
        match previous with
        | some last =>
            if version changeset ≤ last then
              .error (.disorderedChangesetVersion last (version changeset))
            else
              assertAscending (version changeset :: versions) (some (version changeset)) rest
        | none => assertAscending (version changeset :: versions) (some (version changeset)) rest

def assertChangelogOrder (changesets : List C) : Except MigrationError Unit :=
  assertAscending version [] none changesets

variable {version}

/-- Behind a last version that is the greatest so far, the loop accepts what goes on ascending. -/
theorem assertAscending_eq_ok {last : Int} :
    ∀ {changesets : List C} {versions : List Int}, (∀ v ∈ versions, v ≤ last) →
      (assertAscending version versions (some last) changesets = .ok () ↔
        (last :: changesets.map version).Pairwise (· < ·)) := by
  intro changesets
  induction changesets generalizing last with
  | nil =>
      intro versions _
      simp [assertAscending]
  | cons changeset rest ih =>
      intro versions hversions
      rw [assertAscending, List.map_cons]
      by_cases hmem : version changeset ∈ versions
      · have hle := hversions _ hmem
        simp [hmem, hle.not_gt]
      · rw [if_neg hmem]
        by_cases hle : version changeset ≤ last
        · simp [hle, hle.not_gt]
        · have hlt : last < version changeset := not_le.1 hle
          -- The invariant of the loop: `previous` is the greatest version met so far.
          have hnext : ∀ v ∈ version changeset :: versions, v ≤ version changeset := by
            intro v hv
            rcases List.mem_cons.1 hv with rfl | hv
            · exact le_refl _
            · exact (hversions v hv).trans hlt.le
          simp only [if_neg hle]
          rw [ih hnext, List.pairwise_cons (a := last)]
          constructor
          · intro hrest
            refine ⟨?_, hrest⟩
            intro v hv
            rcases List.mem_cons.1 hv with rfl | hv
            · exact hlt
            · exact hlt.trans ((List.pairwise_cons.1 hrest).1 v hv)
          · exact And.right

/-- A changelog is accepted exactly when its versions ascend strictly. -/
theorem assertChangelogOrder_eq_ok {changesets : List C} :
    assertChangelogOrder version changesets = .ok () ↔
      (changesets.map version).Pairwise (· < ·) := by
  cases changesets with
  | nil =>
      simp [assertChangelogOrder, assertAscending]
  | cons changeset rest =>
      rw [assertChangelogOrder, assertAscending, if_neg (by simp)]
      exact assertAscending_eq_ok (by simp)

end Order

end Migration
end Kafkaman
