import Kafkaman.Core.Rows
import Kafkaman.Lib.Fallible

/-!
# Core.Topics — what an entity topic must look like, and what to do when it does not

`reconcile` compares a message type's declared topic with what a broker reports and decides: the
topic is right, it is to be created, or the boot fails.  Nothing here talks to a broker.

* `TopicSpec`, `ObservedTopic` — the declaration and the report;
* `TopicSpec.check` — a wrong cleanup policy is an error, a differing partition count a drift;
* `reconcile` — the decision, per mode;
* `check_eq_ok_iff`, `reconcile_eq_ok` — what a success says about the report.
-/

namespace Kafkaman

open Lib

inductive CleanupPolicy
  | compact
  | delete
  | compactAndDelete
  | unrecognized (raw : String)
  deriving DecidableEq, Repr

def CleanupPolicy.asBrokerValue : CleanupPolicy → String
  | .compact => "compact"
  | .delete => "delete"
  | .compactAndDelete => "compact,delete"
  | .unrecognized raw => raw

structure TopicSpec where
  cleanupPolicy : CleanupPolicy
  partitions : Option Int32
  replicationFactor : Option Int16
  deriving DecidableEq

/-- `TopicSpec::compacted`, the default. -/
def TopicSpec.compacted : TopicSpec :=
  { cleanupPolicy := .compact
    partitions := none
    replicationFactor := none }

structure ObservedTopic where
  name : String
  cleanupPolicy : CleanupPolicy
  partitions : Int32
  deriving DecidableEq

structure PartitionDrift where
  topic : String
  declared : Int32
  found : Int32
  deriving DecidableEq

/-- The topic variants of `kafkaman_core::Error`. -/
inductive TopicError
  | topicPolicyMismatch (topic expected found : String)
  | topicMissing (topic : String)
  | topicPartitionsUndeclared (topic : String)
  deriving DecidableEq

/-- `TopicSpec::check`. -/
def TopicSpec.check (spec : TopicSpec) (observed : ObservedTopic) :
    Except TopicError (Option PartitionDrift) := do
  if spec.cleanupPolicy ≠ observed.cleanupPolicy then
    throw (.topicPolicyMismatch observed.name spec.cleanupPolicy.asBrokerValue
      observed.cleanupPolicy.asBrokerValue)
  match spec.partitions with
  | some declared =>
      -- A count that differs is reported, never an error.
      if declared ≠ observed.partitions then
        return some
          { topic := observed.name
            declared := declared
            found := observed.partitions }
      else
        return none
  | none => return none

/-- `TopicSpec::partitions_for_create`. -/
def TopicSpec.partitionsForCreate (spec : TopicSpec) (topic : String) : Except TopicError Int32 :=
  match spec.partitions with
  | some partitions => .ok partitions
  | none => .error (.topicPartitionsUndeclared topic)

inductive TopicMode
  | verify
  | create
  | off
  deriving DecidableEq, Repr

inductive TopicAction
  | satisfied
  | create (partitions : Int32) (replicationFactor : Option Int16)
  deriving DecidableEq

structure TopicOutcome where
  action : TopicAction
  drift : Option PartitionDrift
  deriving DecidableEq

def reconcile (topic : String) (spec : TopicSpec) (observed : Option ObservedTopic)
    (mode : TopicMode) : Except TopicError TopicOutcome := do
  if mode = .off then
    return { action := .satisfied, drift := none }
  match observed with
  | none =>
      match mode with
      | .create =>
          let partitions ← spec.partitionsForCreate topic
          return { action := .create partitions spec.replicationFactor, drift := none }
      -- Auto-creation would not compact the topic, so nothing is left to the broker.
      | _ => throw (.topicMissing topic)
  | some observed =>
      -- `create` makes what is missing; it repairs nothing.
      let drift ← spec.check observed
      return { action := .satisfied, drift := drift }

/-! ## What a success says -/

/-- The drift a declaration has with an observed count. -/
def TopicSpec.driftFrom (spec : TopicSpec) (observed : ObservedTopic) : Option PartitionDrift :=
  (spec.partitions.filter (· ≠ observed.partitions)).map fun declared =>
    { topic := observed.name
      declared := declared
      found := observed.partitions }

theorem mem_driftFrom {spec : TopicSpec} {observed : ObservedTopic} {drift : PartitionDrift} :
    drift ∈ spec.driftFrom observed ↔
      ∃ declared, spec.partitions = some declared ∧ declared ≠ observed.partitions ∧
        drift =
          { topic := observed.name
            declared := declared
            found := observed.partitions } := by
  simp only [TopicSpec.driftFrom, Option.mem_def, Option.map_eq_some_iff,
    Option.filter_eq_some_iff, decide_eq_true_eq, and_assoc, eq_comm (a := drift)]

theorem check_eq_ok_iff {spec : TopicSpec} {observed : ObservedTopic}
    {drift : Option PartitionDrift} :
    spec.check observed = .ok drift ↔
      spec.cleanupPolicy = observed.cleanupPolicy ∧ drift = spec.driftFrom observed := by
  by_cases hpolicy : spec.cleanupPolicy = observed.cleanupPolicy
  · cases hpartitions : spec.partitions with
    | none =>
        simp [TopicSpec.check, TopicSpec.driftFrom, hpolicy, hpartitions, pure, Except.pure,
          eq_comm]
    | some declared =>
        by_cases hsame : declared = observed.partitions
        · simp [TopicSpec.check, TopicSpec.driftFrom, hpolicy, hpartitions, hsame, pure,
            Except.pure, Option.filter, eq_comm]
        · simp [TopicSpec.check, TopicSpec.driftFrom, hpolicy, hpartitions, hsame, pure,
            Except.pure, Option.filter, eq_comm]
  · simp [TopicSpec.check, hpolicy, bind, Except.bind, throw, throwThe, MonadExceptOf.throw]

theorem reconcile_of_policy {topic : String} {spec : TopicSpec} {found : ObservedTopic}
    {mode : TopicMode} (hmode : mode ≠ .off) (h : spec.cleanupPolicy = found.cleanupPolicy) :
    reconcile topic spec (some found) mode =
      .ok { action := .satisfied, drift := spec.driftFrom found } := by
  simp only [reconcile, hmode, if_false, check_eq_ok_iff.2 ⟨h, rfl⟩]
  rfl

/-- A reconciliation succeeds on a topic that is right, or asks for one that is missing. -/
theorem reconcile_eq_ok {topic : String} {spec : TopicSpec} {observed : Option ObservedTopic}
    {mode : TopicMode} {outcome : TopicOutcome} (hmode : mode ≠ .off)
    (h : reconcile topic spec observed mode = .ok outcome) :
    (∃ found, observed = some found ∧ spec.cleanupPolicy = found.cleanupPolicy ∧
      outcome = { action := .satisfied, drift := spec.driftFrom found }) ∨
    ∃ partitions, observed = none ∧ mode = .create ∧ spec.partitions = some partitions ∧
      outcome = { action := .create partitions spec.replicationFactor, drift := none } := by
  cases observed with
  | some found =>
      simp only [reconcile, hmode, if_false, bind_eq_ok, pure_eq_ok, check_eq_ok_iff] at h
      rcases h with ⟨_, ⟨hpolicy, rfl⟩, rfl⟩
      exact Or.inl ⟨found, rfl, hpolicy, rfl⟩
  | none =>
      cases mode with
      | off =>
          exact absurd rfl hmode
      | verify =>
          cases h
      | create =>
          cases hpartitions : spec.partitions with
          | none =>
              rw [reconcile, TopicSpec.partitionsForCreate, hpartitions] at h
              cases h
          | some partitions =>
              rw [reconcile, TopicSpec.partitionsForCreate, hpartitions] at h
              cases h
              exact Or.inr ⟨partitions, rfl, rfl, rfl, rfl⟩

end Kafkaman
