import Kafkaman.Config.Duration
import Mathlib.Data.Rat.Defs

/-!
# Config.Retry — the retry section of a configuration

A section gives defaults and, for single message types, overrides of some of their fields.  It is
accepted when the defaults and every merged policy pass `validatePolicy`, which reports all problems
at once; what a type's failures are then scheduled by is `RetryConfig.policyFor`.

* `validatePolicy_eq_nil` — the policies without an issue;
* `valid_policyFor` — every policy an accepted section gives passes its own check;
* `fromText_policyFor` — its durations are ones that a text was parsed to.
-/

namespace Kafkaman
namespace Config

open Lib

/-! ## Policies -/

/-- An `f64`, as far as a check looks at it. -/
inductive F64
  | nan
  | infinity (negative : Bool)
  | finite (value : Rat)
  deriving DecidableEq

namespace F64

def isFinite : F64 → Bool
  | .finite _ => true
  | _ => false

/-- `< 1.0`. -/
def ltOne : F64 → Bool
  | .nan => false
  | .infinity negative => negative
  | .finite value => value < 1

end F64

inductive DlqMode
  | table
  deriving DecidableEq

/-- `RetryPolicy`; its durations are in nanoseconds. -/
structure RetryPolicy where
  maxAttempts : Nat
  initialBackoff : Nat
  maxBackoff : Nat
  multiplier : F64
  errorsLimit : Nat
  dlq : DlqMode
  deriving DecidableEq

def fromSecs (secs : Nat) : Nat :=
  secs * 1000000000

/-- `RetryPolicy::default`. -/
def RetryPolicy.default : RetryPolicy :=
  { maxAttempts := 10
    initialBackoff := fromSecs 1
    maxBackoff := fromSecs 300
    multiplier := .finite 2
    errorsLimit := 20
    dlq := .table }

/-- A per-type override: what is absent is inherited. -/
structure RetryPolicyOverride where
  maxAttempts : Option Nat
  initialBackoff : Option Nat
  maxBackoff : Option Nat
  multiplier : Option F64
  errorsLimit : Option Nat
  dlq : Option DlqMode
  deriving DecidableEq

def RetryPolicyOverride.applyTo (override : RetryPolicyOverride) (base : RetryPolicy) :
    RetryPolicy :=
  { maxAttempts := override.maxAttempts.getD base.maxAttempts
    initialBackoff := override.initialBackoff.getD base.initialBackoff
    maxBackoff := override.maxBackoff.getD base.maxBackoff
    multiplier := override.multiplier.getD base.multiplier
    errorsLimit := override.errorsLimit.getD base.errorsLimit
    dlq := override.dlq.getD base.dlq }

structure RetryConfig where
  defaults : RetryPolicy
  overrides : SortedMap String RetryPolicyOverride

def RetryConfig.policyFor (config : RetryConfig) (messageType : String) : RetryPolicy :=
  match config.overrides.get? messageType with
  | some override => override.applyTo config.defaults
  | none => config.defaults

/-! ## Validation -/

structure ConfigIssue where
  key : String
  message : String
  deriving DecidableEq

/-- An issue, if the field has it. -/
def issueIf (problem : Bool) (key message : String) : List ConfigIssue :=
  if problem then [{ key := key, message := message }] else []

theorem issueIf_eq_nil {problem : Bool} {key message : String} :
    issueIf problem key message = [] ↔ problem = false := by
  cases problem <;> simp [issueIf]

/-- What is wrong with a policy, in the order the fields are checked. -/
def validatePolicy (path : String) (policy : RetryPolicy) : List ConfigIssue :=
  issueIf (policy.maxAttempts = 0) (path ++ ".max_attempts") "must be greater than or equal to 1" ++
  issueIf (policy.initialBackoff = 0) (path ++ ".initial_backoff") "must be greater than zero" ++
  issueIf (policy.initialBackoff > policy.maxBackoff) (path ++ ".initial_backoff")
    "must be less than or equal to max_backoff" ++
  issueIf (!policy.multiplier.isFinite || policy.multiplier.ltOne) (path ++ ".multiplier")
    "must be finite and greater than or equal to 1.0" ++
  issueIf (policy.errorsLimit = 0) (path ++ ".errors_limit") "must be greater than or equal to 1"

/-- The `[retry]` section: defaults and per-type overrides. -/
structure RetrySection where
  defaults : RetryPolicy
  messages : SortedMap String RetryPolicyOverride

/-- What is wrong with one override, merged with the defaults. -/
def RetrySection.issuesOf (retry : RetrySection) (registeredMessages : List String)
    (message : String × RetryPolicyOverride) : List ConfigIssue :=
  issueIf (!registeredMessages.contains message.1) ("retry.messages." ++ message.1)
    "message type is not registered" ++
  validatePolicy ("retry.messages." ++ message.1) (message.2.applyTo retry.defaults)

def RetrySection.resolve (retry : RetrySection) (registeredMessages : List String) :
    Except (List ConfigIssue) RetryConfig :=
  let issues := validatePolicy "retry.defaults" retry.defaults ++
    retry.messages.entries.flatMap (retry.issuesOf registeredMessages)
  let overrides := retry.messages.entries.foldl (fun map entry => map.insert entry.1 entry.2)
    SortedMap.empty
  if issues.isEmpty then .ok { defaults := retry.defaults, overrides := overrides }
  else .error issues

/-! ## Accepted sections -/

/-- What every check of a policy asks for. -/
structure RetryPolicy.Valid (policy : RetryPolicy) : Prop where
  attempts : 1 ≤ policy.maxAttempts
  backoff : 0 < policy.initialBackoff
  ordered : policy.initialBackoff ≤ policy.maxBackoff
  multiplier : policy.multiplier.isFinite = true ∧ policy.multiplier.ltOne = false
  errors : 1 ≤ policy.errorsLimit

theorem validatePolicy_eq_nil {path : String} {policy : RetryPolicy} :
    validatePolicy path policy = [] ↔ policy.Valid := by
  unfold validatePolicy
  simp only [List.append_eq_nil_iff, issueIf_eq_nil, decide_eq_false_iff_not, Bool.or_eq_false_iff,
    Bool.not_eq_false']
  constructor
  · rintro ⟨⟨⟨⟨hattempts, hbackoff⟩, hordered⟩, hmultiplier⟩, herrors⟩
    exact ⟨Nat.pos_of_ne_zero hattempts, Nat.pos_of_ne_zero hbackoff, Nat.le_of_not_lt hordered,
      hmultiplier, Nat.pos_of_ne_zero herrors⟩
  · rintro ⟨hattempts, hbackoff, hordered, hmultiplier, herrors⟩
    exact ⟨⟨⟨⟨Nat.ne_of_gt hattempts, Nat.ne_of_gt hbackoff⟩, Nat.not_lt.2 hordered⟩, hmultiplier⟩,
      Nat.ne_of_gt herrors⟩

theorem valid_default : RetryPolicy.default.Valid :=
  validatePolicy_eq_nil.1 (by decide : validatePolicy "retry.defaults" RetryPolicy.default = [])

section Resolve

variable {retry : RetrySection} {registeredMessages : List String} {config : RetryConfig}
  (hresolve : retry.resolve registeredMessages = .ok config)

include hresolve

theorem resolve_eq_ok :
    config = { defaults := retry.defaults, overrides := retry.messages } ∧ retry.defaults.Valid ∧
      ∀ message ∈ retry.messages.entries, (message.2.applyTo retry.defaults).Valid := by
  unfold RetrySection.resolve at hresolve
  simp only [SortedMap.foldl_insert_entries] at hresolve
  split at hresolve
  · rename_i hissues
    rw [List.isEmpty_iff, List.append_eq_nil_iff, List.flatMap_eq_nil_iff] at hissues
    cases hresolve
    refine ⟨rfl, validatePolicy_eq_nil.1 hissues.1, fun message hmessage => ?_⟩
    exact validatePolicy_eq_nil.1 (List.append_eq_nil_iff.1 (hissues.2 message hmessage)).2
  · cases hresolve

/-- Every policy that failures are scheduled by has passed the checks. -/
theorem valid_policyFor (messageType : String) : (config.policyFor messageType).Valid := by
  rcases resolve_eq_ok hresolve with ⟨rfl, hdefaults, hmessages⟩
  unfold RetryConfig.policyFor
  split
  · rename_i override hoverride
    exact hmessages (messageType, override) (SortedMap.mem_entries_iff.2 hoverride)
  · exact hdefaults

end Resolve

/-! ## Durations that were written down -/

/-- A duration that some text was parsed to. -/
def FromText (d : Nat) : Prop :=
  ∃ text, parseDuration text = some (.ok d)

/-- Every duration of the section was parsed from a text. -/
structure RetrySection.FromText (retry : RetrySection) : Prop where
  defaults : Config.FromText retry.defaults.initialBackoff ∧ Config.FromText retry.defaults.maxBackoff
  messages : ∀ message ∈ retry.messages.entries,
    (∀ d ∈ message.2.initialBackoff, Config.FromText d) ∧ ∀ d ∈ message.2.maxBackoff, Config.FromText d

theorem fromText_policyFor {retry : RetrySection} {registeredMessages : List String}
    {config : RetryConfig} (htext : retry.FromText)
    (hresolve : retry.resolve registeredMessages = .ok config) (messageType : String) :
    FromText (config.policyFor messageType).maxBackoff := by
  rcases resolve_eq_ok hresolve with ⟨rfl, -, -⟩
  unfold RetryConfig.policyFor
  split
  · rename_i override hoverride
    -- An override for the type replaces the default field by field.
    have hmem := SortedMap.mem_entries_iff.2 hoverride
    simp only [RetryPolicyOverride.applyTo]
    cases hmax : override.maxBackoff with
    | none =>
        exact htext.defaults.2
    | some d =>
        exact (htext.messages (messageType, override) hmem).2 d hmax
  · exact htext.defaults.2

theorem FromText.millis {d : Nat} (h : FromText d) : ∃ millis < 2 ^ 64, d = fromMillis millis := by
  rcases h with ⟨text, htext⟩
  rcases parseDuration_eq_ok.1 htext with ⟨digits, unit, worth, -, -, -, -, hfits, hd⟩
  exact ⟨decimal digits * worth, Nat.lt_of_le_pred (by decide) hfits, hd⟩

end Config
end Kafkaman
