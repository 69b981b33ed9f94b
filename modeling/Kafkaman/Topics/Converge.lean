import Kafkaman.Core.Topics
import Mathlib.Data.List.Basic

/-!
# Topics.Converge — bringing the topics of all message types into line at boot

`converge_topics` goes through the registered message types, observes each one's topic, creates it
where the mode allows and it is missing, and observes it again.  Other services change topics at the
same time, so the broker's answers are whatever they are; the calls and their answers are kept.

* `convergeTopic`, `convergeTopics` — one topic, and all of them;
* `TopicCalls`, `Settled` — the calls made for one topic, and what a success leaves observed;
* `Creates` — when topics are created, in every run;
* `convergence_sound_iff` — a successful run is right about every message type exactly when the
  types that share a topic declare the same thing.

A topic is reconciled once, against the first message type that names it.
-/

namespace Kafkaman
namespace Topics

open Lib

/-! ## The admin client -/

/-- `RDKafkaErrorCode`, as far as the code distinguishes it, with the text it displays. -/
inductive RDKafkaErrorCode
  | topicAlreadyExists
  | topicAuthorizationFailed (text : String)
  | other (text : String)
  deriving DecidableEq

/-- The variants of `kafkaman_rdkafka::Error` that convergence raises. -/
inductive ConvergeError
  | kafka (text : String)
  | core (error : TopicError)
  | topicAdmin (topic message : String)
  deriving DecidableEq

/-- `TopicAdmin::admin_error`. -/
def adminError (topic : String) : RDKafkaErrorCode → ConvergeError
  | .topicAuthorizationFailed text =>
      .topicAdmin topic ("the configured principal is not authorized for this topic (" ++ text ++
        "); clusters commonly deny CreateTopics to application principals, in which case " ++
        "provision the topic out of band and use `[topics] mode = \"verify\"`")
  | .topicAlreadyExists => .topicAdmin topic "Broker: Topic already exists"
  | .other text => .topicAdmin topic text

/-- A topic as the broker is asked to create it. -/
structure NewTopic where
  topic : String
  partitions : Int32
  replicationFactor : Option Int16
  cleanupPolicy : CleanupPolicy
  deriving DecidableEq

/-- A broker and whoever else changes it; `β` is all that its answers depend on. -/
structure TopicAdmin (β : Type) where
  /-- `TopicAdmin::observe`: policy and partition count, or nothing for an absent topic. -/
  observe : β → String → β × Except ConvergeError (Option (CleanupPolicy × Int32))
  /-- `AdminClient::create_topics` with one topic. -/
  createTopics : β → NewTopic → β × Except String (List (Except RDKafkaErrorCode Unit))

/-- The answers to `create_topics`: somebody else may have created the topic meanwhile. -/
def createAnswer (topic : String) : List (Except RDKafkaErrorCode Unit) → Except ConvergeError Unit
  | [] => .ok ()
  | .ok () :: results => createAnswer topic results
  | .error .topicAlreadyExists :: results => createAnswer topic results
  | .error code :: _ => .error (adminError topic code)

/-- A call and its answer. -/
inductive AdminCall
  | observe (topic : String) (answer : Except ConvergeError (Option ObservedTopic))
  | create (new : NewTopic) (answer : Except ConvergeError Unit)

def AdminCall.topic : AdminCall → String
  | .observe topic _ => topic
  | .create new _ => new.topic

/-- `MessageDescriptor` with the `topic_spec` that convergence reads. -/
structure TopicDescriptor extends MessageDescriptor where
  topicSpec : TopicSpec
  deriving DecidableEq

/-- The broker and the calls made to it, oldest first. -/
structure Session (β : Type) where
  broker : β
  calls : List AdminCall

section Model

variable {β : Type} (admin : TopicAdmin β)

def Session.observe (s : Session β) (topic : String) :
    Session β × Except ConvergeError (Option ObservedTopic) :=
  let answer := (admin.observe s.broker topic).2.map fun found => found.map fun observed =>
    { name := topic
      cleanupPolicy := observed.1
      partitions := observed.2 }
  ({ broker := (admin.observe s.broker topic).1
     calls := s.calls ++ [.observe topic answer] }, answer)

/-- `TopicAdmin::create`. -/
def Session.create (s : Session β) (new : NewTopic) : Session β × Except ConvergeError Unit :=
  let answer := match (admin.createTopics s.broker new).2 with
    | .error text => .error (.kafka text)
    | .ok results => createAnswer new.topic results
  ({ broker := (admin.createTopics s.broker new).1
     calls := s.calls ++ [.create new answer] }, answer)

/-- The body of the loop, for a topic not seen before. -/
def convergeTopic (mode : TopicMode) (s : Session β) (descriptor : TopicDescriptor) :
    Session β × Except ConvergeError (Option PartitionDrift) :=
  let topic := descriptor.topic
  match s.observe admin topic with
  | (s, .error error) => (s, .error error)
  | (s, .ok observed) =>
      match reconcile topic descriptor.topicSpec observed mode with
      | .error error => (s, .error (.core error))
      | .ok { action := .satisfied, drift } => (s, .ok drift)
      -- A created topic is observed again and held to what `verify` asks of any other.
      | .ok { action := .create partitions replicationFactor, drift := _ } =>
          match s.create admin
            { topic := topic
              partitions := partitions
              replicationFactor := replicationFactor
              cleanupPolicy := descriptor.topicSpec.cleanupPolicy } with
          | (s, .error error) => (s, .error error)
          | (s, .ok ()) =>
              match s.observe admin topic with
              | (s, .error error) => (s, .error error)
              | (s, .ok observed) =>
                  match reconcile topic descriptor.topicSpec observed .verify with
                  | .error error => (s, .error (.core error))
                  | .ok outcome => (s, .ok outcome.drift)

/-- `for descriptor in descriptors`; `seen` are the topics that were reconciled. -/
def convergeLoop (mode : TopicMode) (seen : List String) (s : Session β) :
    List TopicDescriptor → Session β × Except ConvergeError (List PartitionDrift)
  | [] => (s, .ok [])
  | descriptor :: rest =>
      if descriptor.topic ∈ seen then convergeLoop mode seen s rest
      else
        match convergeTopic admin mode s descriptor with
        | (s, .error error) => (s, .error error)
        | (s, .ok drift) =>
            match convergeLoop mode (descriptor.topic :: seen) s rest with
            | (s, .error error) => (s, .error error)
            | (s, .ok drifts) => (s, .ok (drift.toList ++ drifts))

def convergeTopics (mode : TopicMode) (broker : β) (descriptors : List TopicDescriptor) :
    Session β × Except ConvergeError (List PartitionDrift) :=
  let s : Session β :=
    { broker := broker
      calls := [] }
  if mode = .off then (s, .ok []) else convergeLoop admin mode [] s descriptors

end Model

/-! ## The calls for one topic -/

/-- Observe; or observe, create, and observe once more. -/
inductive TopicCalls (mode : TopicMode) (descriptor : TopicDescriptor) : List AdminCall → Prop
  | observed (answer : Except ConvergeError (Option ObservedTopic)) :
      TopicCalls mode descriptor [.observe descriptor.topic answer]
  | created (partitions : Int32) (replicationFactor : Option Int16)
      (answer : Except ConvergeError Unit) (confirmed : List AdminCall) (hmode : mode = .create)
      (hdeclared : descriptor.topicSpec.partitions = some partitions)
      (hconfirmed : ∀ call ∈ confirmed, ∃ answer, call = .observe descriptor.topic answer) :
      TopicCalls mode descriptor
        (.observe descriptor.topic (.ok none) ::
          .create
            { topic := descriptor.topic
              partitions := partitions
              replicationFactor := replicationFactor
              cleanupPolicy := descriptor.topicSpec.cleanupPolicy } answer ::
          confirmed)

/-- The calls end with an observation, answered by the broker in some state, that the descriptor
agrees with up to a drift. -/
def Settled {β : Type} (admin : TopicAdmin β) (descriptor : TopicDescriptor)
    (calls : List AdminCall) (drift : Option PartitionDrift) : Prop :=
  ∃ broker observed,
    (admin.observe broker descriptor.topic).2 =
      .ok (some (observed.cleanupPolicy, observed.partitions)) ∧
    calls.getLast? = some (.observe descriptor.topic (.ok (some observed))) ∧
    observed.name = descriptor.topic ∧
    descriptor.topicSpec.cleanupPolicy = observed.cleanupPolicy ∧
    drift = descriptor.topicSpec.driftFrom observed

section Calls

variable {β : Type} {admin : TopicAdmin β} {mode : TopicMode} {descriptor : TopicDescriptor}

theorem answer_of_observe {s : Session β} {topic : String} {observed : ObservedTopic}
    (h : (s.observe admin topic).2 = .ok (some observed)) :
    (admin.observe s.broker topic).2 = .ok (some (observed.cleanupPolicy, observed.partitions)) ∧
      observed.name = topic := by
  unfold Session.observe at h
  cases hanswer : (admin.observe s.broker topic).2 with
  | error error =>
      rw [hanswer] at h
      cases h
  | ok found =>
      rw [hanswer] at h
      cases found with
      | none =>
          cases h
      | some pair =>
          cases h
          exact ⟨rfl, rfl⟩

theorem calls_observe {s s' : Session β} {topic : String}
    {answer : Except ConvergeError (Option ObservedTopic)}
    (h : s.observe admin topic = (s', answer)) : s'.calls = s.calls ++ [.observe topic answer] := by
  cases h
  rfl

theorem calls_create {s s' : Session β} {new : NewTopic} {answer : Except ConvergeError Unit}
    (h : s.create admin new = (s', answer)) : s'.calls = s.calls ++ [.create new answer] := by
  cases h
  rfl

theorem settled_of_observe {s s' : Session β} {found : ObservedTopic} {calls : List AdminCall}
    (hobserve : s.observe admin descriptor.topic = (s', .ok (some found)))
    (hlast : calls.getLast? = some (.observe descriptor.topic (.ok (some found))))
    (hpolicy : descriptor.topicSpec.cleanupPolicy = found.cleanupPolicy) :
    Settled admin descriptor calls (descriptor.topicSpec.driftFrom found) := by
  rcases answer_of_observe (congrArg Prod.snd hobserve) with ⟨hanswer, hname⟩
  exact ⟨s.broker, found, hanswer, hlast, hname, hpolicy, rfl⟩

variable (admin descriptor) in
theorem calls_convergeTopic (hmode : mode ≠ .off) (s : Session β) :
    ∃ calls, (convergeTopic admin mode s descriptor).1.calls = s.calls ++ calls ∧
      TopicCalls mode descriptor calls ∧
      ∀ drift, (convergeTopic admin mode s descriptor).2 = .ok drift →
        Settled admin descriptor calls drift := by
  simp only [convergeTopic]
  rcases hobserve : s.observe admin descriptor.topic with ⟨s₁, answer⟩
  have hcalls₁ := calls_observe hobserve
  cases answer with
  | error error =>
      exact ⟨_, hcalls₁, .observed _, fun drift h => nomatch h⟩
  | ok observed =>
      simp only
      cases hreconcile : reconcile descriptor.topic descriptor.topicSpec observed mode with
      | error error =>
          exact ⟨_, hcalls₁, .observed _, fun drift h => nomatch h⟩
      | ok outcome =>
          rcases reconcile_eq_ok hmode hreconcile with
            ⟨found, rfl, hpolicy, rfl⟩ | ⟨partitions, rfl, hcreate, hdeclared, rfl⟩
          · refine ⟨_, hcalls₁, .observed _, fun drift h => ?_⟩
            cases h
            exact settled_of_observe hobserve rfl hpolicy
          · simp only
            -- From here on the calls are those of `TopicCalls.created`.
            rcases hcreated : s₁.create admin
              { topic := descriptor.topic
                partitions := partitions
                replicationFactor := descriptor.topicSpec.replicationFactor
                cleanupPolicy := descriptor.topicSpec.cleanupPolicy } with ⟨s₂, answer⟩
            have hcalls₂ := calls_create hcreated
            rw [hcalls₁, List.append_assoc] at hcalls₂
            cases answer with
            | error error =>
                refine ⟨_, hcalls₂, .created partitions _ _ [] hcreate hdeclared ?_, ?_⟩
                · exact fun call hcall => nomatch hcall
                · exact fun drift h => nomatch h
            | ok _ =>
                simp only
                rcases hagain : s₂.observe admin descriptor.topic with ⟨s₃, answer⟩
                have hcalls₃ := calls_observe hagain
                rw [hcalls₂, List.append_assoc] at hcalls₃
                have hshape : TopicCalls mode descriptor _ :=
                  .created partitions descriptor.topicSpec.replicationFactor (.ok ())
                    [.observe descriptor.topic answer] hcreate hdeclared
                    fun call hcall => ⟨answer, List.mem_singleton.1 hcall⟩
                cases answer with
                | error error =>
                    exact ⟨_, hcalls₃, hshape, fun drift h => nomatch h⟩
                | ok observed =>
                    simp only
                    cases hverify : reconcile descriptor.topic descriptor.topicSpec observed
                        .verify with
                    | error error =>
                        exact ⟨_, hcalls₃, hshape, fun drift h => nomatch h⟩
                    | ok outcome =>
                        refine ⟨_, hcalls₃, hshape, fun drift h => ?_⟩
                        cases h
                        rcases reconcile_eq_ok (by decide) hverify with
                          ⟨found, rfl, hpolicy, rfl⟩ | ⟨_, _, hmode, _⟩
                        · exact settled_of_observe hagain rfl hpolicy
                        · cases hmode

end Calls

/-! ## Runs -/

/-- A run of the loop, block of calls by block of calls. -/
inductive LoopRun {β : Type} (admin : TopicAdmin β) (mode : TopicMode) : List String → List TopicDescriptor → List AdminCall →
    Except ConvergeError (List PartitionDrift) → Prop
  | done (seen : List String) : LoopRun admin mode seen [] [] (.ok [])
  | skipped {seen : List String} {descriptor : TopicDescriptor} {rest : List TopicDescriptor}
      {calls : List AdminCall} {result : Except ConvergeError (List PartitionDrift)}
      (hseen : descriptor.topic ∈ seen) (hrest : LoopRun admin mode seen rest calls result) :
      LoopRun admin mode seen (descriptor :: rest) calls result
  | failed {seen : List String} {descriptor : TopicDescriptor} {rest : List TopicDescriptor}
      {calls : List AdminCall} (error : ConvergeError) (hseen : descriptor.topic ∉ seen)
      (hcalls : TopicCalls mode descriptor calls) :
      LoopRun admin mode seen (descriptor :: rest) calls (.error error)
  | settled {seen : List String} {descriptor : TopicDescriptor} {rest : List TopicDescriptor}
      {calls later : List AdminCall} {drift : Option PartitionDrift}
      {result : Except ConvergeError (List PartitionDrift)} (hseen : descriptor.topic ∉ seen)
      (hcalls : TopicCalls mode descriptor calls) (hsettled : Settled admin descriptor calls drift)
      (hrest : LoopRun admin mode (descriptor.topic :: seen) rest later result) :
      LoopRun admin mode seen (descriptor :: rest) (calls ++ later)
        (result.map fun drifts => drift.toList ++ drifts)

theorem loopRun_convergeLoop {β : Type} (admin : TopicAdmin β) {mode : TopicMode}
    (hmode : mode ≠ .off) (descriptors : List TopicDescriptor) :
    ∀ (seen : List String) (s : Session β),
      ∃ calls, (convergeLoop admin mode seen s descriptors).1.calls = s.calls ++ calls ∧
        LoopRun admin mode seen descriptors calls (convergeLoop admin mode seen s descriptors).2 := by
  induction descriptors with
  | nil =>
      intro seen s
      exact ⟨[], by simp [convergeLoop], .done seen⟩
  | cons descriptor rest ih =>
      intro seen s
      rw [convergeLoop]
      by_cases hseen : descriptor.topic ∈ seen
      · rw [if_pos hseen]
        rcases ih seen s with ⟨calls, hcalls, hrun⟩
        exact ⟨calls, hcalls, .skipped hseen hrun⟩
      · rw [if_neg hseen]
        rcases calls_convergeTopic admin descriptor hmode s with
          ⟨calls, hcalls, hshape, hsettled⟩
        -- An error ends the loop with the calls of this topic; otherwise those of the rest follow.
        rcases hconverge : convergeTopic admin mode s descriptor with ⟨s', error | drift⟩
        · rw [hconverge] at hcalls
          exact ⟨calls, hcalls, .failed error hseen hshape⟩
        · rw [hconverge] at hcalls hsettled
          rcases ih (descriptor.topic :: seen) s' with ⟨later, hlater, hrun⟩
          simp only at hcalls ⊢
          rcases hloop : convergeLoop admin mode (descriptor.topic :: seen) s' rest with
            ⟨s'', error | drifts⟩
          · rw [hloop] at hlater hrun
            refine ⟨calls ++ later, ?_, .settled hseen hshape (hsettled drift rfl) hrun⟩
            rw [hlater, hcalls, List.append_assoc]
          · rw [hloop] at hlater hrun
            refine ⟨calls ++ later, ?_, .settled hseen hshape (hsettled drift rfl) hrun⟩
            rw [hlater, hcalls, List.append_assoc]

theorem TopicCalls.topic_eq {mode : TopicMode} {descriptor : TopicDescriptor}
    {calls : List AdminCall} (h : TopicCalls mode descriptor calls) :
    ∀ call ∈ calls, call.topic = descriptor.topic := by
  intro call hcall
  cases h with
  | observed answer =>
      rw [List.mem_singleton.1 hcall]
      rfl
  | created partitions replicationFactor answer confirmed hmode hdeclared hconfirmed =>
      rcases List.mem_cons.1 hcall with rfl | hcall
      · rfl
      rcases List.mem_cons.1 hcall with rfl | hcall
      · rfl
      rcases hconfirmed call hcall with ⟨answer', rfl⟩
      rfl

theorem LoopRun.topic_notMem {β : Type} {admin : TopicAdmin β} {mode : TopicMode} {seen : List String}
    {descriptors : List TopicDescriptor} {calls : List AdminCall}
    {result : Except ConvergeError (List PartitionDrift)}
    (h : LoopRun admin mode seen descriptors calls result) : ∀ call ∈ calls, call.topic ∉ seen := by
  induction h with
  | done seen =>
      exact fun call hcall => nomatch hcall
  | skipped _ _ ih =>
      exact ih
  | failed error hseen hcalls =>
      intro call hcall
      rw [hcalls.topic_eq call hcall]
      exact hseen
  | settled hseen hcalls _ _ ih =>
      intro call hcall
      rcases List.mem_append.1 hcall with hnow | hlater
      · rw [hcalls.topic_eq call hnow]
        exact hseen
      · exact fun hmem => ih call hlater (List.mem_cons_of_mem _ hmem)

/-! ## When a topic is created -/

def AdminCall.created : AdminCall → Option String
  | .observe _ _ => none
  | .create new _ => some new.topic

/-- Creation is for `create` mode, right after the topic was observed absent, with a partition count
that a descriptor declares, and once. -/
structure Creates (mode : TopicMode) (descriptors : List TopicDescriptor)
    (calls : List AdminCall) : Prop where
  mode : ∀ new answer, .create new answer ∈ calls → mode = .create
  absent : ∀ before new answer after, calls = before ++ .create new answer :: after →
    before.getLast? = some (.observe new.topic (.ok none)) ∧
      ∃ descriptor ∈ descriptors, descriptor.topic = new.topic ∧
        descriptor.topicSpec.partitions = some new.partitions
  once : (calls.filterMap AdminCall.created).Nodup

section Creates

variable {mode : TopicMode} {descriptor : TopicDescriptor} {descriptors : List TopicDescriptor}
  {calls later : List AdminCall}

theorem Creates.mono {descriptors' : List TopicDescriptor} (h : Creates mode descriptors calls)
    (hsub : descriptors ⊆ descriptors') : Creates mode descriptors' calls :=
  { mode := h.mode
    absent := fun before new answer after heq => by
      rcases h.absent before new answer after heq with ⟨hlast, d, hd, htopic, hdeclared⟩
      exact ⟨hlast, d, hsub hd, htopic, hdeclared⟩
    once := h.once }

theorem TopicCalls.creates (h : TopicCalls mode descriptor calls) :
    Creates mode [descriptor] calls := by
  cases h with
  | observed answer =>
      refine
        { mode := fun new answer' hmem => by simp at hmem
          absent := ?_
          once := List.nodup_nil }
      intro before new answer' after heq
      have hmem : AdminCall.create new answer' ∈ [AdminCall.observe descriptor.topic answer] :=
        heq ▸ by simp
      simp at hmem
  | created partitions replicationFactor answer confirmed hmode hdeclared hconfirmed =>
      have hnone : confirmed.filterMap AdminCall.created = [] := by
        refine List.filterMap_eq_nil_iff.2 fun call hcall => ?_
        rcases hconfirmed call hcall with ⟨answer', rfl⟩
        rfl
      have honce : (descriptor.topic :: confirmed.filterMap AdminCall.created).Nodup := by
        rw [hnone]
        exact List.nodup_singleton _
      refine
        { mode := fun _ _ _ => hmode
          absent := ?_
          once := honce }
      intro before new answer' after heq
      -- The one creation is the second call.
      match before with
      | [] =>
          cases heq
      | [first] =>
          cases heq
          exact ⟨rfl, descriptor, by simp, rfl, hdeclared⟩
      | first :: second :: middle =>
          injection heq with _ heq
          injection heq with _ heq
          have hmem : AdminCall.create new answer' ∈ confirmed := heq ▸ by simp
          rcases hconfirmed _ hmem with ⟨_, hcall⟩
          cases hcall

theorem Creates.append (h : Creates mode descriptors calls) (hlater : Creates mode descriptors later)
    (hdisjoint : ∀ call ∈ calls, ∀ call' ∈ later, call.topic ≠ call'.topic) :
    Creates mode descriptors (calls ++ later) := by
  refine
    { mode := ?_
      absent := ?_
      once := ?_ }
  · intro new answer hmem
    rcases List.mem_append.1 hmem with hnow | hafter
    · exact h.mode new answer hnow
    · exact hlater.mode new answer hafter
  · intro before new answer after heq
    -- A creation lies in one of the two halves, and its observation is right before it there.
    rcases List.append_eq_append_iff.1 heq with ⟨middle, rfl, hrest⟩ | ⟨middle, rfl, hrest⟩
    · rcases hlater.absent middle new answer after hrest with ⟨hlast, hdeclared⟩
      refine ⟨?_, hdeclared⟩
      rw [List.getLast?_append, hlast]
      rfl
    · cases middle with
      | nil =>
          have := (hlater.absent [] new answer after hrest.symm).1
          cases this
      | cons first middle =>
          injection hrest with hfirst _
          subst hfirst
          exact h.absent before new answer middle rfl
  · have htopic : ∀ {call : AdminCall} {topic : String}, call.created = some topic →
        call.topic = topic := by
      intro call topic hcreated
      cases call with
      | observe _ _ =>
          cases hcreated
      | create new answer =>
          injection hcreated
    rw [List.filterMap_append]
    refine List.nodup_append.2 ⟨h.once, hlater.once, ?_⟩
    intro topic htopics topic' htopics' hsame
    rcases List.mem_filterMap.1 htopics with ⟨call, hcall, hcreated⟩
    rcases List.mem_filterMap.1 htopics' with ⟨call', hcall', hcreated'⟩
    refine hdisjoint call hcall call' hcall' ?_
    rw [htopic hcreated, htopic hcreated', hsame]

theorem LoopRun.creates {β : Type} {admin : TopicAdmin β} {seen : List String}
    {result : Except ConvergeError (List PartitionDrift)}
    (h : LoopRun admin mode seen descriptors calls result) : Creates mode descriptors calls := by
  induction h with
  | done seen =>
      exact
        { mode := fun _ _ hmem => (nomatch hmem)
          absent := fun before new answer after heq => by simp at heq
          once := List.nodup_nil }
  | skipped _ _ ih =>
      exact ih.mono (List.subset_cons_self _ _)
  | failed error hseen hcalls =>
      exact hcalls.creates.mono (by simp)
  | settled hseen hcalls hsettled hrest ih =>
      refine (hcalls.creates.mono (by simp)).append (ih.mono (List.subset_cons_self _ _)) ?_
      intro call hcall call' hcall' hsame
      have hnew := hrest.topic_notMem call' hcall'
      rw [← hsame, hcalls.topic_eq call hcall] at hnew
      exact hnew (by simp)

end Creates

/-! ## What a successful run has observed -/

/-- The answer of a call that observes the topic. -/
def AdminCall.observation (topic : String) :
    AdminCall → Option (Except ConvergeError (Option ObservedTopic))
  | .observe topic' answer => if topic' = topic then some answer else none
  | .create _ _ => none

/-- The last observation made of a topic. -/
def lastObservation (calls : List AdminCall) (topic : String) :
    Option (Except ConvergeError (Option ObservedTopic)) :=
  (calls.filterMap (AdminCall.observation topic)).getLast?

/-- For each descriptor, the topic was last seen to exist with the declared policy, and a partition
count other than the declared one is reported. -/
def Sound (descriptors : List TopicDescriptor) (calls : List AdminCall)
    (drifts : List PartitionDrift) : Prop :=
  ∀ descriptor ∈ descriptors, ∃ observed,
    lastObservation calls descriptor.topic = some (.ok (some observed)) ∧
    observed.cleanupPolicy = descriptor.topicSpec.cleanupPolicy ∧
    ∀ declared, descriptor.topicSpec.partitions = some declared →
      declared ≠ observed.partitions →
      { topic := descriptor.topic
        declared := declared
        found := observed.partitions } ∈ drifts

/-- The descriptor a topic is reconciled against. -/
def firstOf (descriptors : List TopicDescriptor) (topic : String) : Option TopicDescriptor :=
  descriptors.find? fun descriptor => descriptor.topic = topic

section Observed

variable {mode : TopicMode} {descriptor : TopicDescriptor} {calls later : List AdminCall}
  {topic : String}

theorem observation_of_topic_ne {call : AdminCall} (h : call.topic ≠ topic) :
    call.observation topic = none := by
  cases call with
  | observe topic' answer =>
      exact if_neg h
  | create new answer =>
      rfl

theorem lastObservation_append (calls later : List AdminCall) (topic : String) :
    lastObservation (calls ++ later) topic =
      (lastObservation later topic).or (lastObservation calls topic) := by
  rw [lastObservation, List.filterMap_append, List.getLast?_append]
  rfl

theorem lastObservation_eq_none (h : ∀ call ∈ calls, call.topic ≠ topic) :
    lastObservation calls topic = none := by
  have hnil : calls.filterMap (AdminCall.observation topic) = [] :=
    List.filterMap_eq_nil_iff.2 fun call hcall => observation_of_topic_ne (h call hcall)
  rw [lastObservation, hnil]
  rfl

theorem lastObservation_of_getLast? {answer : Except ConvergeError (Option ObservedTopic)}
    (h : calls.getLast? = some (.observe topic answer)) :
    lastObservation calls topic = some answer := by
  rcases List.getLast?_eq_some_iff.1 h with ⟨before, rfl⟩
  have hone : lastObservation [.observe topic answer] topic = some answer := by
    simp [lastObservation, AdminCall.observation]
  rw [lastObservation_append, hone]
  rfl

theorem LoopRun.observed {β : Type} {admin : TopicAdmin β} {seen : List String}
    {descriptors : List TopicDescriptor}
    {result : Except ConvergeError (List PartitionDrift)}
    (h : LoopRun admin mode seen descriptors calls result) :
    ∀ drifts, result = .ok drifts → ∀ topic, topic ∉ seen →
      ∀ first, firstOf descriptors topic = some first →
      ∃ broker observed,
        (admin.observe broker topic).2 =
          .ok (some (observed.cleanupPolicy, observed.partitions)) ∧
        lastObservation calls topic = some (.ok (some observed)) ∧
        observed.name = topic ∧ first.topicSpec.cleanupPolicy = observed.cleanupPolicy ∧
        ∀ drift ∈ first.topicSpec.driftFrom observed, drift ∈ drifts := by
  induction h with
  | done seen =>
      intro drifts _ topic _ first hfirst
      cases hfirst
  | @skipped seen descriptor rest calls result hseen hrest ih =>
      intro drifts hok topic htopic first hfirst
      have hne : descriptor.topic ≠ topic := fun hsame => htopic (hsame ▸ hseen)
      refine ih drifts hok topic htopic first ?_
      rw [← hfirst, firstOf, firstOf, List.find?_cons_of_neg (by simpa using hne)]
  | failed error hseen hcalls =>
      intro drifts hok
      cases hok
  | @settled seen descriptor rest calls later drift result hseen hcalls hsettled hrest ih =>
      intro drifts hok topic htopic first hfirst
      cases result with
      | error error =>
          cases hok
      | ok drifts' =>
          cases hok
          by_cases hsame : descriptor.topic = topic
          · -- The first descriptor of the topic: no later call is about it.
            subst hsame
            rw [firstOf, List.find?_cons_of_pos (by simp)] at hfirst
            cases hfirst
            rcases hsettled with ⟨broker, observed, hanswer, hlast, hname, hpolicy, rfl⟩
            have hafter : lastObservation later descriptor.topic = none :=
              lastObservation_eq_none fun call hcall hsame =>
                hrest.topic_notMem call hcall (hsame ▸ by simp)
            refine ⟨broker, observed, hanswer, ?_, hname, hpolicy, fun drift hdrift => ?_⟩
            · rw [lastObservation_append, hafter, lastObservation_of_getLast? hlast]
              rfl
            · exact List.mem_append_left _ (Option.mem_toList.2 hdrift)
          · have htopic' : topic ∉ descriptor.topic :: seen := by
              simp only [List.mem_cons, not_or]
              exact ⟨fun h => hsame h.symm, htopic⟩
            rw [firstOf, List.find?_cons_of_neg (by simpa using hsame)] at hfirst
            rcases ih drifts' rfl topic htopic' first hfirst with
              ⟨broker, observed, hanswer, hlast, hname, hpolicy, hdrift⟩
            refine ⟨broker, observed, hanswer, ?_, hname, hpolicy, fun drift hmem => ?_⟩
            · rw [lastObservation_append, hlast]
              rfl
            · exact List.mem_append_right _ (hdrift drift hmem)

theorem LoopRun.drift_of_first {β : Type} {admin : TopicAdmin β} {seen : List String}
    {descriptors : List TopicDescriptor}
    {result : Except ConvergeError (List PartitionDrift)}
    (h : LoopRun admin mode seen descriptors calls result) :
    ∀ drifts, result = .ok drifts → ∀ drift ∈ drifts, drift.topic ∉ seen ∧
      ∃ first, firstOf descriptors drift.topic = some first ∧
        first.topicSpec.partitions = some drift.declared := by
  induction h with
  | done seen =>
      intro drifts hok drift hdrift
      cases hok
      cases hdrift
  | @skipped seen descriptor rest calls result hseen hrest ih =>
      intro drifts hok drift hdrift
      rcases ih drifts hok drift hdrift with ⟨hnew, first, hfirst, hdeclared⟩
      have hne : descriptor.topic ≠ drift.topic := fun hsame => hnew (hsame ▸ hseen)
      refine ⟨hnew, first, ?_, hdeclared⟩
      rw [firstOf, List.find?_cons_of_neg (by simpa using hne)]
      exact hfirst
  | failed error hseen hcalls =>
      intro drifts hok
      cases hok
  | @settled seen descriptor rest calls later drift' result hseen hcalls hsettled hrest ih =>
      intro drifts hok drift hdrift
      cases result with
      | error error =>
          cases hok
      | ok drifts' =>
          cases hok
          -- The drift of this descriptor, or of one whose topic comes after it for the first time.
          rcases List.mem_append.1 hdrift with hnow | hlater
          · rcases hsettled with ⟨_, observed, -, -, hname, -, rfl⟩
            rcases mem_driftFrom.1 (Option.mem_toList.1 hnow) with ⟨declared, hdeclared, -, rfl⟩
            refine ⟨hname ▸ hseen, descriptor, ?_, hdeclared⟩
            rw [firstOf, List.find?_cons_of_pos (by simp [hname])]
          · rcases ih drifts' rfl drift hlater with ⟨hnew, first, hfirst, hdeclared⟩
            simp only [List.mem_cons, not_or] at hnew
            refine ⟨hnew.2, first, ?_, hdeclared⟩
            rw [firstOf, List.find?_cons_of_neg (by simpa using fun h => hnew.1 h.symm)]
            exact hfirst

end Observed

/-! ## Message types that share a topic -/

/-- Every descriptor declares what the first descriptor of its topic declares, or no partition
count. -/
def SharedTopicsAgree (descriptors : List TopicDescriptor) : Prop :=
  ∀ descriptor ∈ descriptors, ∀ first ∈ firstOf descriptors descriptor.topic,
    descriptor.topicSpec.cleanupPolicy = first.topicSpec.cleanupPolicy ∧
      (descriptor.topicSpec.partitions = none ∨
        descriptor.topicSpec.partitions = first.topicSpec.partitions)

/-- Against every broker, topics are created only where they may be, and a run that returns is
right about every descriptor. -/
def ConvergesSoundly (mode : TopicMode) (descriptors : List TopicDescriptor) : Prop :=
  ∀ (β : Type) (admin : TopicAdmin β) (broker : β),
    Creates mode descriptors (convergeTopics admin mode broker descriptors).1.calls ∧
      ∀ drifts, (convergeTopics admin mode broker descriptors).2 = .ok drifts →
        Sound descriptors (convergeTopics admin mode broker descriptors).1.calls drifts

theorem loopRun_convergeTopics {β : Type} (admin : TopicAdmin β) {mode : TopicMode}
    (hmode : mode ≠ .off) (broker : β) (descriptors : List TopicDescriptor) :
    LoopRun admin mode [] descriptors (convergeTopics admin mode broker descriptors).1.calls
      (convergeTopics admin mode broker descriptors).2 := by
  simp only [convergeTopics, if_neg hmode]
  rcases loopRun_convergeLoop admin hmode descriptors []
    { broker := broker, calls := [] } with
    ⟨calls, hcalls, hrun⟩
  rw [hcalls]
  exact hrun

theorem firstOf_of_mem {descriptors : List TopicDescriptor} {descriptor : TopicDescriptor}
    (h : descriptor ∈ descriptors) :
    ∃ first, firstOf descriptors descriptor.topic = some first := by
  cases hfirst : firstOf descriptors descriptor.topic with
  | none =>
      have := List.find?_eq_none.1 hfirst descriptor h
      simp at this
  | some first =>
      exact ⟨first, rfl⟩

theorem sound_of_agree {β : Type} {admin : TopicAdmin β} {mode : TopicMode} {descriptors : List TopicDescriptor}
    {calls : List AdminCall} {drifts : List PartitionDrift}
    (hrun : LoopRun admin mode [] descriptors calls (.ok drifts))
    (hagree : SharedTopicsAgree descriptors) : Sound descriptors calls drifts := by
  intro descriptor hdescriptor
  rcases firstOf_of_mem hdescriptor with ⟨first, hfirst⟩
  rcases hagree descriptor hdescriptor first hfirst with ⟨hpolicy, hpartitions⟩
  rcases hrun.observed drifts rfl descriptor.topic (by simp) first hfirst with
    ⟨_, observed, -, hlast, hname, hfound, hdrift⟩
  refine ⟨observed, hlast, by rw [hpolicy, hfound], ?_⟩
  intro declared hdeclared hne
  rcases hpartitions with hnone | hsame
  · rw [hnone] at hdeclared
    cases hdeclared
  · rw [← hname]
    exact hdrift _ (mem_driftFrom.2 ⟨declared, hsame ▸ hdeclared, hne, rfl⟩)

/-! ### A broker that tells -/

/-- A broker on which every topic is as its first descriptor wants it, with `partitions` partitions
throughout. -/
def mirror (descriptors : List TopicDescriptor) (partitions : Int32) : TopicAdmin Unit :=
  { observe := fun _ topic => ((), .ok ((firstOf descriptors topic).map fun first =>
      (first.topicSpec.cleanupPolicy, partitions)))
    createTopics := fun _ _ => ((), .ok []) }

section Mirror

variable {mode : TopicMode} {descriptors : List TopicDescriptor} {partitions : Int32}

theorem convergeTopic_mirror {descriptor : TopicDescriptor} (hmode : mode ≠ .off)
    (s : Session Unit) (hfirst : firstOf descriptors descriptor.topic = some descriptor) :
    ∃ s' drift,
      convergeTopic (mirror descriptors partitions) mode s descriptor = (s', .ok drift) := by
  have hobserve : (s.observe (mirror descriptors partitions) descriptor.topic).2 =
      .ok (some
        { name := descriptor.topic
          cleanupPolicy := descriptor.topicSpec.cleanupPolicy
          partitions := partitions }) := by
    simp only [Session.observe, mirror, hfirst]
    rfl
  rcases hsession : s.observe (mirror descriptors partitions) descriptor.topic with ⟨s', answer⟩
  rw [hsession] at hobserve
  cases hobserve
  simp only [convergeTopic, hsession]
  rw [reconcile_of_policy hmode rfl]
  exact ⟨_, _, rfl⟩

variable (partitions) in
theorem convergeLoop_mirror (hmode : mode ≠ .off) (rest : List TopicDescriptor) :
    ∀ (done : List TopicDescriptor) (seen : List String) (s : Session Unit),
      descriptors = done ++ rest → (∀ descriptor ∈ done, descriptor.topic ∈ seen) →
      ∃ drifts, (convergeLoop (mirror descriptors partitions) mode seen s rest).2 = .ok drifts := by
  induction rest with
  | nil =>
      intro done seen s _ _
      exact ⟨[], rfl⟩
  | cons descriptor rest ih =>
      intro done seen s hsplit hdone
      rw [convergeLoop]
      have hsplit' : descriptors = (done ++ [descriptor]) ++ rest := by
        rw [hsplit, List.append_assoc]
        rfl
      by_cases hseen : descriptor.topic ∈ seen
      · rw [if_pos hseen]
        refine ih (done ++ [descriptor]) seen s hsplit' fun d hd => ?_
        rcases List.mem_append.1 hd with hold | hnew
        · exact hdone d hold
        · rw [List.mem_singleton.1 hnew]
          exact hseen
      · rw [if_neg hseen]
        have hfirst : firstOf descriptors descriptor.topic = some descriptor := by
          rw [firstOf, hsplit, List.find?_append, List.find?_eq_none.2, Option.none_or,
            List.find?_cons_of_pos (by simp)]
          intro d hd hsame
          have hsame : d.topic = descriptor.topic := by simpa using hsame
          exact hseen (hsame ▸ hdone d hd)
        rcases convergeTopic_mirror hmode s hfirst with ⟨s', drift, hconverge⟩
        rcases ih (done ++ [descriptor]) (descriptor.topic :: seen) s' hsplit' (by
          intro d hd
          rcases List.mem_append.1 hd with hold | hnew
          · exact List.mem_cons_of_mem _ (hdone d hold)
          · rw [List.mem_singleton.1 hnew]
            exact List.mem_cons_self) with ⟨drifts, hdrifts⟩
        rw [hconverge]
        simp only
        rcases hloop : convergeLoop (mirror descriptors partitions) mode (descriptor.topic :: seen)
          s' rest with ⟨s'', answer⟩
        rw [hloop] at hdrifts
        cases hdrifts
        exact ⟨_, rfl⟩

end Mirror

/-- If a run against such a broker is right about a descriptor, the descriptor agrees with the
first one of its topic. -/
theorem agree_of_sound_mirror {mode : TopicMode} {descriptors : List TopicDescriptor}
    {descriptor first : TopicDescriptor} {partitions : Int32} {calls : List AdminCall}
    {drifts : List PartitionDrift} (hdescriptor : descriptor ∈ descriptors)
    (hfirst : firstOf descriptors descriptor.topic = some first)
    (hrun : LoopRun (mirror descriptors partitions) mode [] descriptors calls (.ok drifts))
    (hsound : Sound descriptors calls drifts) :
    descriptor.topicSpec.cleanupPolicy = first.topicSpec.cleanupPolicy ∧
      ∀ declared, descriptor.topicSpec.partitions = some declared → declared ≠ partitions →
        descriptor.topicSpec.partitions = first.topicSpec.partitions := by
  rcases hrun.observed drifts rfl descriptor.topic (by simp) first hfirst with
    ⟨broker, observed, hanswer, hlast, -, hpolicy, -⟩
  rcases hsound descriptor hdescriptor with ⟨observed', hlast', hpolicy', hdrift⟩
  rw [hlast] at hlast'
  cases hlast'
  have hcount : observed.partitions = partitions := by
    simp only [mirror, hfirst, Option.map_some] at hanswer
    injection hanswer with hanswer
    injection hanswer with hanswer
    exact (congrArg Prod.snd hanswer).symm
  refine ⟨by rw [← hpolicy', hpolicy], ?_⟩
  intro declared hdeclared hne
  have hmem := hdrift declared hdeclared (by rw [hcount]; exact hne)
  rcases (hrun.drift_of_first drifts rfl _ hmem).2 with ⟨first', hfirst', hdeclared'⟩
  rw [hfirst] at hfirst'
  cases hfirst'
  rw [hdeclared, hdeclared']

/-- A successful convergence is right about every message type, whatever the broker answers,
exactly when message types that share a topic agree with the first of them. -/
theorem convergence_sound_iff {mode : TopicMode} (hmode : mode ≠ .off)
    (descriptors : List TopicDescriptor) :
    ConvergesSoundly mode descriptors ↔ SharedTopicsAgree descriptors := by
  constructor
  · intro hsound descriptor hdescriptor first hfirst
    have hagree : ∀ partitions, descriptor.topicSpec.cleanupPolicy = first.topicSpec.cleanupPolicy ∧
        ∀ declared, descriptor.topicSpec.partitions = some declared → declared ≠ partitions →
          descriptor.topicSpec.partitions = first.topicSpec.partitions := by
      intro partitions
      have hrun := loopRun_convergeTopics (mirror descriptors partitions) hmode () descriptors
      rcases convergeLoop_mirror partitions hmode descriptors [] []
        { broker := (), calls := [] } rfl (by simp) with ⟨drifts, hdrifts⟩
      have hok : (convergeTopics (mirror descriptors partitions) mode () descriptors).2 =
          .ok drifts := by
        simp only [convergeTopics, if_neg hmode]
        exact hdrifts
      rw [hok] at hrun
      exact agree_of_sound_mirror hdescriptor hfirst hrun
        ((hsound Unit (mirror descriptors partitions) ()).2 drifts hok)
    refine ⟨(hagree 0).1, ?_⟩
    cases hdeclared : descriptor.topicSpec.partitions with
    | none =>
        exact Or.inl rfl
    | some declared =>
        refine Or.inr ?_
        rw [← hdeclared]
        by_cases hzero : declared = 0
        · exact (hagree 1).2 declared hdeclared (by rw [hzero]; decide)
        · exact (hagree 0).2 declared hdeclared hzero
  · intro hagree β admin broker
    have hrun := loopRun_convergeTopics admin hmode broker descriptors
    refine ⟨hrun.creates, fun drifts hok => ?_⟩
    rw [hok] at hrun
    exact sound_of_agree hrun hagree

instance (descriptors : List TopicDescriptor) : Decidable (SharedTopicsAgree descriptors) :=
  inferInstanceAs (Decidable (∀ descriptor ∈ descriptors, ∀ first ∈ _, _))

/-! ### One topic, two message types -/

def twelvePartitions : TopicSpec :=
  { TopicSpec.compacted with partitions := some 12 }

def orderSnapshot (spec : TopicSpec) : TopicDescriptor :=
  { messageType := "order_snapshot"
    topic := "orders"
    topicSpec := spec }

/-- A second type on the same topic. -/
def orderLine (spec : TopicSpec) : TopicDescriptor :=
  { messageType := "order_line"
    topic := "orders"
    topicSpec := spec }

/-- A type on a topic of its own. -/
def product : TopicDescriptor :=
  { messageType := "product"
    topic := "products"
    topicSpec := { TopicSpec.compacted with partitions := some 3 } }

theorem convergence_sound_iff_agreeing :
    ConvergesSoundly .create
      [orderSnapshot twelvePartitions, product, orderLine twelvePartitions] :=
  (convergence_sound_iff (by decide)
    [orderSnapshot twelvePartitions, product, orderLine twelvePartitions]).2 (by decide)

/-- The second type declares twelve partitions, the broker reports six, and nothing is said. -/
theorem shared_topic_drift_unreported :
    let types := [orderSnapshot .compacted, orderLine twelvePartitions]
    let run := convergeTopics (mirror types 6) .verify () types
    run.2 = .ok [] ∧ ¬ Sound types run.1.calls [] := by
  refine ⟨rfl, fun hsound => ?_⟩
  rcases hsound (orderLine twelvePartitions) (by simp) with ⟨observed, hlast, -, hdrift⟩
  have hsix : lastObservation
      (convergeTopics (mirror [orderSnapshot .compacted, orderLine twelvePartitions] 6) .verify ()
        [orderSnapshot .compacted, orderLine twelvePartitions]).1.calls "orders" =
      some (.ok (some
        { name := "orders"
          cleanupPolicy := .compact
          partitions := 6 })) := rfl
  rw [show (orderLine twelvePartitions).topic = "orders" from rfl, hsix] at hlast
  cases hlast
  exact (nomatch hdrift 12 rfl (by decide))

end Topics
end Kafkaman
