import Kafkaman.Dispatch.Convergence
import Kafkaman.Ingest.Accounting
import Kafkaman.Relay.Delivery

/-!
# EndToEnd.System — from one service's outbox to another service's cache

The relay's world and the consumer's world, joined by the topic: an ingest takes any record of it, at
any time and any number of times, so that every order of deliveries and redeliveries is a run.  The
committed offset therefore plays no part here.

* `refines_relay`, `refines_consumer` — each half of a run is a run of its own system;
* `Stems` — a received row and the record it was decoded from;
* `Joined` — received rows stem from the topic, and ingested records are accounted for.
-/

namespace Kafkaman
namespace EndToEnd

open Lib Broker Received

/-- One message type, its publishing and its consuming service. -/
structure Pipeline (P σ ω : Type) where
  message : ConsumedMessage P
  descriptor : MessageDescriptor
  codec : Codec
  partitioner : Option String → Int
  maxConsecutiveSkips : Nat
  router : Dispatch.MessageRouter σ ω
  retry : RetryPolicy

namespace Pipeline

variable {P σ ω : Type} (pipeline : Pipeline P σ ω)

def relay : TransitionSystem Relay.World (Relay.Action P) :=
  Relay.system pipeline.message.toKafkaMessage pipeline.descriptor pipeline.codec
    pipeline.partitioner

def consumer : Ingest.Consumer P :=
  { message := pipeline.message
    descriptor := pipeline.descriptor
    codec := pipeline.codec
    maxConsecutiveSkips := pipeline.maxConsecutiveSkips }

def dispatcher : Dispatch.Dispatcher σ ω :=
  { router := pipeline.router
    descriptor := pipeline.descriptor
    retry := pipeline.retry
    codec := pipeline.codec }

end Pipeline

structure World (σ : Type) where
  relay : Relay.World
  consumer : Dispatch.World σ
  quarantine : QuarantineTable
  skips : Nat
  /-- History: the records, by their place in the topic, whose ingest was seen to commit. -/
  ingested : List Nat

/-- What an ingest cycle works on. -/
def World.store {σ : Type} (w : World σ) : Ingest.Store :=
  { received := w.consumer.db.received
    quarantine := w.quarantine
    skips := w.skips
    committed := 0 }

inductive Action (P σ ω : Type) where
  | relay (a : Relay.Action P)
  | ingest (index : Nat) (env : Ingest.CycleEnv)
  /-- A step of the consumer on its own; received rows come from ingests only. -/
  | consumer (a : Dispatch.Action ω σ)

section System

variable {P σ ω : Type} (pipeline : Pipeline P σ ω)

/-- One ingest cycle on a record of the topic. -/
def ingest (w : World σ) (index : Nat) (entry : Relay.Appended) (env : Ingest.CycleEnv) :
    World σ :=
  let result := Ingest.ingestOnce pipeline.consumer env entry.record w.store
  { w with
    consumer :=
      { w.consumer with
        db := { w.consumer.db with received := result.store.received } }
    quarantine := result.store.quarantine
    skips := result.store.skips
    ingested := if result.written then index :: w.ingested else w.ingested }

def next (w : World σ) : Action P σ ω → Option (World σ)
  | .relay a => (pipeline.relay.next w.relay a).map fun relay => { w with relay := relay }
  | .ingest index env =>
      match w.relay.log[index]? with
      | none => none
      | some entry => some (ingest pipeline w index entry env)
  | .consumer (.ingest _ _) => none
  | .consumer a =>
      (Dispatch.next pipeline.dispatcher w.consumer a).map fun consumer =>
        { w with consumer := consumer }

def World.initial (app : σ) : World σ :=
  { relay := Relay.World.initial
    consumer :=
      { db :=
          { received := ReceivedTable.empty
            cache := Table.empty
            app := app }
        fallbacks := []
        executions := [] }
    quarantine := Table.empty
    skips := 0
    ingested := [] }

def system : TransitionSystem (World σ) (Action P σ ω) :=
  { init := fun w => ∃ app, w = World.initial app
    next := next pipeline }

/-- Appends happen under a live lease. -/
def LeaseLive (w : World σ) : Action P σ ω → Prop
  | .relay a => Relay.LeaseLive w.relay a
  | _ => True

instance (w : World σ) (a : Action P σ ω) : Decidable (LeaseLive w a) :=
  match a with
  | .relay b => inferInstanceAs (Decidable (Relay.LeaseLive w.relay b))
  | .ingest _ _ | .consumer _ => isTrue trivial

/-! ## What a step can do -/

inductive Step (w : World σ) (a : Action P σ ω) (w' : World σ) : Prop where
  | relay (b : Relay.Action P) (relay : Relay.World) :
      a = .relay b → pipeline.relay.next w.relay b = some relay →
      w' = { w with relay := relay } → Step w a w'
  | ingest (index : Nat) (entry : Relay.Appended) (env : Ingest.CycleEnv) :
      w.relay.log[index]? = some entry → w' = ingest pipeline w index entry env → Step w a w'
  | consumer (b : Dispatch.Action ω σ) (consumer : Dispatch.World σ) :
      (∀ insert now, b ≠ .ingest insert now) →
      (Dispatch.system pipeline.dispatcher).next w.consumer b = some consumer →
      w' = { w with consumer := consumer } → Step w a w'

variable {pipeline} {w w' : World σ} {a : Action P σ ω}

theorem step_of_next (h : (system pipeline).next w a = some w') : Step pipeline w a w' := by
  simp only [system, next] at h
  split at h
  · rename_i b
    rcases Option.map_eq_some_iff.1 h with ⟨relay, hnext, heq⟩
    exact Step.relay b relay rfl hnext heq.symm
  · split at h
    · cases h
    · rename_i entry hentry
      exact Step.ingest _ entry _ hentry (Option.some.inj h).symm
  · cases h
  · rename_i b hb
    rcases Option.map_eq_some_iff.1 h with ⟨consumer, hnext, heq⟩
    exact Step.consumer b consumer hb hnext heq.symm

/-- The row was decoded from the record. -/
def Stems (pipeline : Pipeline P σ ω) (row : ReceivedRow) (record : KafkaRecord) : Prop :=
  ∃ arrival trace decoded insert now,
    recordEnvelope pipeline.message pipeline.codec arrival record pipeline.descriptor.topic
      (RecordHeaders.of record) = .ok decoded ∧
    prepareReceived pipeline.message.toKafkaMessage pipeline.descriptor decoded.envelope
      record.partition record.offset decoded.key trace = .ok insert ∧
    row.frozen = (insert.row now).frozen

/-- To the consumer, an ingest is one of its inserts, of a row that stems from the record, or
nothing at all. -/
theorem consumer_ingest (pipeline : Pipeline P σ ω) (w : World σ) (index : Nat)
    (entry : Relay.Appended) (env : Ingest.CycleEnv) :
    (ingest pipeline w index entry env).consumer = w.consumer ∨
      ∃ insert, (∀ row, row.frozen = (insert.row env.now).frozen → Stems pipeline row entry.record) ∧
        (Dispatch.system pipeline.dispatcher).next w.consumer (.ingest insert env.now) =
          some (ingest pipeline w index entry env).consumer := by
  rcases Ingest.received_ingestOnce pipeline.consumer env entry.record w.store with
    hsame | ⟨decoded, insert, hdecoded, hinsert, hreceived⟩
  · left
    simp only [ingest, hsame]
    rfl
  · right
    refine ⟨insert, ?_, ?_⟩
    · intro row hfrozen
      exact ⟨env.arrival, env.trace, decoded, insert, env.now, hdecoded, hinsert, hfrozen⟩
    · simp only [ingest, hreceived, Dispatch.system, Dispatch.next]
      rfl

/-- The relay's half. -/
theorem refines_relay (pipeline : Pipeline P σ ω) :
    TransitionSystem.Refines (system pipeline) LeaseLive pipeline.relay Relay.LeaseLive
      World.relay where
  start := by
    rintro w ⟨app, rfl⟩
    rfl
  step := by
    intro w a w' hok hnext
    cases step_of_next hnext with
    | relay b relay ha hrelay hw' =>
        subst ha hw'
        exact Or.inr ⟨b, hok, hrelay⟩
    | ingest index entry env _ hw' =>
        subst hw'
        exact Or.inl rfl
    | consumer b consumer _ _ hw' =>
        subst hw'
        exact Or.inl rfl

/-- The same, whether leases are kept or not. -/
theorem refines_relay_free (pipeline : Pipeline P σ ω) :
    TransitionSystem.Refines (system pipeline) (fun _ _ => True) pipeline.relay (fun _ _ => True)
      World.relay where
  start := by
    rintro w ⟨app, rfl⟩
    rfl
  step := by
    intro w a w' _ hnext
    cases step_of_next hnext with
    | relay b relay _ hrelay hw' =>
        subst hw'
        exact Or.inr ⟨b, trivial, hrelay⟩
    | ingest index entry env _ hw' =>
        subst hw'
        exact Or.inl rfl
    | consumer b consumer _ _ hw' =>
        subst hw'
        exact Or.inl rfl

/-- The consumer's half: an ingest is one of its inserts, or nothing. -/
theorem refines_consumer (pipeline : Pipeline P σ ω) {ok : World σ → Action P σ ω → Prop} :
    TransitionSystem.Refines (system pipeline) ok (Dispatch.system pipeline.dispatcher)
      (fun _ _ => True) World.consumer where
  start := by
    rintro w ⟨app, rfl⟩
    exact ⟨rfl, fun r hr => absurd hr ReceivedTable.not_mem_empty, rfl, rfl⟩
  step := by
    intro w a w' _ hnext
    cases step_of_next hnext with
    | relay b relay _ _ hw' =>
        subst hw'
        exact Or.inl rfl
    | ingest index entry env _ hw' =>
        subst hw'
        rcases consumer_ingest pipeline w index entry env with hsame | ⟨insert, -, hinsert⟩
        · exact Or.inl hsame
        · exact Or.inr ⟨_, trivial, hinsert⟩
    | consumer b consumer _ hconsumer hw' =>
        subst hw'
        exact Or.inr ⟨b, trivial, hconsumer⟩

/-! ## The two halves joined -/

/-- What the received relation has of the topic. -/
structure Joined (pipeline : Pipeline P σ ω) (w : World σ) : Prop where
  stems : ∀ r ∈ w.consumer.db.received, ∃ entry ∈ w.relay.log, Stems pipeline r entry.record
  accounted : ∀ index ∈ w.ingested, ∃ entry, w.relay.log[index]? = some entry ∧
    Ingest.Accounted pipeline.codec w.store entry.record

theorem Stems.of_frozen {r r' : ReceivedRow} {record : KafkaRecord}
    (h : Stems pipeline r record) (hfrozen : r'.frozen = r.frozen) : Stems pipeline r' record := by
  rcases h with ⟨arrival, trace, decoded, insert, now, hdecoded, hinsert, hrow⟩
  exact ⟨arrival, trace, decoded, insert, now, hdecoded, hinsert, hfrozen.trans hrow⟩

theorem accounted_of_persists {codec : Codec} {store store' : Ingest.Store}
    {record : KafkaRecord} (h : Ingest.Accounted codec store record)
    (hreceived : store.received.Persists store'.received)
    (hquarantine : ∀ source, store.quarantine.HasKey source → store'.quarantine.HasKey source) :
    Ingest.Accounted codec store' record := by
  rcases h with ⟨r, hr, htopic, hpartition, hoffset⟩ | ⟨r, hr, hkey⟩ | hsource
  · rcases hreceived r hr with ⟨r', hr', hfrozen⟩
    have horigin := Dispatch.rowOrigin_of_frozen hfrozen
    exact Or.inl ⟨r', hr', (congrArg Dispatch.Origin.topic horigin).trans htopic,
      (congrArg Dispatch.Origin.partition horigin).trans hpartition,
      (congrArg Dispatch.Origin.offset horigin).trans hoffset⟩
  · rcases hreceived r hr with ⟨r', hr', hfrozen⟩
    exact Or.inr (Or.inl ⟨r', hr', by rw [hkey, idempotencyKey_of_frozen hfrozen]⟩)
  · exact Or.inr (Or.inr (hquarantine _ hsource))

theorem log_extends {b : Relay.Action P} {relay relay' : Relay.World}
    (h : pipeline.relay.next relay b = some relay') : ∃ more, relay'.log = relay.log ++ more := by
  rcases (Relay.step_of_next h).log with hsame | ⟨request, -, -, rfl⟩
  · exact ⟨[], by rw [hsame, List.append_nil]⟩
  · exact ⟨_, rfl⟩

theorem Joined.relay {relay : Relay.World} {b : Relay.Action P} (h : Joined pipeline w)
    (hnext : pipeline.relay.next w.relay b = some relay) :
    Joined pipeline { w with relay := relay } := by
  rcases log_extends hnext with ⟨more, hlog⟩
  refine
    { stems := ?_
      accounted := ?_ }
  · intro r hr
    rcases h.stems r hr with ⟨entry, hentry, hstems⟩
    exact ⟨entry, hlog ▸ List.mem_append_left more hentry, hstems⟩
  · intro index hindex
    rcases h.accounted index hindex with ⟨entry, hentry, haccounted⟩
    refine ⟨entry, ?_, haccounted⟩
    have hlt : index < w.relay.log.length := (List.getElem?_eq_some_iff.1 hentry).1
    simp only [hlog]
    rw [List.getElem?_append_left hlt, hentry]

theorem Joined.consumer {consumer : Dispatch.World σ} {b : Dispatch.Action ω σ}
    (h : Joined pipeline w) (hb : ∀ insert now, b ≠ .ingest insert now)
    (hnext : (Dispatch.system pipeline.dispatcher).next w.consumer b = some consumer) :
    Joined pipeline { w with consumer := consumer } := by
  have hstep := Dispatch.step_of_next hnext
  refine
    { stems := ?_
      accounted := ?_ }
  · intro r' hr'
    rcases hstep.origin hr' with ⟨r, hr, hfrozen⟩ | ⟨insert, now, hingest, -⟩
    · rcases h.stems r hr with ⟨entry, hentry, hstems⟩
      exact ⟨entry, hentry, hstems.of_frozen hfrozen⟩
    · exact absurd hingest (hb insert now)
  · intro index hindex
    rcases h.accounted index hindex with ⟨entry, hentry, haccounted⟩
    exact ⟨entry, hentry, accounted_of_persists haccounted hstep.persists fun _ hs => hs⟩

theorem Joined.ingest (h : Joined pipeline w) {index : Nat} {entry : Relay.Appended}
    (env : Ingest.CycleEnv) (hentry : w.relay.log[index]? = some entry) :
    Joined pipeline (EndToEnd.ingest pipeline w index entry env) := by
  have hcycle : Ingest.Cycle pipeline.consumer.codec entry.record w.store
      (Ingest.ingestOnce pipeline.consumer env entry.record w.store) :=
    Ingest.cycle_ingestOnce
  refine
    { stems := ?_
      accounted := ?_ }
  · intro r hr
    rcases consumer_ingest pipeline w index entry env with hsame | ⟨insert, hstems, hinsert⟩
    · rw [hsame] at hr
      exact h.stems r hr
    · rcases (Dispatch.step_of_next hinsert).origin hr with ⟨r₀, hr₀, hfrozen⟩ | ⟨_, _, heq, hnew⟩
      · rcases h.stems r₀ hr₀ with ⟨entry', hentry', hstems'⟩
        exact ⟨entry', hentry', hstems'.of_frozen hfrozen⟩
      · cases heq
        exact ⟨entry, List.mem_of_getElem? hentry, hstems r (by rw [hnew])⟩
  · intro index' hindex'
    have hold : index' ∈ w.ingested → ∃ entry', w.relay.log[index']? = some entry' ∧
        Ingest.Accounted pipeline.codec (EndToEnd.ingest pipeline w index entry env).store
          entry'.record := by
      intro hmem
      rcases h.accounted index' hmem with ⟨entry', hentry', haccounted⟩
      exact ⟨entry', hentry', haccounted.mono hcycle.received hcycle.quarantine⟩
    -- A cycle that wrote nothing adds no index.
    by_cases hwritten : (Ingest.ingestOnce pipeline.consumer env entry.record w.store).written
    · simp only [EndToEnd.ingest, hwritten, if_true] at hindex'
      rcases List.mem_cons.1 hindex' with rfl | hmem
      · exact ⟨entry, hentry, (hcycle.accounted hwritten).mono (fun _ hr => hr) (fun _ hs => hs)⟩
      · exact hold hmem
    · simp only [EndToEnd.ingest, hwritten] at hindex'
      exact hold hindex'

theorem joined_of_run {ok : World σ → Action P σ ω → Prop}
    (h : (system pipeline).ReachableBy ok w) : Joined pipeline w := by
  refine TransitionSystem.ReachableBy.invariant (I := Joined pipeline) ?_ ?_ h
  · rintro w ⟨app, rfl⟩
    exact
      { stems := fun r hr => absurd hr ReceivedTable.not_mem_empty
        accounted := fun _ hindex => nomatch hindex }
  · intro w a w' hjoined _ hnext
    cases step_of_next hnext with
    | relay b relay _ hrelay hw' =>
        subst hw'
        exact hjoined.relay hrelay
    | ingest index entry env hentry hw' =>
        subst hw'
        exact hjoined.ingest env hentry
    | consumer b consumer hb hconsumer hw' =>
        subst hw'
        exact hjoined.consumer hb hconsumer

end System

end EndToEnd
end Kafkaman
