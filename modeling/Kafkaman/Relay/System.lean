import Mathlib.Logic.Function.Basic
import Kafkaman.Broker.Publish
import Kafkaman.Outbox.Fencing

/-!
# Relay.System — relay workers, publish requests in flight, and the topic

Any number of workers run `relay_once` against one outbox and one topic.  A cycle claims a batch and
then, row by row, publishes, waits and marks.  The claim, the broker's append and the mark are three
separate steps, and nothing ties the append to the moment the worker waits for it: a request that
has been sent can be appended at any later time, also after the worker was told it failed, or died.

* `Phase` — where a worker is in `relay_once_inner`;
* `next` — one step of a worker, the broker, a producer or the purger;
* `Step`, `step_of_next` — the same steps as a relation, which the proofs case on;
* `refines_outbox` — what the workers do to the outbox is a run of `Outbox.system`.
-/

namespace Kafkaman
namespace Relay

open Lib Outbox Broker

/-- What one cycle did. -/
structure RelayStats where
  claimed : Nat
  published : Nat
  failed : Nat
  stale : Nat
  missing : Nat
  deriving DecidableEq, Repr

def RelayStats.ofClaimed (claimed : Nat) : RelayStats :=
  { claimed := claimed
    published := 0
    failed := 0
    stale := 0
    missing := 0 }

/-- `Updated` counts by what was reported to the worker, a miss by its class. -/
def RelayStats.record (stats : RelayStats) (failure : Option String) : MarkOutcome → RelayStats
  | .updated =>
      match failure with
      | none => { stats with published := stats.published + 1 }
      | some _ => { stats with failed := stats.failed + 1 }
  | .staleClaim => { stats with stale := stats.stale + 1 }
  | .missing => { stats with missing := stats.missing + 1 }

/-- Where a worker is in its cycle, with the rest of its batch. -/
inductive Phase where
  /-- Between rows; with nothing left the cycle is over. -/
  | ready (rest : List ClaimedOutboxRow)
  /-- Waiting for a delivery report. -/
  | awaiting (request : Nat) (current : ClaimedOutboxRow) (rest : List ClaimedOutboxRow)
  /-- The report is in; `none` is an acknowledgement. -/
  | reported (failure : Option String) (current : ClaimedOutboxRow)
      (rest : List ClaimedOutboxRow)

structure Worker where
  phase : Phase
  stats : RelayStats

/-- A publish handed to the producer. -/
structure Request where
  id : Nat
  claimed : ClaimedOutboxRow
  record : OutgoingRecord

/-- A record of the topic, with the request it came from. -/
structure Appended where
  request : Request
  record : KafkaRecord

def Appended.row (entry : Appended) : OutboxRow :=
  entry.request.claimed.row

structure World where
  outbox : Outbox.State
  workers : Nat → Worker
  nextRequest : Nat
  /-- Requests the broker may still append. -/
  inFlight : List Request
  /-- The topic, oldest record first. -/
  log : List Appended

def World.initial : World :=
  { outbox := Outbox.State.initial
    workers := fun _ =>
      { phase := .ready []
        stats := RelayStats.ofClaimed 0 }
    nextRequest := 0
    inFlight := []
    log := [] }

def World.setPhase (w : World) (worker : Nat) (phase : Phase) : World :=
  { w with
    workers := Function.update w.workers worker
      { phase := phase
        stats := (w.workers worker).stats } }

/-! ## Steps -/

inductive Action (P : Type) where
  | enqueue (now : Timestamp) (evt : Envelope P) (trace : Option TraceContext)
      (visible : Uuid → Bool)
  | enqueueRolledBack
  | purge (now : Timestamp) (cfg : PurgeConfig) (locked : Uuid → Bool)
  | claim (worker : Nat) (args : ClaimArgs)
  /-- The next row of the batch goes to the producer, under the given span. -/
  | publish (worker : Nat) (trace : Option TraceContext)
  /-- The broker appends a request. -/
  | append (request : Nat)
  /-- The delivery report of an appended request reaches its worker. -/
  | acknowledge (worker : Nat)
  /-- The worker is told its publish failed, whether or not the broker stored it. -/
  | fail (worker : Nat) (error : String)
  | mark (worker : Nat) (now : Timestamp) (retryAfter : Micros)
  /-- The cycle ends early: the process dies, or a mark returns a database error. -/
  | crash (worker : Nat)

section Steps

variable {P : Type} (message : KafkaMessage P) (descriptor : MessageDescriptor) (codec : Codec)
  (partitioner : Option String → Int)

/-- The offset the next record of a partition gets. -/
def nextOffset (log : List Appended) (partition : Int) : Int :=
  (log.filter fun entry => entry.record.partition = partition).length

def appendRecord (w : World) (request : Request) : World :=
  let partition := partitioner request.record.key
  { w with
    inFlight := w.inFlight.filter fun r => r.id ≠ request.id
    log := w.log ++
      [{ request := request
         record := request.record.land partition (nextOffset w.log partition) }] }

/-- The mark a report leads to. -/
def markOf (failure : Option String) (retryAfter : Micros) : Mark :=
  match failure with
  | none => .published
  | some error => .publishFailed error retryAfter

def next (w : World) : Action P → Option World
  | .enqueue now evt trace visible =>
      (Outbox.next message descriptor w.outbox (.enqueue now evt trace visible)).map fun outbox =>
        { w with outbox := outbox }
  | .enqueueRolledBack =>
      (Outbox.next message descriptor w.outbox .enqueueRolledBack).map fun outbox =>
        { w with outbox := outbox }
  | .purge now cfg locked =>
      (Outbox.next message descriptor w.outbox (.purge now cfg locked)).map fun outbox =>
        { w with outbox := outbox }
  | .claim worker args =>
      match (w.workers worker).phase with
      | .ready [] =>
          let claimed := (claimOutcome args w.outbox.table).2
          (Outbox.next message descriptor w.outbox (.claim args)).map fun outbox =>
            { w with
              outbox := outbox
              workers := Function.update w.workers worker
                { phase := .ready claimed
                  stats := RelayStats.ofClaimed claimed.length } }
      | _ => none
  | .publish worker trace =>
      match (w.workers worker).phase with
      | .ready (current :: rest) =>
          match publishRowTraced codec current.row trace with
          | .error e => some (w.setPhase worker (.reported (some e.display) current rest))
          | .ok record =>
              some
                { w.setPhase worker (.awaiting w.nextRequest current rest) with
                  nextRequest := w.nextRequest + 1
                  inFlight :=
                    { id := w.nextRequest
                      claimed := current
                      record := record } :: w.inFlight }
      | _ => none
  -- No worker is consulted: a request outlives the worker that sent it.
  | .append id =>
      (w.inFlight.find? fun r => r.id = id).map (appendRecord partitioner w)
  | .acknowledge worker =>
      match (w.workers worker).phase with
      | .awaiting id current rest =>
          -- A success is reported for a stored record only; a failure may be reported for any.
          if w.log.any fun entry => entry.request.id = id then
            some (w.setPhase worker (.reported none current rest))
          else
            none
      | _ => none
  | .fail worker error =>
      match (w.workers worker).phase with
      | .awaiting _ current rest =>
          some (w.setPhase worker (.reported (some (PublishError.delivery error).display)
            current rest))
      | _ => none
  | .mark worker now retryAfter =>
      match (w.workers worker).phase with
      | .reported failure current rest =>
          let mark := markOf failure retryAfter
          let outcome := (markWith now mark current.messageId current.claimId w.outbox.table).2
          (Outbox.next message descriptor w.outbox
            (.mark now mark current.messageId current.claimId)).map fun outbox =>
              { w with
                outbox := outbox
                workers := Function.update w.workers worker
                  { phase := .ready rest
                    stats := (w.workers worker).stats.record failure outcome } }
      | _ => none
  | .crash worker => some (w.setPhase worker (.ready []))

def system : TransitionSystem World (Action P) :=
  { init := fun w => w = World.initial
    next := next message descriptor codec partitioner }

end Steps

/-! ## The steps as a relation -/

section Relation

variable {P : Type} (message : KafkaMessage P) (descriptor : MessageDescriptor) (codec : Codec)
  (partitioner : Option String → Int)

/-- Outbox transactions that no relay worker runs. -/
inductive External : Outbox.Action P → Prop where
  | enqueue {now : Timestamp} {evt : Envelope P} {trace : Option TraceContext}
      {visible : Uuid → Bool} : External (.enqueue now evt trace visible)
  | enqueueRolledBack : External .enqueueRolledBack
  | purge {now : Timestamp} {cfg : PurgeConfig} {locked : Uuid → Bool} :
      External (.purge now cfg locked)

/-- `next`, one constructor for each thing that can happen. -/
inductive Step (w : World) : Action P → World → Prop where
  | external {a : Action P} {b : Outbox.Action P} {outbox : Outbox.State} :
      External b → Outbox.next message descriptor w.outbox b = some outbox →
      Step w a { w with outbox := outbox }
  | claim {worker : Nat} {args : ClaimArgs} {outbox : Outbox.State} :
      (w.workers worker).phase = .ready [] →
      Outbox.next message descriptor w.outbox (.claim args) = some outbox →
      Step w (.claim worker args)
        { w with
          outbox := outbox
          workers := Function.update w.workers worker
            { phase := .ready (claimOutcome args w.outbox.table).2
              stats := RelayStats.ofClaimed (claimOutcome args w.outbox.table).2.length } }
  | refused {worker : Nat} {trace : Option TraceContext} {current : ClaimedOutboxRow}
      {rest : List ClaimedOutboxRow} {e : PublishError} :
      (w.workers worker).phase = .ready (current :: rest) →
      Step w (.publish worker trace)
        (w.setPhase worker (.reported (some e.display) current rest))
  | publish {worker : Nat} {trace : Option TraceContext} {current : ClaimedOutboxRow}
      {rest : List ClaimedOutboxRow} {record : OutgoingRecord} :
      (w.workers worker).phase = .ready (current :: rest) →
      publishRowTraced codec current.row trace = .ok record →
      Step w (.publish worker trace)
        { w.setPhase worker (.awaiting w.nextRequest current rest) with
          nextRequest := w.nextRequest + 1
          inFlight :=
            { id := w.nextRequest
              claimed := current
              record := record } :: w.inFlight }
  | append {request : Request} :
      request ∈ w.inFlight →
      Step w (.append request.id) (appendRecord partitioner w request)
  | acknowledge {worker id : Nat} {current : ClaimedOutboxRow} {rest : List ClaimedOutboxRow} :
      (w.workers worker).phase = .awaiting id current rest →
      (∃ entry ∈ w.log, entry.request.id = id) →
      Step w (.acknowledge worker) (w.setPhase worker (.reported none current rest))
  | fail {worker id : Nat} {error : String} {current : ClaimedOutboxRow}
      {rest : List ClaimedOutboxRow} :
      (w.workers worker).phase = .awaiting id current rest →
      Step w (.fail worker error)
        (w.setPhase worker (.reported (some (PublishError.delivery error).display) current rest))
  | mark {worker : Nat} {now : Timestamp} {retryAfter : Micros} {failure : Option String}
      {current : ClaimedOutboxRow} {rest : List ClaimedOutboxRow} {outbox : Outbox.State}
      {stats : RelayStats} :
      (w.workers worker).phase = .reported failure current rest →
      Outbox.next message descriptor w.outbox
        (.mark now (markOf failure retryAfter) current.messageId current.claimId) = some outbox →
      Step w (.mark worker now retryAfter)
        { w with
          outbox := outbox
          workers := Function.update w.workers worker
            { phase := .ready rest
              stats := stats } }
  | crash {worker : Nat} :
      Step w (.crash worker) (w.setPhase worker (.ready []))

variable {message descriptor codec partitioner}

theorem step_of_next {w w' : World} {a : Action P}
    (h : next message descriptor codec partitioner w a = some w') :
    Step message descriptor codec partitioner w a w' := by
  cases a with
  | enqueue now evt trace visible =>
      simp only [next, Option.map_eq_some_iff] at h
      rcases h with ⟨outbox, hnext, rfl⟩
      exact Step.external External.enqueue hnext
  | enqueueRolledBack =>
      simp only [next, Option.map_eq_some_iff] at h
      rcases h with ⟨outbox, hnext, rfl⟩
      exact Step.external External.enqueueRolledBack hnext
  | purge now cfg locked =>
      simp only [next, Option.map_eq_some_iff] at h
      rcases h with ⟨outbox, hnext, rfl⟩
      exact Step.external External.purge hnext
  | claim worker args =>
      simp only [next] at h
      split at h
      · rename_i hphase
        rcases Option.map_eq_some_iff.1 h with ⟨outbox, hnext, rfl⟩
        exact Step.claim hphase hnext
      · cases h
  | publish worker trace =>
      simp only [next] at h
      split at h
      · rename_i current rest hphase
        split at h
        · cases h
          exact Step.refused hphase
        · rename_i record hrecord
          cases h
          exact Step.publish hphase hrecord
      · cases h
  | append id =>
      rcases Option.map_eq_some_iff.1 h with ⟨request, hfind, rfl⟩
      have hid : request.id = id := by simpa using List.find?_some hfind
      exact hid ▸ Step.append (List.mem_of_find?_eq_some hfind)
  | acknowledge worker =>
      simp only [next] at h
      split at h
      · rename_i id current rest hphase
        split at h
        · rename_i hany
          cases h
          exact Step.acknowledge hphase (by simpa using hany)
        · cases h
      · cases h
  | fail worker error =>
      simp only [next] at h
      split at h
      · rename_i id current rest hphase
        cases h
        exact Step.fail hphase
      · cases h
  | mark worker now retryAfter =>
      simp only [next] at h
      split at h
      · rename_i failure current rest hphase
        rcases Option.map_eq_some_iff.1 h with ⟨outbox, hnext, rfl⟩
        exact Step.mark hphase hnext
      · cases h
  | crash worker =>
      cases h
      exact Step.crash

theorem Step.outbox {w w' : World} {a : Action P}
    (h : Step message descriptor codec partitioner w a w') :
    w'.outbox = w.outbox ∨ ∃ b, Outbox.next message descriptor w.outbox b = some w'.outbox := by
  cases h with
  | external _ hnext | claim _ hnext | mark _ hnext =>
      exact Or.inr ⟨_, hnext⟩
  | refused | publish | append | acknowledge | fail | crash =>
      exact Or.inl rfl

theorem Step.log {w w' : World} {a : Action P}
    (h : Step message descriptor codec partitioner w a w') :
    w'.log = w.log ∨
      ∃ request ∈ w.inFlight, a = .append request.id ∧
        w' = appendRecord partitioner w request := by
  cases h with
  | append hmem =>
      exact Or.inr ⟨_, hmem, rfl, rfl⟩
  | external | claim | mark | refused | publish | acknowledge | fail | crash =>
      exact Or.inl rfl

/-- Seen through its outbox, the relay runs outbox transactions. -/
theorem refines_outbox (ok : World → Action P → Prop) :
    TransitionSystem.Refines (system message descriptor codec partitioner) ok
      (Outbox.system message descriptor) (fun _ _ => True) World.outbox where
  start := by
    rintro w rfl
    rfl
  step := by
    intro w a w' _ hnext
    rcases (step_of_next hnext).outbox with hsame | ⟨b, hb⟩
    · exact Or.inl hsame
    · exact Or.inr ⟨b, trivial, hb⟩

end Relation

end Relay
end Kafkaman
