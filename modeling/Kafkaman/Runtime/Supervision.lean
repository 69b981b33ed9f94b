import Kafkaman.Core.Basic
import Kafkaman.Lib.TransitionSystem
import Mathlib.Data.List.Perm.Basic
import Mathlib.Logic.Function.Basic

/-!
# Runtime.Supervision — waiting for the first loop, and draining the rest

`run` waits for one loop to end and then shuts the runtime down.  Loops end, the host cancels and time
passes in between, so the supervisor moves in small steps here, each of them one look at what is
shared: the tasks that have ended, the token, the clock.

The loops have `timeout` to finish after the cancellation.  The drain measures it from its own start,
which is after the cancellation, and looks at a completion before it looks at the clock.

* `RuntimeTasks.classifyCompletion` — what a completion means in each phase;
* `State.advance` — the supervisor: `wait`, the check of the token, the sweep, the drain;
* `observed` — the completions the supervisor has seen, with the token as it was, oldest first;
* `Tracks`, `tracks_of_run` — the error held in each phase is the first failure observed;
* `Reports` — what `run` has to return, the deadline counted from the cancellation;
* `Kept`, `Tracks.reports_iff` — when that is what it returns;
* `OnTime`, `run_reports_iff` — the schedules with that end.
-/

namespace Kafkaman
namespace Runtime

open Lib

/-! ## Tasks -/

/-- A task id; the loops are spawned under the ids `0, 1, …`. -/
abbrev TaskId : Type := Nat

/-- How a loop ends. -/
inductive Outcome where
  | clean
  | error (source : String)
  | panic (message : String)
  deriving DecidableEq, Repr

/-- What joining a task yields: the loop's own result or a `JoinError`. -/
inductive Joined where
  | finished (id : TaskId) (result : Except String Unit)
  | cancelled (id : TaskId)
  | panicked (id : TaskId) (message : String)

/-- Nothing aborts a loop before the drain is over, so none is joined as cancelled. -/
def Outcome.joined (outcome : Outcome) (id : TaskId) : Joined :=
  match outcome with
  | .clean => .finished id (.ok ())
  | .error source => .finished id (.error source)
  | .panic message => .panicked id message

/-- The variants of `RuntimeError` that supervision reports. -/
inductive RuntimeError where
  | loop (loopName source : String)
  | loopExited (loopName message : String)
  | panicked (loopName source : String)
  | drainTimeout (timeout : Nanos) (remaining : Nat)
  deriving DecidableEq, Repr

/-- The loops, the token they share and their names.  `shutdown` is when the token was cancelled;
`ready` holds the tasks that have ended and are not joined yet, oldest first. -/
structure RuntimeTasks where
  shutdown : Option Nanos
  running : List TaskId
  ready : List (TaskId × Outcome)
  names : TaskId → Option String

namespace RuntimeTasks

def empty : RuntimeTasks :=
  { shutdown := none
    running := []
    ready := []
    names := fun _ => none }

def spawnLoop (tasks : RuntimeTasks) (id : TaskId) (name : String) : RuntimeTasks :=
  { tasks with
    running := tasks.running ++ [id]
    names := Function.update tasks.names id (some name) }

def spawn (loops : List String) : RuntimeTasks :=
  loops.zipIdx.foldl (fun tasks entry => tasks.spawnLoop entry.2 entry.1) empty

def len (tasks : RuntimeTasks) : Nat :=
  tasks.running.length + tasks.ready.length

/-- `CancellationToken::is_cancelled`. -/
def isCancelled (tasks : RuntimeTasks) : Bool :=
  tasks.shutdown.isSome

/-- `CancellationToken::cancel`, which changes nothing the second time. -/
def cancel (tasks : RuntimeTasks) (now : Nanos) : RuntimeTasks :=
  { tasks with shutdown := tasks.shutdown.or (some now) }

/-- A loop ends. -/
def complete (tasks : RuntimeTasks) (id : TaskId) (outcome : Outcome) : RuntimeTasks :=
  { tasks with
    running := tasks.running.erase id
    ready := tasks.ready ++ [(id, outcome)] }

/-- `try_join_next_with_id`. -/
def tryJoinNext (tasks : RuntimeTasks) : Option ((TaskId × Outcome) × RuntimeTasks) :=
  match tasks.ready with
  | [] => none
  | entry :: ready => some (entry, { tasks with ready := ready })

/-- One poll of `join_next_with_id`: `none` while it is pending, `some none` once no task is left. -/
def joinNext (tasks : RuntimeTasks) : Option (Option ((TaskId × Outcome) × RuntimeTasks)) :=
  match tasks.tryJoinNext with
  | some joined => some (some joined)
  | none => if tasks.running = [] then some none else none

def takeName (tasks : RuntimeTasks) (id : TaskId) : String × RuntimeTasks :=
  ((tasks.names id).getD ("unknown-task-Id(" ++ toString id ++ ")"),
    { tasks with names := Function.update tasks.names id none })

def classifyCompletion (tasks : RuntimeTasks) (joined : Joined)
    (cleanExitBeforeShutdownIsError : Bool) : Option RuntimeError × RuntimeTasks :=
  match joined with
  | .finished id (.error source) =>
      let (loopName, tasks) := tasks.takeName id
      (some (.loop loopName source), tasks)
  | .finished id (.ok ()) =>
      let (loopName, tasks) := tasks.takeName id
      if cleanExitBeforeShutdownIsError then
        (some (.loopExited loopName "completed before shutdown"), tasks)
      else
        (none, tasks)
  | .cancelled id => (none, (tasks.takeName id).2)
  | .panicked id message =>
      let (loopName, tasks) := tasks.takeName id
      (some (.panicked loopName message), tasks)

end RuntimeTasks

/-! ## The supervisor -/

/-- `first.and(drained)`. -/
def andThen (first drained : Except RuntimeError Unit) : Except RuntimeError Unit :=
  match first with
  | .ok () => drained
  | .error e => .error e

def toResult : Option RuntimeError → Except RuntimeError Unit
  | some e => .error e
  | none => .ok ()

/-- Where `run` is; `waited` is what `wait` returned, `first` the error `shutdown` holds. -/
inductive Phase where
  | waiting
  /-- At the top of `shutdown_with_timeout`. -/
  | stopping (waited : Except RuntimeError Unit)
  /-- In `drain_ready_before_shutdown`. -/
  | sweeping (waited : Except RuntimeError Unit) (first : Option RuntimeError)
  | draining (waited : Except RuntimeError Unit) (first : Option RuntimeError) (deadline : Nanos)
  | returned (result : Except RuntimeError Unit)

def Phase.isReturned : Phase → Bool
  | .returned _ => true
  | _ => false

/-- A completion, with when the supervisor saw it and whether the token was cancelled then. -/
structure Observation where
  id : TaskId
  outcome : Outcome
  cancelled : Bool
  time : Nanos
  deriving DecidableEq, Repr

/-- `observed` is history that nothing reads. -/
structure State where
  tasks : RuntimeTasks
  now : Nanos
  phase : Phase
  observed : List Observation

def State.start (loops : List String) : State :=
  { tasks := .spawn loops
    now := 0
    phase := .waiting
    observed := [] }

/-- Classify a joined task; `goto` says where the supervisor goes with the answer. -/
def State.observe (s : State) (entry : TaskId × Outcome) (rest : RuntimeTasks)
    (cleanExitBeforeShutdownIsError : Bool) (goto : Option RuntimeError → Phase) : State :=
  let (failure, tasks) :=
    rest.classifyCompletion (entry.2.joined entry.1) cleanExitBeforeShutdownIsError
  { s with
    tasks := tasks
    phase := goto failure
    observed := s.observed ++
      [{ id := entry.1, outcome := entry.2, cancelled := s.tasks.isCancelled, time := s.now }] }

/-- The next step of `run`, if it is not pending and has not returned. -/
def State.advance (timeout : Nanos) (s : State) : Option State :=
  match s.phase with
  | .waiting =>
      match s.tasks.joinNext with
      | none => none
      | some none => some { s with phase := .stopping (.ok ()) }
      | some (some (entry, rest)) =>
          some
            (s.observe entry rest (!s.tasks.isCancelled) fun failure => .stopping (toResult failure))
  | .stopping waited =>
      if s.tasks.isCancelled then
        some { s with phase := .draining waited none (s.now + timeout) }
      else
        some { s with phase := .sweeping waited none }
  | .sweeping waited first =>
      match s.tasks.tryJoinNext with
      | some (entry, rest) =>
          some (s.observe entry rest true fun failure => .sweeping waited (first <|> failure))
      | none =>
          some
            { s with
              tasks := s.tasks.cancel s.now
              phase := .draining waited first (s.now + timeout) }
  | .draining waited first deadline =>
      if timeout = 0 then
        some { s with phase := .returned (andThen waited (toResult first)) }
      else
        match s.tasks.joinNext with
        | some (some (entry, rest)) =>
            some
              (s.observe entry rest false fun failure =>
                .draining waited (first <|> failure) deadline)
        | some none => some { s with phase := .returned (andThen waited (toResult first)) }
        | none =>
            -- `timeout_at` looks at the timer only when there is nothing to join.
            if deadline ≤ s.now then
              some
                { s with
                  phase := .returned (andThen waited (.error
                    (first.getD (.drainTimeout timeout s.tasks.len)))) }
            else
              none
  | .returned _ => none

/-! ## Schedules -/

inductive Event where
  | complete (id : TaskId) (outcome : Outcome)
  /-- The host cancels the token. -/
  | cancel
  /-- Time passes. -/
  | elapse (nanos : Nanos)
  /-- The supervisor runs. -/
  | poll
  deriving DecidableEq, Repr

def next (timeout : Nanos) (s : State) : Event → Option State
  | .complete id outcome =>
      if id ∈ s.tasks.running then some { s with tasks := s.tasks.complete id outcome } else none
  | .cancel => some { s with tasks := s.tasks.cancel s.now }
  | .elapse nanos => some { s with now := s.now + nanos }
  | .poll => some ((s.advance timeout).getD s)

/-- `Runtime::run`, with `timeout` for the bound of its drain, against every schedule. -/
def supervision (timeout : Nanos) (loops : List String) : TransitionSystem State Event :=
  { init := fun s => s = State.start loops
    next := next timeout }

def defaultDrainTimeout : Nanos :=
  30 * 1000000000

/-- The completions of a schedule, in the order they happen. -/
def completions (es : List Event) : List (TaskId × Outcome) :=
  es.filterMap fun e =>
    match e with
    | .complete id outcome => some (id, outcome)
    | _ => none

/-- The loops had `timeout` to finish after the cancellation, and at `time` it is over. -/
def overdue (timeout : Nanos) (shutdown : Option Nanos) (time : Nanos) : Bool :=
  shutdown.any fun cancelled => cancelled + timeout ≤ time

/-- The drain, if there is one, has no deadline left to wait for. -/
def Phase.timerDone (now : Nanos) : Phase → Bool
  | .draining _ _ deadline => deadline ≤ now
  | _ => true

/-- Nothing is left for the supervisor to do, and no deadline for anyone to wait for. -/
def Settled (timeout : Nanos) (s : State) : Prop :=
  (s.advance timeout).isNone = true ∧ s.phase.timerDone s.now = true ∧
    (s.tasks.isCancelled = true → overdue timeout s.tasks.shutdown s.now = true)

instance (timeout : Nanos) (s : State) : Decidable (Settled timeout s) :=
  inferInstanceAs (Decidable (_ ∧ _ ∧ _))

/-! ## Failures -/

/-- A loop error, a panic, or a clean exit seen before shutdown was requested. -/
def Observation.failing (o : Observation) : Bool :=
  match o.outcome with
  | .clean => !o.cancelled
  | .error _ | .panic _ => true

/-- A failing completion as an error under the name of its loop. -/
def Observation.error (o : Observation) (loopName : String) : RuntimeError :=
  match o.outcome with
  | .clean => .loopExited loopName "completed before shutdown"
  | .error source => .loop loopName source
  | .panic message => .panicked loopName message

/-- What `take_name` finds for a loop that has not been joined. -/
def ownName (loops : List String) (id : TaskId) : String :=
  loops[id]?.getD ("unknown-task-Id(" ++ toString id ++ ")")

def Observation.failure (loops : List String) (o : Observation) : Option RuntimeError :=
  if o.failing then some (o.error (ownName loops o.id)) else none

def firstFailure (loops : List String) (observed : List Observation) : Option RuntimeError :=
  observed.findSome? (Observation.failure loops)

section Failures

variable {loops : List String} {observed : List Observation} {o : Observation}

theorem firstFailure_append :
    firstFailure loops (observed ++ [o]) = (firstFailure loops observed <|> o.failure loops) := by
  simp [firstFailure, List.findSome?_append]

theorem firstFailure_eq_none :
    firstFailure loops observed = none ↔ ∀ o ∈ observed, o.failing = false := by
  simp [firstFailure, Observation.failure]

theorem firstFailure_of_find? (h : observed.find? Observation.failing = some o) :
    firstFailure loops observed = some (o.error (ownName loops o.id)) := by
  induction observed with
  | nil =>
      cases h
  | cons a observed ih =>
      cases ha : a.failing with
      | true =>
          have heq : a = o := by simpa [ha] using h
          subst heq
          simp [firstFailure, Observation.failure, ha]
      | false =>
          have htail : observed.find? Observation.failing = some o := by simpa [ha] using h
          simpa [firstFailure, Observation.failure, ha] using ih htail

theorem classifyCompletion_joined (tasks : RuntimeTasks) (hname : tasks.names o.id = loops[o.id]?)
    (cleanExitBeforeShutdownIsError : Bool) :
    tasks.classifyCompletion (o.outcome.joined o.id) cleanExitBeforeShutdownIsError =
      ({ o with cancelled := !cleanExitBeforeShutdownIsError }.failure loops,
        (tasks.takeName o.id).2) := by
  have htaken : (tasks.takeName o.id).1 = ownName loops o.id := by
    simp [RuntimeTasks.takeName, ownName, hname]
  cases o.outcome with
  | clean =>
      cases cleanExitBeforeShutdownIsError <;>
        simp [Outcome.joined, RuntimeTasks.classifyCompletion, Observation.failure,
          Observation.failing, Observation.error, htaken]
  | error text | panic text =>
      simp [Outcome.joined, RuntimeTasks.classifyCompletion, Observation.failure,
        Observation.failing, Observation.error, htaken]

end Failures

/-! ## Joining -/

section Joining

variable {tasks rest : RuntimeTasks} {entry : TaskId × Outcome}

theorem tryJoinNext_eq_some :
    tasks.tryJoinNext = some (entry, rest) ↔
      ∃ ready, tasks.ready = entry :: ready ∧ rest = { tasks with ready := ready } := by
  unfold RuntimeTasks.tryJoinNext
  split
  · rename_i hready
    simp [hready]
  · rename_i first ready hready
    simp [hready, and_assoc, eq_comm]

theorem joinNext_eq_joined :
    tasks.joinNext = some (some (entry, rest)) ↔ tasks.tryJoinNext = some (entry, rest) := by
  unfold RuntimeTasks.joinNext
  split
  · rename_i joined hjoined
    simp [hjoined]
  · rename_i hnone
    split <;> simp [hnone]

theorem joinNext_eq_done :
    tasks.joinNext = some none ↔ tasks.ready = [] ∧ tasks.running = [] := by
  cases hready : tasks.ready <;> simp [RuntimeTasks.joinNext, RuntimeTasks.tryJoinNext, hready]

theorem joinNext_eq_none :
    tasks.joinNext = none ↔ tasks.ready = [] ∧ tasks.running ≠ [] := by
  cases hready : tasks.ready <;> simp [RuntimeTasks.joinNext, RuntimeTasks.tryJoinNext, hready]

end Joining

/-! ## Where the tasks are -/

/-- Every loop is running, ready or observed, and has its name until it is observed; what is observed
is what happened, in that order. -/
structure Accounts (loops : List String) (es : List Event) (s : State) : Prop where
  tasks : (s.tasks.running ++ (s.tasks.ready.map Prod.fst ++ s.observed.map Observation.id)).Perm
    (List.range loops.length)
  names : ∀ id, id ∈ s.tasks.running ∨ id ∈ s.tasks.ready.map Prod.fst →
    s.tasks.names id = loops[id]?
  order : (s.observed.map fun o => (o.id, o.outcome)) ++ s.tasks.ready = completions es

section Accounting

variable {loops : List String} {es : List Event} {s : State}

theorem completions_append (es : List Event) (e : Event) :
    completions (es ++ [e]) = completions es ++ completions [e] := by
  simp [completions]

theorem Accounts.length (h : Accounts loops es s) :
    s.tasks.len + s.observed.length = loops.length := by
  have hlen := h.tasks.length_eq
  simp only [List.length_append, List.length_map, List.length_range] at hlen
  simp only [RuntimeTasks.len]
  omega

theorem Accounts.nodup (h : Accounts loops es s) :
    (s.tasks.running ++ (s.tasks.ready.map Prod.fst ++ s.observed.map Observation.id)).Nodup :=
  h.tasks.nodup_iff.2 List.nodup_range

theorem Accounts.id_lt (h : Accounts loops es s) {o : Observation} (ho : o ∈ s.observed) :
    o.id < loops.length := by
  have hmem := h.tasks.subset (List.mem_append_right _ (List.mem_append_right _
    (List.mem_map_of_mem ho)))
  exact List.mem_range.1 hmem

theorem Accounts.complete (h : Accounts loops es s) {id : TaskId} {outcome : Outcome}
    (hid : id ∈ s.tasks.running) :
    Accounts loops (es ++ [.complete id outcome])
      { s with tasks := s.tasks.complete id outcome } := by
  refine
    { tasks := ?_
      names := ?_
      order := ?_ }
  · -- The id moves from the running tasks to the ready ones.
    refine List.Perm.trans ?_ h.tasks
    have hmove : (s.tasks.running.erase id ++ [id]).Perm s.tasks.running :=
      (List.perm_append_singleton id _).trans (List.perm_cons_erase hid).symm
    have hready : (s.tasks.ready.map Prod.fst ++ [id]).Perm ([id] ++ s.tasks.ready.map Prod.fst) :=
      List.perm_append_comm
    simp only [RuntimeTasks.complete, List.map_append, List.map_cons, List.map_nil]
    refine ((hready.append_right _).append_left _).trans ?_
    rw [List.append_assoc, ← List.append_assoc]
    exact hmove.append_right _
  · intro id' hid'
    refine h.names id' ?_
    rcases hid' with hrun | hready
    · exact Or.inl (List.mem_of_mem_erase hrun)
    · simp only [RuntimeTasks.complete, List.map_append, List.mem_append] at hready
      rcases hready with hready | hnew
      · exact Or.inr hready
      · have heq : id' = id := by simpa using hnew
        exact Or.inl (heq ▸ hid)
  · rw [completions_append, ← h.order]
    simp [RuntimeTasks.complete, completions]

theorem Accounts.mono (h : Accounts loops es s) {e : Event} (he : completions [e] = [])
    {s' : State} (hrunning : s'.tasks.running = s.tasks.running)
    (hready : s'.tasks.ready = s.tasks.ready) (hnames : s'.tasks.names = s.tasks.names)
    (hobserved : s'.observed = s.observed) : Accounts loops (es ++ [e]) s' := by
  refine
    { tasks := ?_
      names := ?_
      order := ?_ }
  · rw [hrunning, hready, hobserved]
    exact h.tasks
  · rw [hrunning, hready, hnames]
    exact h.names
  · rw [completions_append, he, List.append_nil, hready, hobserved]
    exact h.order

theorem Accounts.observe (h : Accounts loops es s) {entry : TaskId × Outcome}
    {rest : RuntimeTasks} (hjoin : s.tasks.tryJoinNext = some (entry, rest)) (flag : Bool)
    (goto : Option RuntimeError → Phase) :
    Accounts loops (es ++ [.poll]) (s.observe entry rest flag goto) ∧
      (s.observe entry rest flag goto).tasks.shutdown = s.tasks.shutdown ∧
      (s.observe entry rest flag goto).phase =
        goto (Observation.failure loops
          { id := entry.1, outcome := entry.2, cancelled := !flag, time := s.now }) := by
  rcases tryJoinNext_eq_some.1 hjoin with ⟨ready, hready, rfl⟩
  have hname : s.tasks.names entry.1 = loops[entry.1]? := by
    refine h.names entry.1 (Or.inr ?_)
    simp [hready]
  have hclassify := classifyCompletion_joined
    (o := { id := entry.1, outcome := entry.2, cancelled := s.tasks.isCancelled, time := s.now })
    { s.tasks with ready := ready } hname flag
  simp only at hclassify
  simp only [State.observe, hclassify, RuntimeTasks.takeName]
  refine ⟨?_, trivial, trivial⟩
  -- The id joined is neither running nor ready any more, so no other task loses its name.
  have hnodup := h.nodup
  rw [hready] at hnodup
  refine
    { tasks := ?_
      names := ?_
      order := ?_ }
  · refine List.Perm.trans ?_ h.tasks
    rw [hready]
    simp only [List.map_append, List.map_cons, List.map_nil, List.cons_append]
    refine List.Perm.append_left _ ?_
    rw [← List.append_assoc]
    exact (List.perm_append_singleton _ _)
  · intro id hid
    have hne : id ≠ entry.1 := by
      rintro rfl
      simp only [List.map_cons, List.cons_append, List.nodup_append, List.nodup_cons,
        List.mem_append, List.mem_cons] at hnodup
      rcases hid with hrun | hin
      · exact hnodup.2.2 _ hrun _ (Or.inl rfl) rfl
      · exact hnodup.2.1.1 (Or.inl hin)
    simp only [Function.update_of_ne hne]
    refine h.names id ?_
    rcases hid with hrun | hin
    · exact Or.inl hrun
    · refine Or.inr ?_
      rw [hready]
      exact List.mem_cons_of_mem _ hin
  · rw [completions_append, ← h.order, hready]
    simp [completions]

end Accounting

/-! ## What the supervisor holds -/

/-- The error that `run` will return if nothing else fails. -/
def held (waited : Except RuntimeError Unit) (first : Option RuntimeError) : Option RuntimeError :=
  match waited with
  | .ok () => first
  | .error e => some e

section Held

variable {waited : Except RuntimeError Unit} {first failure : Option RuntimeError}

theorem held_orElse : held waited (first <|> failure) = (held waited first <|> failure) := by
  cases waited with
  | error e =>
      simp [held]
  | ok u =>
      rfl

theorem held_toResult : held (toResult failure) none = failure := by
  cases failure <;> rfl

theorem andThen_toResult : andThen waited (toResult first) = toResult (held waited first) := by
  cases waited with
  | error e =>
      rfl
  | ok u =>
      rfl

theorem andThen_error (e : RuntimeError) :
    andThen waited (.error (first.getD e)) = .error ((held waited first).getD e) := by
  cases waited with
  | error e' =>
      rfl
  | ok u =>
      rfl

end Held

/-- What `run` may return: the first failure, or else success if every loop was observed, or else
that the deadline passed. -/
def Verdict (timeout : Nanos) (loops : List String) (expired : Bool) (observed : List Observation)
    (result : Except RuntimeError Unit) : Prop :=
  match firstFailure loops observed with
  | some e => result = .error e
  | none =>
      observed.length = loops.length ∧ result = .ok () ∨
        expired = true ∧ observed.length < loops.length ∧
          result = .error (.drainTimeout timeout (loops.length - observed.length))

/-- The first failure observed is the error held, phase by phase.  The sweep does not ask the token,
but is entered with nothing held only when there are no loops. -/
def Holds (timeout : Nanos) (loops : List String) (shutdown : Option Nanos) (now : Nanos)
    (observed : List Observation) : Phase → Prop
  | .waiting => observed = []
  | .stopping waited =>
      held waited none = firstFailure loops observed ∧
        (held waited none = none → shutdown.isSome = true ∨ loops = [])
  | .sweeping waited first =>
      held waited first = firstFailure loops observed ∧ (held waited first = none → loops = [])
  | .draining waited first deadline =>
      held waited first = firstFailure loops observed ∧
        ∃ cancelled, shutdown = some cancelled ∧ cancelled + timeout ≤ deadline
  | .returned result => Verdict timeout loops (overdue timeout shutdown now) observed result

theorem overdue_eq_true {timeout time : Nanos} {shutdown : Option Nanos} :
    overdue timeout shutdown time = true ↔
      ∃ cancelled, shutdown = some cancelled ∧ cancelled + timeout ≤ time := by
  cases shutdown <;> simp [overdue]

theorem overdue_mono {timeout time time' : Nanos} {shutdown : Option Nanos} (hle : time ≤ time')
    (h : overdue timeout shutdown time = true) : overdue timeout shutdown time' = true := by
  rcases overdue_eq_true.1 h with ⟨cancelled, hcancelled, hpast⟩
  exact overdue_eq_true.2 ⟨cancelled, hcancelled, hpast.trans hle⟩

theorem Holds.mono {timeout now now' : Nanos} {loops : List String} {shutdown shutdown' : Option Nanos}
    {observed : List Observation} {phase : Phase}
    (h : Holds timeout loops shutdown now observed phase)
    (hshutdown : ∀ cancelled, shutdown = some cancelled → shutdown' = some cancelled)
    (hnow : now ≤ now') : Holds timeout loops shutdown' now' observed phase := by
  cases phase with
  | waiting | sweeping waited first =>
      exact h
  | stopping waited =>
      refine ⟨h.1, fun hnone => (h.2 hnone).imp_left fun hsome => ?_⟩
      rcases Option.isSome_iff_exists.1 hsome with ⟨cancelled, hcancelled⟩
      rw [hshutdown cancelled hcancelled]
      rfl
  | draining waited first deadline =>
      rcases h with ⟨hheld, cancelled, hcancelled, hle⟩
      exact ⟨hheld, cancelled, hshutdown cancelled hcancelled, hle⟩
  | returned result =>
      simp only [Holds, Verdict] at h ⊢
      split at h
      · exact h
      · refine h.imp_right fun ⟨hpast, hrest⟩ => ⟨?_, hrest⟩
        rcases overdue_eq_true.1 hpast with ⟨cancelled, hcancelled, hle⟩
        exact overdue_eq_true.2 ⟨cancelled, hshutdown cancelled hcancelled, hle.trans hnow⟩

/-- The token and the observations against the clock and the schedule. -/
structure Clocked (es : List Event) (s : State) : Prop where
  heard : .cancel ∈ es → s.tasks.isCancelled = true
  /-- The supervisor cancels the token only after its first wait. -/
  asked : s.tasks.isCancelled = true → .cancel ∈ es ∨ s.phase ≠ .waiting
  cancelled : ∀ cancelled, s.tasks.shutdown = some cancelled → cancelled ≤ s.now
  past : ∀ o ∈ s.observed, o.time ≤ s.now
  sorted : s.observed.Pairwise fun o o' => o.time ≤ o'.time

/-- The state of a run after a schedule. -/
structure Tracks (timeout : Nanos) (loops : List String) (es : List Event) (s : State) : Prop where
  accounts : Accounts loops es s
  /-- Only a completion ends the first wait. -/
  begun : s.phase ≠ .waiting → loops = [] ∨ s.observed ≠ []
  holds : Holds timeout loops s.tasks.shutdown s.now s.observed s.phase
  clocked : Clocked es s

section Clock

variable {es : List Event} {s : State}

theorem Clocked.shutdown_cancel (h : Clocked es s) :
    ∃ cancelled ≤ s.now, (s.tasks.cancel s.now).shutdown = some cancelled := by
  cases hshutdown : s.tasks.shutdown with
  | none =>
      exact ⟨s.now, Nat.le_refl _, by simp [RuntimeTasks.cancel, hshutdown]⟩
  | some cancelled =>
      exact ⟨cancelled, h.cancelled cancelled hshutdown, by simp [RuntimeTasks.cancel, hshutdown]⟩

theorem Clocked.observe (h : Clocked es s) {entry : TaskId × Outcome} {rest : RuntimeTasks}
    {flag : Bool} {goto : Option RuntimeError → Phase} (hgoto : ∀ failure, goto failure ≠ .waiting)
    (hshutdown : (s.observe entry rest flag goto).tasks.shutdown = s.tasks.shutdown) :
    Clocked (es ++ [.poll]) (s.observe entry rest flag goto) := by
  have hsame : (s.observe entry rest flag goto).tasks.isCancelled = s.tasks.isCancelled :=
    congrArg Option.isSome hshutdown
  refine
    { heard := ?_
      asked := fun _ => Or.inr (hgoto _)
      cancelled := ?_
      past := ?_
      sorted := ?_ }
  · simpa [hsame] using h.heard
  · rw [hshutdown]
    exact h.cancelled
  · intro o ho
    rcases List.mem_append.1 ho with ho | ho
    · exact h.past o ho
    · cases List.mem_singleton.1 ho
      exact Nat.le_refl _
  · refine List.pairwise_append.2 ⟨h.sorted, List.pairwise_singleton _ _, ?_⟩
    intro o ho o' ho'
    cases List.mem_singleton.1 ho'
    exact h.past o ho

theorem Clocked.mono (h : Clocked es s) {e : Event} {tasks : RuntimeTasks} {now : Nanos}
    {phase : Phase} (hnow : s.now ≤ now)
    (htasks : tasks.shutdown = s.tasks.shutdown ∧ e ≠ .cancel ∨
      tasks.shutdown = (s.tasks.cancel s.now).shutdown ∧ (e = .cancel ∨ phase ≠ .waiting))
    (hphase : s.phase ≠ .waiting → phase ≠ .waiting) :
    Clocked (es ++ [e]) { s with tasks := tasks, now := now, phase := phase } := by
  refine
    { heard := ?_
      asked := ?_
      cancelled := ?_
      past := fun o ho => (h.past o ho).trans hnow
      sorted := h.sorted }
  · rcases htasks with ⟨hsame, hne⟩ | ⟨hcancel, -⟩
    · intro hmem
      have hbefore : .cancel ∈ es := by simpa [hne.symm] using hmem
      simpa only [RuntimeTasks.isCancelled, hsame] using h.heard hbefore
    · rcases h.shutdown_cancel with ⟨cancelled, -, hsome⟩
      simp [RuntimeTasks.isCancelled, hcancel, hsome]
  · rcases htasks with ⟨hsame, -⟩ | ⟨-, he⟩
    · intro hcancelled
      simp only [RuntimeTasks.isCancelled, hsame] at hcancelled
      exact (h.asked hcancelled).imp (List.mem_append_left _) hphase
    · intro _
      exact he.imp_left fun he => by simp [he]
  · intro cancelled hcancelled
    rcases htasks with ⟨hsame, -⟩ | ⟨hcancel, -⟩
    · exact (h.cancelled cancelled (hsame ▸ hcancelled)).trans hnow
    · rcases h.shutdown_cancel with ⟨cancelled', hle, hsome⟩
      have heq : cancelled' = cancelled := by
        rw [← hcancel, hcancelled] at hsome
        exact (Option.some.inj hsome).symm
      exact heq ▸ hle.trans hnow

end Clock

section Tracking

variable {timeout : Nanos} {loops : List String} {es : List Event} {s s' : State}

theorem Tracks.holds_of (h : Tracks timeout loops es s) {phase : Phase} (hphase : s.phase = phase) :
    Holds timeout loops s.tasks.shutdown s.now s.observed phase :=
  hphase ▸ h.holds

theorem Tracks.begun_of (h : Tracks timeout loops es s) {phase : Phase} (hphase : s.phase = phase)
    (hne : phase ≠ .waiting) : loops = [] ∨ s.observed ≠ [] :=
  h.begun (hphase ▸ hne)

theorem spawn_eq (loops : List String) :
    (RuntimeTasks.spawn loops).shutdown = none ∧
      (RuntimeTasks.spawn loops).running = List.range loops.length ∧
      (RuntimeTasks.spawn loops).ready = [] ∧
      ∀ id, (RuntimeTasks.spawn loops).names id = loops[id]? := by
  induction loops using List.reverseRecOn with
  | nil =>
      simp [RuntimeTasks.spawn, RuntimeTasks.empty]
  | append_singleton loops name ih =>
      rcases ih with ⟨hshutdown, hrunning, hready, hnames⟩
      have hlast : RuntimeTasks.spawn (loops ++ [name]) =
          (RuntimeTasks.spawn loops).spawnLoop loops.length name := by
        simp [RuntimeTasks.spawn, List.zipIdx_append]
      rw [hlast]
      refine ⟨hshutdown, ?_, hready, ?_⟩
      · simp [RuntimeTasks.spawnLoop, hrunning, List.range_succ]
      · intro id
        -- A loop from before, the one just spawned, or none.
        rcases Nat.lt_trichotomy id loops.length with h | rfl | h
        · simp [RuntimeTasks.spawnLoop, Function.update_of_ne (Nat.ne_of_lt h), hnames,
            List.getElem?_append_left h]
        · simp [RuntimeTasks.spawnLoop]
        · have hlong : (loops ++ [name]).length ≤ id := by
            rw [List.length_append]
            exact h
          simp only [RuntimeTasks.spawnLoop, Function.update_of_ne (Nat.ne_of_gt h), hnames,
            List.getElem?_eq_none hlong]
          exact List.getElem?_eq_none (Nat.le_of_lt h)

theorem tracks_start : Tracks timeout loops [] (State.start loops) := by
  rcases spawn_eq loops with ⟨hshutdown, hrunning, hready, hnames⟩
  refine
    { accounts :=
        { tasks := ?_
          names := fun id _ => hnames id
          order := ?_ }
      begun := fun hne => absurd rfl hne
      holds := rfl
      clocked :=
        { heard := nofun
          asked := ?_
          cancelled := ?_
          past := nofun
          sorted := .nil } }
  · simp [State.start, hrunning, hready]
  · simp [State.start, hready, completions]
  · simp [State.start, RuntimeTasks.isCancelled, hshutdown]
  · simp [State.start, hshutdown]

theorem Accounts.loops_ne_nil (h : Accounts loops es s) {entry : TaskId × Outcome}
    {rest : RuntimeTasks} (hjoin : s.tasks.tryJoinNext = some (entry, rest)) : loops ≠ [] := by
  rintro rfl
  rcases tryJoinNext_eq_some.1 hjoin with ⟨ready, hready, -⟩
  have hlen := h.length
  simp [RuntimeTasks.len, hready] at hlen

theorem Tracks.observe (h : Tracks timeout loops es s) {entry : TaskId × Outcome}
    {rest : RuntimeTasks} (hjoin : s.tasks.tryJoinNext = some (entry, rest)) {flag : Bool}
    {goto : Option RuntimeError → Phase} (hne : ∀ failure, goto failure ≠ .waiting)
    (hphase : ∀ observed failure,
      observed = s.observed ++
        [{ id := entry.1, outcome := entry.2, cancelled := s.tasks.isCancelled, time := s.now }] →
      failure = Observation.failure loops
        { id := entry.1, outcome := entry.2, cancelled := !flag, time := s.now } →
      Holds timeout loops s.tasks.shutdown s.now observed (goto failure)) :
    Tracks timeout loops (es ++ [.poll]) (s.observe entry rest flag goto) := by
  rcases h.accounts.observe hjoin flag goto with ⟨haccounts, hshutdown, hgoto⟩
  refine
    { accounts := haccounts
      begun := fun _ => Or.inr (by simp [State.observe])
      holds := ?_
      clocked := h.clocked.observe hne hshutdown }
  rw [hshutdown, hgoto]
  exact hphase _ _ rfl rfl

theorem Tracks.move (h : Tracks timeout loops es s) {phase : Phase} {tasks : RuntimeTasks}
    (htasks : tasks = s.tasks ∨ tasks = s.tasks.cancel s.now)
    (hbegun : loops = [] ∨ s.observed ≠ []) (hne : phase ≠ .waiting)
    (hholds : Holds timeout loops tasks.shutdown s.now s.observed phase) :
    Tracks timeout loops (es ++ [.poll]) { s with tasks := tasks, phase := phase } := by
  refine
    { accounts := ?_
      begun := fun _ => hbegun
      holds := hholds
      clocked := ?_ }
  · rcases htasks with rfl | rfl
    · exact h.accounts.mono rfl rfl rfl rfl rfl
    · exact h.accounts.mono rfl rfl rfl rfl rfl
  · refine h.clocked.mono (Nat.le_refl _) ?_ fun _ => hne
    rcases htasks with rfl | rfl
    · exact Or.inl ⟨rfl, nofun⟩
    · exact Or.inr ⟨rfl, Or.inr hne⟩

theorem verdict_done {expired : Bool} {observed : List Observation}
    (hlen : observed.length = loops.length) :
    Verdict timeout loops expired observed (toResult (firstFailure loops observed)) := by
  unfold Verdict
  cases firstFailure loops observed with
  | some e =>
      rfl
  | none =>
      exact Or.inl ⟨hlen, rfl⟩

theorem verdict_expired {observed : List Observation} {remaining : Nat} (hpos : 0 < remaining)
    (hlen : remaining + observed.length = loops.length) :
    Verdict timeout loops true observed
      (.error ((firstFailure loops observed).getD (.drainTimeout timeout remaining))) := by
  unfold Verdict
  cases firstFailure loops observed with
  | some e =>
      rfl
  | none =>
      have hremaining : remaining = loops.length - observed.length := by omega
      exact Or.inr ⟨rfl, by omega, by rw [Option.getD_none, hremaining]⟩

/-- `wait`: the first completion is judged by the token. -/
theorem Tracks.wait (h : Tracks timeout loops es s) (hphase : s.phase = .waiting)
    (hadvance : s.advance timeout = some s') : Tracks timeout loops (es ++ [.poll]) s' := by
  have hnone : s.observed = [] := h.holds_of hphase
  simp only [State.advance, hphase] at hadvance
  split at hadvance
  · cases hadvance
  · -- There was nothing to wait for.
    rename_i hdone
    cases hadvance
    rcases joinNext_eq_done.1 hdone with ⟨hready, hrunning⟩
    have hempty : loops = [] := by
      have hlen := h.accounts.length
      simp only [RuntimeTasks.len, hready, hrunning, hnone, List.length_nil] at hlen
      exact List.eq_nil_of_length_eq_zero hlen.symm
    refine h.move (Or.inl rfl) (Or.inl hempty) nofun ⟨?_, fun _ => Or.inr hempty⟩
    simp [hnone, firstFailure, held]
  · rename_i entry rest hjoin
    cases hadvance
    refine h.observe (joinNext_eq_joined.1 hjoin) nofun ?_
    rintro observed failure rfl rfl
    refine ⟨?_, ?_⟩
    · rw [held_toResult, firstFailure_append, hnone]
      simp [firstFailure]
    · -- A clean exit is let pass only if the token says so.
      rw [held_toResult]
      intro hpassed
      refine Or.inl ?_
      cases hshutdown : s.tasks.isCancelled with
      | true =>
          exact hshutdown
      | false =>
          rw [hshutdown] at hpassed
          cases hout : entry.2 <;>
            simp [Observation.failure, Observation.failing, hout] at hpassed

/-- The top of `shutdown_with_timeout`: the sweep is skipped if the host has cancelled. -/
theorem Tracks.stop (h : Tracks timeout loops es s) {waited : Except RuntimeError Unit}
    (hphase : s.phase = .stopping waited) (hadvance : s.advance timeout = some s') :
    Tracks timeout loops (es ++ [.poll]) s' := by
  have hbegun := h.begun_of hphase nofun
  rcases h.holds_of hphase with ⟨hheld, hnone⟩
  simp only [State.advance, hphase] at hadvance
  split at hadvance
  · rename_i hshutdown
    cases hadvance
    rcases Option.isSome_iff_exists.1 hshutdown with ⟨cancelled, hcancelled⟩
    exact h.move (Or.inl rfl) hbegun nofun
      ⟨hheld, cancelled, hcancelled, Nat.add_le_add_right (h.clocked.cancelled cancelled hcancelled) _⟩
  · rename_i hshutdown
    cases hadvance
    refine h.move (Or.inl rfl) hbegun nofun ⟨hheld, fun hpassed => ?_⟩
    exact (hnone hpassed).resolve_left hshutdown

/-- `drain_ready_before_shutdown`: an error is held already, and a completion changes nothing. -/
theorem Tracks.sweep (h : Tracks timeout loops es s) {waited : Except RuntimeError Unit}
    {first : Option RuntimeError} (hphase : s.phase = .sweeping waited first)
    (hadvance : s.advance timeout = some s') : Tracks timeout loops (es ++ [.poll]) s' := by
  have hbegun := h.begun_of hphase nofun
  rcases h.holds_of hphase with ⟨hheld, hnone⟩
  simp only [State.advance, hphase] at hadvance
  split at hadvance
  · rename_i entry rest hjoin
    cases hadvance
    cases hfirst : held waited first with
    | none =>
        exact absurd (hnone hfirst) (h.accounts.loops_ne_nil hjoin)
    | some e =>
        refine h.observe hjoin nofun ?_
        rintro observed failure rfl rfl
        simp only [Holds, held_orElse, firstFailure_append, ← hheld, hfirst]
        simp
  · cases hadvance
    rcases h.clocked.shutdown_cancel with ⟨cancelled, hle, hcancelled⟩
    exact h.move (Or.inr rfl) hbegun nofun
      ⟨hheld, cancelled, hcancelled, Nat.add_le_add_right hle _⟩

/-- `drain`: with the token cancelled, a clean exit is no failure. -/
theorem Tracks.drain (htimeout : timeout ≠ 0) (h : Tracks timeout loops es s)
    {waited : Except RuntimeError Unit} {first : Option RuntimeError} {deadline : Nanos}
    (hphase : s.phase = .draining waited first deadline) (hadvance : s.advance timeout = some s') :
    Tracks timeout loops (es ++ [.poll]) s' := by
  have hbegun := h.begun_of hphase nofun
  have hlen := h.accounts.length
  rcases h.holds_of hphase with ⟨hheld, cancelled, hshutdown, hdeadline⟩
  simp only [State.advance, hphase, if_neg htimeout] at hadvance
  split at hadvance
  · rename_i entry rest hjoin
    cases hadvance
    refine h.observe (joinNext_eq_joined.1 hjoin) nofun ?_
    rintro observed failure rfl rfl
    refine ⟨?_, cancelled, hshutdown, hdeadline⟩
    rw [held_orElse, hheld, firstFailure_append, RuntimeTasks.isCancelled, hshutdown]
    rfl
  · -- Every loop has been observed.
    rename_i hdone
    cases hadvance
    rcases joinNext_eq_done.1 hdone with ⟨hready, hrunning⟩
    simp only [RuntimeTasks.len, hready, hrunning, List.length_nil, Nat.zero_add] at hlen
    refine h.move (Or.inl rfl) hbegun nofun ?_
    rw [andThen_toResult, hheld]
    exact verdict_done hlen
  · rename_i hpending
    split at hadvance
    · -- The deadline has passed over the loops that are still running.
      rename_i hexpired
      cases hadvance
      have hpos : 0 < s.tasks.len := by
        have := List.length_pos_of_ne_nil (joinNext_eq_none.1 hpending).2
        simp only [RuntimeTasks.len]
        omega
      refine h.move (Or.inl rfl) hbegun nofun ?_
      have hoverdue : overdue timeout s.tasks.shutdown s.now = true :=
        overdue_eq_true.2 ⟨cancelled, hshutdown, hdeadline.trans hexpired⟩
      rw [andThen_error, hheld, Holds, hoverdue]
      exact verdict_expired hpos hlen
    · cases hadvance

/-- One step of the supervisor. -/
theorem Tracks.advance (htimeout : timeout ≠ 0) (h : Tracks timeout loops es s)
    (hadvance : s.advance timeout = some s') : Tracks timeout loops (es ++ [.poll]) s' := by
  cases hphase : s.phase with
  | waiting =>
      exact h.wait hphase hadvance
  | stopping waited =>
      exact h.stop hphase hadvance
  | sweeping waited first =>
      exact h.sweep hphase hadvance
  | draining waited first deadline =>
      exact h.drain htimeout hphase hadvance
  | returned result =>
      simp only [State.advance, hphase] at hadvance
      cases hadvance

theorem next_poll (hnext : next timeout s .poll = some s') :
    s' = s ∨ s.advance timeout = some s' := by
  have heq : (s.advance timeout).getD s = s' := Option.some.inj hnext
  cases hadvance : s.advance timeout with
  | none =>
      exact Or.inl (by rw [← heq, hadvance]; rfl)
  | some s₁ =>
      exact Or.inr (by rw [← heq, hadvance]; rfl)

theorem Tracks.step (htimeout : timeout ≠ 0) (h : Tracks timeout loops es s) {e : Event}
    (hnext : next timeout s e = some s') : Tracks timeout loops (es ++ [e]) s' := by
  cases e with
  | complete id outcome =>
      simp only [next] at hnext
      split at hnext
      · rename_i hid
        cases hnext
        exact ⟨h.accounts.complete hid, h.begun, h.holds,
          h.clocked.mono (Nat.le_refl _) (Or.inl ⟨rfl, nofun⟩) fun hne => hne⟩
      · cases hnext
  | cancel =>
      cases hnext
      refine ⟨h.accounts.mono rfl rfl rfl rfl rfl, h.begun, h.holds.mono ?_ (Nat.le_refl _),
        h.clocked.mono (Nat.le_refl _) (Or.inr ⟨rfl, Or.inl rfl⟩) id⟩
      intro cancelled hcancelled
      simp [RuntimeTasks.cancel, hcancelled]
  | elapse nanos =>
      cases hnext
      exact ⟨h.accounts.mono rfl rfl rfl rfl rfl, h.begun,
        h.holds.mono (fun _ => id) (Nat.le_add_right _ _),
        h.clocked.mono (Nat.le_add_right _ _) (Or.inl ⟨rfl, nofun⟩) id⟩
  | poll =>
      rcases next_poll hnext with rfl | hadvance
      · exact ⟨h.accounts.mono rfl rfl rfl rfl rfl, h.begun, h.holds,
          h.clocked.mono (Nat.le_refl _) (Or.inl ⟨rfl, nofun⟩) id⟩
      · exact h.advance htimeout hadvance

theorem tracks_of_run (htimeout : timeout ≠ 0)
    (hrun : (supervision timeout loops).run (State.start loops) es = some s) :
    Tracks timeout loops es s :=
  TransitionSystem.invariant_of_run (I := Tracks timeout loops) tracks_start
    (fun _ _ _ _ h hnext => h.step htimeout hnext) hrun

end Tracking

/-! ## What `run` reports -/

/-- The completions seen before the deadline. -/
def State.inTime (timeout : Nanos) (s : State) : List Observation :=
  s.observed.filter fun o => !overdue timeout s.tasks.shutdown o.time

/-- `result` says what became of the loops. -/
structure Reports (timeout : Nanos) (loops : List String) (es : List Event) (s : State)
    (result : Except RuntimeError Unit) : Prop where
  /-- Completions are observed as they happened. -/
  inOrder : (s.observed.map fun o => (o.id, o.outcome)) <+: completions es
  /-- Success: every loop was seen to end cleanly before the deadline, each with the token cancelled
  by then. -/
  ok : result = .ok () ↔
    ∀ id < loops.length, ∃ o ∈ s.inTime timeout,
      o.id = id ∧ o.outcome = .clean ∧ o.cancelled = true
  /-- The first failure seen before the deadline, under the name of its loop. -/
  failed : ∀ o, (s.inTime timeout).find? Observation.failing = some o →
    ∃ name, loops[o.id]? = some name ∧ result = .error (o.error name)
  /-- With no failure seen before it, the deadline, and how many loops had not been seen to end. -/
  timedOut : (∀ o ∈ s.inTime timeout, o.failing = false) → result ≠ .ok () →
    overdue timeout s.tasks.shutdown s.now = true ∧
      result = .error (.drainTimeout timeout (loops.length - (s.inTime timeout).length))

/-- There is something for `run` to return for: no loop to wait for, a loop that ended, or the host
asking it to stop. -/
def StopDue (loops : List String) (es : List Event) : Prop :=
  loops = [] ∨ completions es ≠ [] ∨ .cancel ∈ es

instance (loops : List String) (es : List Event) : Decidable (StopDue loops es) :=
  inferInstanceAs (Decidable (_ ∨ _))

/-- A failure was seen before the deadline. -/
def State.failedInTime (timeout : Nanos) (s : State) : Bool :=
  (s.inTime timeout).any Observation.failing

/-- Every loop that has ended has been joined, and one has ended, if there is any. -/
def State.CaughtUp (loops : List String) (s : State) : Prop :=
  s.tasks.ready = [] ∧ (loops = [] ∨ s.observed ≠ [])

instance (loops : List String) (s : State) : Decidable (s.CaughtUp loops) :=
  inferInstanceAs (Decidable (_ ∧ _))

/-- What a step may do before `run` has returned or seen a failure in time: no loop ends after the
deadline, and the deadline passes only over a supervisor that has caught up. -/
def OnTime (timeout : Nanos) (loops : List String) (s : State) (e : Event) : Prop :=
  s.failedInTime timeout = true ∨ s.phase.isReturned = true ∨
    match e with
    | .complete _ _ => overdue timeout s.tasks.shutdown s.now = false
    | .elapse nanos => overdue timeout s.tasks.shutdown (s.now + nanos) = true → s.CaughtUp loops
    | .cancel | .poll => True

instance (timeout : Nanos) (loops : List String) (s : State) :
    ∀ e : Event, Decidable (OnTime timeout loops s e)
  | .complete _ _ | .elapse _ | .cancel | .poll => inferInstanceAs (Decidable (_ ∨ _ ∨ _))

/-- The deadline has been kept so far: whatever was seen was seen before it, and once it has passed
there is nothing left to see. -/
def Kept (timeout : Nanos) (loops : List String) (s : State) : Prop :=
  s.failedInTime timeout = true ∨
    (∀ o ∈ s.observed, overdue timeout s.tasks.shutdown o.time = false) ∧
      (overdue timeout s.tasks.shutdown s.now = true →
        s.phase.isReturned = true ∨ s.CaughtUp loops)

instance (timeout : Nanos) (loops : List String) (s : State) : Decidable (Kept timeout loops s) :=
  inferInstanceAs (Decidable (_ ∨ _ ∧ _))

section Steps

variable {timeout : Nanos} {loops : List String} {es : List Event} {s s' : State}

/-- All that a step of the supervisor can do: join a task, or change the phase. -/
theorem advance_cases (htimeout : timeout ≠ 0) (hadvance : s.advance timeout = some s') :
    s.phase.isReturned = false ∧
      ((∃ entry rest flag goto, s.tasks.tryJoinNext = some (entry, rest) ∧
          s' = s.observe entry rest flag goto) ∨
        ∃ tasks phase, s' = { s with tasks := tasks, phase := phase } ∧
          (tasks = s.tasks ∨ tasks = s.tasks.cancel s.now) ∧
          (phase.isReturned = true → s.tasks.ready = [] ∧ s.phase ≠ .waiting)) := by
  unfold State.advance at hadvance
  split at hadvance
  · rename_i hphase
    refine ⟨by rw [hphase]; rfl, ?_⟩
    split at hadvance
    · cases hadvance
    · cases hadvance
      exact Or.inr ⟨_, _, rfl, Or.inl rfl, nofun⟩
    · rename_i hjoin
      cases hadvance
      exact Or.inl ⟨_, _, _, _, joinNext_eq_joined.1 hjoin, rfl⟩
  · rename_i hphase
    refine ⟨by rw [hphase]; rfl, Or.inr ?_⟩
    split at hadvance
    · cases hadvance
      exact ⟨_, _, rfl, Or.inl rfl, nofun⟩
    · cases hadvance
      exact ⟨_, _, rfl, Or.inl rfl, nofun⟩
  · rename_i hphase
    refine ⟨by rw [hphase]; rfl, ?_⟩
    split at hadvance
    · rename_i hjoin
      cases hadvance
      exact Or.inl ⟨_, _, _, _, hjoin, rfl⟩
    · cases hadvance
      exact Or.inr ⟨_, _, rfl, Or.inr rfl, nofun⟩
  · rename_i hphase
    refine ⟨by rw [hphase]; rfl, ?_⟩
    rw [if_neg htimeout] at hadvance
    split at hadvance
    · rename_i hjoin
      cases hadvance
      exact Or.inl ⟨_, _, _, _, joinNext_eq_joined.1 hjoin, rfl⟩
    · rename_i hdone
      cases hadvance
      refine Or.inr ⟨_, _, rfl, Or.inl rfl, fun _ => ⟨(joinNext_eq_done.1 hdone).1, ?_⟩⟩
      rw [hphase]
      nofun
    · rename_i hpending
      split at hadvance
      · cases hadvance
        refine Or.inr ⟨_, _, rfl, Or.inl rfl, fun _ => ⟨(joinNext_eq_none.1 hpending).1, ?_⟩⟩
        rw [hphase]
        nofun
      · cases hadvance
  · cases hadvance

theorem overdue_cancel (htimeout : timeout ≠ 0) {tasks : RuntimeTasks} {now time : Nanos}
    (hle : time ≤ now) :
    overdue timeout (tasks.cancel now).shutdown time = overdue timeout tasks.shutdown time := by
  cases hshutdown : tasks.shutdown with
  | none =>
      have hlt : time < now + timeout :=
        Nat.lt_of_le_of_lt hle (Nat.lt_add_of_pos_right (Nat.pos_of_ne_zero htimeout))
      simp [RuntimeTasks.cancel, hshutdown, overdue, hlt]
  | some cancelled =>
      simp [RuntimeTasks.cancel, hshutdown]

theorem Clocked.kept_cancel (h : Clocked es s) (htimeout : timeout ≠ 0) :
    Kept timeout loops { s with tasks := s.tasks.cancel s.now } ↔ Kept timeout loops s := by
  have hseen : ∀ o ∈ s.observed, overdue timeout (s.tasks.cancel s.now).shutdown o.time =
      overdue timeout s.tasks.shutdown o.time := fun o ho => overdue_cancel htimeout (h.past o ho)
  have hinTime : State.inTime timeout { s with tasks := s.tasks.cancel s.now } = s.inTime timeout :=
    List.filter_congr fun o ho => congrArg _ (hseen o ho)
  have hall : (∀ o ∈ s.observed, overdue timeout (s.tasks.cancel s.now).shutdown o.time = false) ↔
      ∀ o ∈ s.observed, overdue timeout s.tasks.shutdown o.time = false :=
    forall₂_congr fun o ho => by rw [hseen o ho]
  simp only [Kept, State.failedInTime, hinTime, overdue_cancel htimeout (Nat.le_refl s.now), hall]
  rfl

theorem Clocked.kept_of_not_overdue (h : Clocked es s)
    (hahead : overdue timeout s.tasks.shutdown s.now = false) : Kept timeout loops s := by
  refine Or.inr ⟨fun o ho => ?_, fun hpast => absurd (hahead.symm.trans hpast) nofun⟩
  cases hlate : overdue timeout s.tasks.shutdown o.time with
  | false =>
      rfl
  | true =>
      exact absurd (hahead.symm.trans (overdue_mono (h.past o ho) hlate)) nofun

theorem kept_move {phase : Phase} (hphase : s.phase.isReturned = false)
    (hcaught : phase.isReturned = true → s.CaughtUp loops) :
    Kept timeout loops { s with phase := phase } ↔ Kept timeout loops s := by
  have hinTime : State.inTime timeout { s with phase := phase } = s.inTime timeout := rfl
  have hsame : State.CaughtUp loops { s with phase := phase } ↔ s.CaughtUp loops := Iff.rfl
  rw [← Bool.not_eq_true] at hphase
  simp only [Kept, State.failedInTime, hinTime, hsame]
  tauto

theorem Tracks.kept_observe (h : Tracks timeout loops es s) {entry : TaskId × Outcome}
    {rest : RuntimeTasks} (hjoin : s.tasks.tryJoinNext = some (entry, rest)) {flag : Bool}
    {goto : Option RuntimeError → Phase} (hphase : s.phase.isReturned = false)
    (hafter : Tracks timeout loops (es ++ [.poll]) (s.observe entry rest flag goto)) :
    Kept timeout loops (s.observe entry rest flag goto) ↔ Kept timeout loops s := by
  have hshutdown := (h.accounts.observe hjoin flag goto).2.1
  cases hpast : overdue timeout s.tasks.shutdown s.now with
  | false =>
      refine iff_of_true (hafter.clocked.kept_of_not_overdue ?_) (h.clocked.kept_of_not_overdue hpast)
      rw [hshutdown]
      exact hpast
  | true =>
      rcases tryJoinNext_eq_some.1 hjoin with ⟨ready, hready, -⟩
      have hinTime : (s.observe entry rest flag goto).inTime timeout = s.inTime timeout := by
        simp only [State.inTime, hshutdown]
        simp [State.observe, hpast]
      have hbehind : ¬s.CaughtUp loops := by simp [State.CaughtUp, hready]
      simp only [Kept, State.failedInTime, hinTime, hshutdown, hpast, hphase]
      simp [State.observe, hpast, hbehind]

theorem Tracks.kept_step (htimeout : timeout ≠ 0) (h : Tracks timeout loops es s) {e : Event}
    (hnext : next timeout s e = some s') :
    Kept timeout loops s' ↔ Kept timeout loops s ∧ OnTime timeout loops s e := by
  have hafter := h.step htimeout hnext
  cases e with
  | complete id outcome =>
      simp only [next] at hnext
      split at hnext
      · cases hnext
        have hbehind : ¬State.CaughtUp loops { s with tasks := s.tasks.complete id outcome } := by
          simp [State.CaughtUp, RuntimeTasks.complete]
        have hinTime : State.inTime timeout { s with tasks := s.tasks.complete id outcome } =
            s.inTime timeout := rfl
        simp only [Kept, OnTime, State.failedInTime, hinTime, hbehind, or_false]
        simp only [RuntimeTasks.complete]
        rw [← Bool.not_eq_true]
        tauto
      · cases hnext
  | cancel =>
      cases hnext
      rw [h.clocked.kept_cancel htimeout]
      exact ⟨fun hkept => ⟨hkept, Or.inr (Or.inr trivial)⟩, And.left⟩
  | elapse nanos =>
      cases hnext
      have hmono : overdue timeout s.tasks.shutdown s.now = true →
          overdue timeout s.tasks.shutdown (s.now + nanos) = true :=
        overdue_mono (Nat.le_add_right _ _)
      have hinTime : State.inTime timeout { s with now := s.now + nanos } = s.inTime timeout := rfl
      have hcaught : State.CaughtUp loops { s with now := s.now + nanos } ↔ s.CaughtUp loops :=
        Iff.rfl
      simp only [Kept, OnTime, State.failedInTime, hinTime, hcaught]
      tauto
  | poll =>
      refine Iff.trans ?_ ⟨fun hkept => ⟨hkept, Or.inr (Or.inr trivial)⟩, And.left⟩
      rcases next_poll hnext with rfl | hadvance
      · rfl
      · rcases advance_cases htimeout hadvance with ⟨hphase, hjoined | hmoved⟩
        · rcases hjoined with ⟨entry, rest, flag, goto, hjoin, rfl⟩
          exact h.kept_observe hjoin hphase hafter
        · rcases hmoved with ⟨tasks, phase, rfl, htasks, hreturned⟩
          have hcaught : phase.isReturned = true → s.CaughtUp loops := fun hphase' =>
            ⟨(hreturned hphase').1, h.begun (hreturned hphase').2⟩
          rcases htasks with rfl | rfl
          · exact kept_move hphase hcaught
          · exact (kept_move (s := { s with tasks := s.tasks.cancel s.now }) hphase hcaught).trans
              (h.clocked.kept_cancel htimeout)

theorem kept_iff_runOk (htimeout : timeout ≠ 0)
    (hrun : (supervision timeout loops).run (State.start loops) es = some s) :
    Kept timeout loops s ↔
      (supervision timeout loops).runOk (OnTime timeout loops) (State.start loops) es :=
  have hstart : Tracks timeout loops [] (State.start loops) := tracks_start
  TransitionSystem.runOk_iff_of_run (I := Tracks timeout loops) hstart
    (fun _ _ _ _ h hnext => h.step htimeout hnext)
    (hstart.clocked.kept_of_not_overdue (by simp [State.start, spawn_eq, overdue]))
    (fun _ _ _ _ h hnext => h.kept_step htimeout hnext) hrun

end Steps

section Reporting

variable {timeout : Nanos} {loops : List String} {es : List Event} {s : State}
  {result : Except RuntimeError Unit}

theorem Accounts.eq_of_id_eq (h : Accounts loops es s) {o o' : Observation} (ho : o ∈ s.observed)
    (ho' : o' ∈ s.observed) (hid : o.id = o'.id) : o = o' := by
  have hnodup : (s.observed.map Observation.id).Nodup :=
    (List.nodup_append.1 (List.nodup_append.1 h.nodup).2.1).2.1
  exact List.inj_on_of_nodup_map hnodup ho ho' hid

theorem Accounts.mem_observed (h : Accounts loops es s) (hlen : s.observed.length = loops.length)
    {id : TaskId} (hid : id < loops.length) : ∃ o ∈ s.observed, o.id = id := by
  have hcount := h.length
  have hnone : s.tasks.running = [] ∧ s.tasks.ready = [] := by
    simp only [RuntimeTasks.len] at hcount
    exact ⟨List.eq_nil_of_length_eq_zero (by omega), List.eq_nil_of_length_eq_zero (by omega)⟩
  have hmem := h.tasks.mem_iff.2 (List.mem_range.2 hid)
  simp only [hnone.1, hnone.2, List.map_nil, List.nil_append, List.mem_map] at hmem
  exact hmem

theorem failing_eq_false_iff {o : Observation} :
    o.failing = false ↔ o.outcome = .clean ∧ o.cancelled = true := by
  cases hout : o.outcome <;> simp [Observation.failing, hout]

/-- No failure and no loop missing: each loop's one observation is a clean exit that was let pass. -/
theorem Accounts.all_clean_iff (h : Accounts loops es s) :
    firstFailure loops s.observed = none ∧ s.observed.length = loops.length ↔
      ∀ id < loops.length, ∃ o ∈ s.observed, o.id = id ∧ o.outcome = .clean ∧ o.cancelled = true := by
  constructor
  · rintro ⟨hclear, hlen⟩ id hid
    rcases h.mem_observed hlen hid with ⟨o, ho, hoid⟩
    exact ⟨o, ho, hoid, failing_eq_false_iff.1 (firstFailure_eq_none.1 hclear o ho)⟩
  · intro hall
    refine ⟨firstFailure_eq_none.2 fun o ho => ?_, Nat.le_antisymm ?_ ?_⟩
    · rcases hall o.id (h.id_lt ho) with ⟨o', ho', hid, hclean⟩
      rw [h.eq_of_id_eq ho ho' hid.symm]
      exact failing_eq_false_iff.2 hclean
    · have hcount := h.length
      omega
    · -- Every id is among the observed ones, and the ids are distinct.
      have hsub : List.range loops.length ⊆ s.observed.map Observation.id := by
        intro id hid
        rcases hall id (List.mem_range.1 hid) with ⟨o, ho, hoid, -⟩
        exact hoid ▸ List.mem_map_of_mem ho
      have hle := (List.subperm_of_subset List.nodup_range hsub).length_le
      simpa using hle

theorem Verdict.ok_iff {expired : Bool} {observed : List Observation}
    (h : Verdict timeout loops expired observed result) :
    result = .ok () ↔ firstFailure loops observed = none ∧ observed.length = loops.length := by
  unfold Verdict at h
  cases hfirst : firstFailure loops observed with
  | some e =>
      rw [hfirst] at h
      simp [h]
  | none =>
      rw [hfirst] at h
      rcases h with ⟨hlen, rfl⟩ | ⟨-, hlt, rfl⟩
      · simp [hlen]
      · simp [Nat.ne_of_lt hlt]

theorem Tracks.result_of_find? (h : Tracks timeout loops es s) (hreturned : s.phase = .returned result)
    {o : Observation} (ho : s.observed.find? Observation.failing = some o) :
    ∃ name, loops[o.id]? = some name ∧ result = .error (o.error name) := by
  have hverdict : Verdict _ _ _ _ _ := h.holds_of hreturned
  have hlt := h.accounts.id_lt (List.mem_of_find?_eq_some ho)
  refine ⟨loops[o.id], List.getElem?_eq_getElem hlt, ?_⟩
  simp only [Verdict, firstFailure_of_find? ho] at hverdict
  rw [hverdict, ownName, List.getElem?_eq_getElem hlt, Option.getD_some]

/-- The first failure seen in time is the first one seen: what is seen later is later. -/
theorem find?_of_inTime {observed : List Observation} {shutdown : Option Nanos} {o : Observation}
    (hsorted : observed.Pairwise fun o o' => o.time ≤ o'.time)
    (ho : (observed.filter fun o => !overdue timeout shutdown o.time).find? Observation.failing =
      some o) : observed.find? Observation.failing = some o := by
  induction observed with
  | nil =>
      cases ho
  | cons a observed ih =>
      rcases List.pairwise_cons.1 hsorted with ⟨hlater, hsorted⟩
      cases ha : overdue timeout shutdown a.time with
      | true =>
          have hnone : observed.filter (fun o => !overdue timeout shutdown o.time) = [] :=
            List.filter_eq_nil_iff.2 fun o' ho' => by
              simp [overdue_mono (hlater o' ho') ha]
          simp [ha, hnone] at ho
      | false =>
          rw [List.filter_cons_of_pos (by simp [ha])] at ho
          cases hfails : a.failing with
          | true =>
              simpa [List.find?_cons, hfails] using ho
          | false =>
              simp only [List.find?_cons, hfails] at ho ⊢
              exact ih hsorted ho

theorem Tracks.reports (h : Tracks timeout loops es s) (hreturned : s.phase = .returned result)
    (hkept : Kept timeout loops s) : Reports timeout loops es s result := by
  have hverdict : Verdict _ _ _ _ _ := h.holds_of hreturned
  have hfailed : ∀ o, (s.inTime timeout).find? Observation.failing = some o →
      ∃ name, loops[o.id]? = some name ∧ result = .error (o.error name) := fun o ho =>
    h.result_of_find? hreturned (find?_of_inTime h.clocked.sorted ho)
  rcases hkept with hfail | ⟨hseen, -⟩
  · rcases List.any_eq_true.1 hfail with ⟨o, ho, hfails⟩
    have hmem := (List.mem_filter.1 ho).1
    refine
      { inOrder := ⟨s.tasks.ready, h.accounts.order⟩
        ok := ?_
        failed := hfailed
        timedOut := fun hclear => absurd (hclear o ho) (by simp [hfails]) }
    rw [hverdict.ok_iff, h.accounts.all_clean_iff]
    constructor
    · intro hall
      rcases hall o.id (h.accounts.id_lt hmem) with ⟨o', ho', hid, hclean⟩
      rw [h.accounts.eq_of_id_eq ho' hmem hid] at hclean
      exact absurd (failing_eq_false_iff.2 hclean) (by simp [hfails])
    · exact fun hall id hid => (hall id hid).imp fun o' ⟨ho', h'⟩ => ⟨(List.mem_filter.1 ho').1, h'⟩
  · have hinTime : s.inTime timeout = s.observed :=
      List.filter_eq_self.2 fun o ho => by simp [hseen o ho]
    refine
      { inOrder := ⟨s.tasks.ready, h.accounts.order⟩
        ok := ?_
        failed := hfailed
        timedOut := ?_ }
    · rw [hinTime]
      exact hverdict.ok_iff.trans h.accounts.all_clean_iff
    · rw [hinTime]
      intro hclear hresult
      simp only [Verdict, firstFailure_eq_none.2 hclear] at hverdict
      rcases hverdict with ⟨-, hok⟩ | ⟨hexpired, -, herror⟩
      · exact absurd hok hresult
      · exact ⟨hexpired, herror⟩

theorem Tracks.not_reports (h : Tracks timeout loops es s) (hreturned : s.phase = .returned result)
    (hkept : ¬Kept timeout loops s) : ¬Reports timeout loops es s result := by
  intro hreports
  have hverdict : Verdict _ _ _ _ _ := h.holds_of hreturned
  have hreturned' : s.phase.isReturned = true := by rw [hreturned]; rfl
  simp only [Kept, hreturned', true_or, implies_true, and_true, not_or, not_forall] at hkept
  rcases hkept with ⟨hclear, o, ho, hlate⟩
  have hclear : ∀ o ∈ s.inTime timeout, o.failing = false := by
    simpa [State.failedInTime] using hclear
  have hmissed : o ∉ s.inTime timeout := by
    intro hmem
    exact hlate (by simpa using (List.mem_filter.1 hmem).2)
  have hresult : result ≠ .ok () := by
    intro hok
    rcases hreports.ok.1 hok o.id (h.accounts.id_lt ho) with ⟨o', ho', hid, -⟩
    rw [h.accounts.eq_of_id_eq (List.mem_filter.1 ho').1 ho hid] at ho'
    exact hmissed ho'
  have hfewer : (s.inTime timeout).length < s.observed.length :=
    List.length_filter_lt_length_iff_exists.2 ⟨o, ho, by simpa using hlate⟩
  have htimedOut := (hreports.timedOut hclear hresult).2
  cases hfirst : s.observed.find? Observation.failing with
  | some o' =>
      -- The failure is reported, although it came after the deadline.
      rcases h.result_of_find? hreturned hfirst with ⟨name, -, hfailed⟩
      rw [hfailed] at htimedOut
      cases hout : o'.outcome <;> simp [Observation.error, hout] at htimedOut
  | none =>
      have hnone : firstFailure loops s.observed = none :=
        firstFailure_eq_none.2 fun o' ho' => by simpa using List.find?_eq_none.1 hfirst o' ho'
      simp only [Verdict, hnone] at hverdict
      rcases hverdict with ⟨-, hok⟩ | ⟨-, hlt, herror⟩
      · exact hresult hok
      · rw [herror] at htimedOut
        simp only [Except.error.injEq, RuntimeError.drainTimeout.injEq, true_and] at htimedOut
        omega

/-- The supervisor is stuck only at its first wait: loops are running and none has ended. -/
theorem Tracks.returned_or_waiting (htimeout : timeout ≠ 0) (h : Tracks timeout loops es s)
    (hsettled : Settled timeout s) :
    (∃ result, s.phase = .returned result) ∨
      s.phase = .waiting ∧ loops ≠ [] ∧ s.observed = [] ∧ completions es = [] := by
  rcases hsettled with ⟨hstuck, htimer, -⟩
  cases hphase : s.phase with
  | waiting =>
      have hobserved : s.observed = [] := h.holds_of hphase
      simp only [State.advance, hphase] at hstuck
      split at hstuck
      · rename_i hpending
        rcases joinNext_eq_none.1 hpending with ⟨hready, hrunning⟩
        refine Or.inr ⟨rfl, ?_, hobserved, ?_⟩
        · rintro rfl
          have hlen := h.accounts.length
          have hpos := List.length_pos_of_ne_nil hrunning
          simp only [RuntimeTasks.len, List.length_nil] at hlen
          omega
        · rw [← h.accounts.order, hobserved, hready]
          rfl
      · cases hstuck
      · cases hstuck
  | stopping waited =>
      simp only [State.advance, hphase] at hstuck
      split at hstuck <;> cases hstuck
  | sweeping waited first =>
      simp only [State.advance, hphase] at hstuck
      split at hstuck <;> cases hstuck
  | draining waited first deadline =>
      -- The drain moves on with a completion, or else with its deadline.
      have hexpired : deadline ≤ s.now := by simpa [hphase, Phase.timerDone] using htimer
      simp only [State.advance, hphase, if_neg htimeout, if_pos hexpired] at hstuck
      split at hstuck <;> cases hstuck
  | returned result =>
      exact Or.inl ⟨result, rfl⟩

/-- In the end `run` has returned what it had to if and only if the deadline was kept. -/
theorem Tracks.reports_iff (htimeout : timeout ≠ 0) (h : Tracks timeout loops es s)
    (hsettled : Settled timeout s) :
    (StopDue loops es →
      ∃ result, s.phase = .returned result ∧ Reports timeout loops es s result) ↔
      Kept timeout loops s := by
  constructor
  · intro hreturns
    by_contra hkept
    have hpast : overdue timeout s.tasks.shutdown s.now = true := by
      by_contra hahead
      exact hkept (h.clocked.kept_of_not_overdue (by simpa using hahead))
    have hcancelled : s.tasks.isCancelled = true := by
      rcases overdue_eq_true.1 hpast with ⟨cancelled, hcancelled, -⟩
      simp [RuntimeTasks.isCancelled, hcancelled]
    have hdue : StopDue loops es := by
      rcases h.clocked.asked hcancelled with hcancel | hphase
      · exact Or.inr (Or.inr hcancel)
      · refine (h.begun hphase).imp_right fun hobserved => Or.inl ?_
        rw [← h.accounts.order]
        simp [hobserved]
    rcases hreturns hdue with ⟨result, hphase, hreports⟩
    exact h.not_reports hphase hkept hreports
  · intro hkept hdue
    rcases h.returned_or_waiting htimeout hsettled with
      ⟨result, hphase⟩ | ⟨hphase, hloops, hobserved, hnone⟩
    · exact ⟨result, hphase, h.reports hphase hkept⟩
    · -- Still waiting: the deadline, if there is one, has passed with nothing seen.
      rcases hdue with hempty | hsome | hcancel
      · exact absurd hempty hloops
      · exact absurd hnone hsome
      · have hpast := hsettled.2.2 (h.clocked.heard hcancel)
        simp [Kept, State.failedInTime, State.inTime, State.CaughtUp, hobserved, hloops, hpast, hphase,
          Phase.isReturned] at hkept

/-- Supervision never swallows a failure, as long as the deadline is kept.  After every schedule that
leaves neither the supervisor nor a timer anything to do: `run` has returned, if it had to, what the
completions call for that were seen within `timeout` of the cancellation, if and only if no step was
late: as long as no failure was seen, no loop ended after the deadline, and when the deadline passed
the supervisor had seen every loop that had ended, and at least one. -/
theorem run_reports_iff (htimeout : timeout ≠ 0)
    (hrun : (supervision timeout loops).run (State.start loops) es = some s)
    (hsettled : Settled timeout s) :
    (StopDue loops es →
      ∃ result, s.phase = .returned result ∧ Reports timeout loops es s result) ↔
      (supervision timeout loops).runOk (OnTime timeout loops) (State.start loops) es :=
  ((tracks_of_run htimeout hrun).reports_iff htimeout hsettled).trans (kept_iff_runOk htimeout hrun)

end Reporting

/-! ## Runs on time, and late -/

/-- The dispatcher ends cleanly after the host cancels, the ingester fails while it is drained, and
the relay never ends. -/
def wedgedRelay : List Event :=
  [.cancel, .elapse 1000000000, .complete 1 .clean, .poll, .poll,
    .complete 2 (.error "broker is gone"), .poll, .elapse defaultDrainTimeout, .poll]

def threeLoops : List String :=
  ["relay:order_snapshot", "dispatcher:product_snapshot", "ingester:product_snapshot"]

theorem run_reports_iff_wedged :
    ∃ s, (supervision defaultDrainTimeout threeLoops).run (State.start threeLoops) wedgedRelay =
        some s ∧
      Settled defaultDrainTimeout s ∧
      ∃ result, s.phase = .returned result ∧
        Reports defaultDrainTimeout threeLoops wedgedRelay s result := by
  obtain ⟨s, hrun, hsettled⟩ :
      ∃ s, (supervision defaultDrainTimeout threeLoops).run (State.start threeLoops) wedgedRelay =
        some s ∧ Settled defaultDrainTimeout s :=
    TransitionSystem.exists_of_run (by decide +kernel)
  refine ⟨s, hrun, hsettled, ?_⟩
  exact (run_reports_iff (by decide) hrun hsettled).2 (by decide +kernel) (by decide)

def twoLoops : List String :=
  ["relay:order_snapshot", "dispatcher:product_snapshot"]

def hour : Nanos :=
  3600 * 1000000000

/-- A schedule after which `run`, with nothing left to do, has not returned what it had to. -/
def Misreports (es : List Event) : Prop :=
  ∃ s, (supervision defaultDrainTimeout twoLoops).run (State.start twoLoops) es = some s ∧
    Settled defaultDrainTimeout s ∧ StopDue twoLoops es ∧
    ¬∃ result, s.phase = .returned result ∧ Reports defaultDrainTimeout twoLoops es s result

theorem misreports_of_run {es : List Event} (hdue : StopDue twoLoops es)
    (h : ((supervision defaultDrainTimeout twoLoops).run (State.start twoLoops) es).map (fun s =>
      decide (Settled defaultDrainTimeout s ∧ ¬Kept defaultDrainTimeout twoLoops s)) = some true) :
    Misreports es := by
  rcases TransitionSystem.exists_of_run h with ⟨s, hrun, hsettled, hkept⟩
  refine ⟨s, hrun, hsettled, hdue, fun hreturns => hkept ?_⟩
  exact ((tracks_of_run (by decide) hrun).reports_iff (by decide) hsettled).1 fun _ => hreturns

/-- The host cancels.  If no loop ends, `run` waits for one without a deadline.  If the loops watch the
token only after an hour, or one ends after the deadline and before the supervisor looks, `run`
succeeds. -/
theorem drain_deadline_missed :
    Misreports [.cancel, .poll, .elapse hour, .poll] ∧
      Misreports [.cancel, .elapse hour, .complete 0 .clean, .complete 1 .clean, .poll, .poll, .poll,
        .poll] ∧
      Misreports [.cancel, .complete 0 .clean, .poll, .poll, .elapse defaultDrainTimeout,
        .complete 1 .clean, .poll, .poll] :=
  ⟨misreports_of_run (by decide) (by decide +kernel), misreports_of_run (by decide) (by decide +kernel),
    misreports_of_run (by decide) (by decide +kernel)⟩

end Runtime
end Kafkaman
