import Mathlib.Data.List.Basic
import Mathlib.Data.List.Infix

/-!
# Lib.PollingLoop — a loop that sleeps when it finds nothing to do

A loop of cycles over a state.  After a cycle that found work the next one follows at once; after one
that found none the loop sleeps, and goes on only if the sleep was not cut short by a cancellation.

If a cycle that finds work leaves less of it, the loop gets to its first sleep, and what holds there
holds along the way: `firstSleep_pollLoop` is the rule.
-/

namespace Kafkaman
namespace Lib

variable {σ α β : Type*}

/-- What a cycle leaves: the state, its report, and whether it found work. -/
structure Polled (σ β : Type*) where
  state : σ
  report : β
  busy : Bool

/-- One turn of the loop. -/
structure Turn (α : Type*) where
  /-- The token as it is read before the cycle. -/
  cancelled : Bool
  input : α
  /-- Whether a sleep after this cycle runs to its end. -/
  wakes : Bool

/-- A cycle that was run, with what it met. -/
structure Moment (α σ β : Type*) extends Polled σ β where
  input : α

def pollLoop (cycle : σ → α → Polled σ β) (s : σ) : List (Turn α) → List (Moment α σ β)
  | [] => []
  | turn :: rest =>
      if turn.cancelled then
        []
      else
        let polled := cycle s turn.input
        let moment := { polled with input := turn.input }
        if !polled.busy && !turn.wakes then
          [moment]
        else
          moment :: pollLoop cycle polled.state rest

theorem pollLoop_cons {cycle : σ → α → Polled σ β} {s : σ} {turn : Turn α} {rest : List (Turn α)}
    (h : turn.cancelled = false) :
    pollLoop cycle s (turn :: rest) =
      if !(cycle s turn.input).busy && !turn.wakes then
        [{ cycle s turn.input with input := turn.input }]
      else
        { cycle s turn.input with input := turn.input } ::
          pollLoop cycle (cycle s turn.input).state rest := by
  rw [pollLoop, h]
  rfl

/-- The moments up to the first sleep of a loop over the inputs, where `I` relates the moments so far
to the state. -/
structure FirstSleep (cycle : σ → α → Polled σ β) (I : List (Moment α σ β) → σ → Prop)
    (inputs : List α) (history moments : List (Moment α σ β)) (cycles : Nat)
    (earlier : List (Moment α σ β)) (last : Moment α σ β) : Prop where
  first : earlier ++ [last] <+: moments
  awake : ∀ x ∈ earlier, x.busy = true
  slept : last.busy = false
  cycles_le : earlier.length ≤ cycles
  met : ∃ rest, (history ++ earlier).map Moment.input ++ last.input :: rest = inputs
  polled : ∃ s, I (history ++ earlier) s ∧ last.toPolled = cycle s last.input

section Rule

variable {cycle : σ → α → Polled σ β} {I : List (Moment α σ β) → σ → Prop} {inputs : List α}

theorem FirstSleep.cons {history moments earlier : List (Moment α σ β)} {last x : Moment α σ β}
    {cycles cycles' : Nat}
    (h : FirstSleep cycle I inputs (history ++ [x]) moments cycles earlier last)
    (hbusy : x.busy = true) (hcycles : cycles < cycles') :
    FirstSleep cycle I inputs history (x :: moments) cycles' (x :: earlier) last := by
  refine
    { first := List.cons_prefix_cons.2 ⟨rfl, h.first⟩
      awake := ?_
      slept := h.slept
      cycles_le := (Nat.succ_le_succ h.cycles_le).trans hcycles
      met := by simpa using h.met
      polled := by simpa using h.polled }
  intro y hy
  rcases List.mem_cons.1 hy with rfl | hy
  · exact hbusy
  · exact h.awake y hy

/-- The rule for loops: where every cycle that finds work keeps `I` and leaves less work, the loop
sleeps after at most as many cycles as there was work.  The inputs still to come are known to the
step, so that `I` may depend on their being different. -/
theorem firstSleep_pollLoop (work : σ → Nat)
    (hstep : ∀ history s a rest, history.map Moment.input ++ a :: rest = inputs → I history s →
      (cycle s a).busy = true →
      I (history ++ [{ cycle s a with input := a }]) (cycle s a).state ∧
        work (cycle s a).state < work s) (turns : List (Turn α)) :
    ∀ (history : List (Moment α σ β)) (s : σ),
      history.map Moment.input ++ turns.map Turn.input = inputs →
      (∀ turn ∈ turns, turn.cancelled = false) → I history s → work s < turns.length →
      ∃ earlier last,
        FirstSleep cycle I inputs history (pollLoop cycle s turns) (work s) earlier last := by
  -- On the turns left: a busy cycle spends one of them, and a unit of work at least.
  induction turns with
  | nil =>
      intro history s _ _ _ hlength
      exact absurd hlength (Nat.not_lt_zero _)
  | cons turn rest ih =>
      intro history s hinputs hrunning hI hlength
      rw [pollLoop_cons (hrunning turn List.mem_cons_self)]
      cases hbusy : (cycle s turn.input).busy with
      | false =>
          refine ⟨[], { cycle s turn.input with input := turn.input },
            { first := ?_
              awake := by simp
              slept := hbusy
              cycles_le := Nat.zero_le _
              met := ⟨rest.map Turn.input, by simpa using hinputs⟩
              polled := ⟨s, by simpa using hI, rfl⟩ }⟩
          split <;> simp
      | true =>
          rcases hstep history s turn.input _ hinputs hI hbusy with ⟨hI', hless⟩
          rw [List.length_cons] at hlength
          rcases ih (history ++ [{ cycle s turn.input with input := turn.input }])
            (cycle s turn.input).state (by simpa using hinputs)
            (fun x hx => hrunning x (List.mem_cons_of_mem _ hx)) hI' (by omega) with
            ⟨earlier, last, hsleep⟩
          exact ⟨_ :: earlier, last, hsleep.cons hbusy hless⟩

end Rule

end Lib
end Kafkaman
