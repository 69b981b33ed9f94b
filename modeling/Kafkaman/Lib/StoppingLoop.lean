import Mathlib.Data.List.Basic

/-!
# StoppingLoop — a loop that runs cycle after cycle until one of them ends it

A worker takes one input a cycle, carries a state across cycles, and goes on until the inputs run
out (it was shut down) or a cycle answers with an error that ends it.

* `runLoop` — the loop, with the events its cycles left behind;
* `EndsAtFirst` — it ends at the first history that trips, and at no other;
* `endsAtFirst_runLoop` — the rule: one statement about one cycle gives it for every run;
* `EndsAtFirst.stops_at_iff` — the same as a statement about the number of cycles.
-/

namespace Kafkaman
namespace Lib

universe u v w x

variable {σ : Type u} {α : Type v} {β : Type w} {ε : Type x}

/-- What one cycle hands back to its loop. -/
structure Cycled (σ : Type u) (β : Type w) (ε : Type x) where
  state : σ
  event : β
  /-- The error that ends the loop, if one does. -/
  error : Option ε

/-- A loop that has ended; without an error it was shut down. -/
structure Stopped (σ : Type u) (β : Type w) (ε : Type x) where
  state : σ
  /-- One event a cycle, oldest first. -/
  events : List β
  error : Option ε

/-- Run the cycles in turn, up to the first that ends the loop. -/
def runLoop (cycle : σ → α → Cycled σ β ε) : σ → List α → Stopped σ β ε
  | s, [] =>
      { state := s
        events := []
        error := none }
  | s, a :: as =>
      match (cycle s a).error with
      | some error =>
          { state := (cycle s a).state
            events := [(cycle s a).event]
            error := some error }
      | none =>
          let rest := runLoop cycle (cycle s a).state as
          { state := rest.state
            events := (cycle s a).event :: rest.events
            error := rest.error }

theorem prefix_events_runLoop {cycle : σ → α → Cycled σ α ε}
    (hevent : ∀ s a, (cycle s a).event = a) :
    ∀ (s : σ) (inputs : List α), (runLoop cycle s inputs).events <+: inputs := by
  intro s inputs
  induction inputs generalizing s with
  | nil =>
      exact List.nil_prefix
  | cons a as ih =>
      unfold runLoop
      cases (cycle s a).error with
      | some error =>
          simp only [hevent]
          exact List.cons_prefix_cons.2 ⟨rfl, List.nil_prefix⟩
      | none =>
          simp only [hevent]
          exact List.cons_prefix_cons.2 ⟨rfl, ih _⟩

/-! ## The first history that trips -/

/-- A loop that came to `history` and then ran on: `I` relates history and state, `E` what is known
of the error when the loop ends by one. -/
structure EndsAtFirst (trips : List β → Prop) (I : List β → σ → Prop)
    (E : List β → σ → ε → Prop) (cycles : Nat) (history : List β) (run : Stopped σ β ε) :
    Prop where
  state : I (history ++ run.events) run.state
  earlier : ∀ events, events <+: run.events → events ≠ run.events → ¬ trips (history ++ events)
  error_iff : run.error.isSome = true ↔ trips (history ++ run.events)
  error_spec : ∀ error ∈ run.error, E (history ++ run.events) run.state error
  events_le : run.events.length ≤ cycles
  complete : run.error = none → run.events.length = cycles

section Rule

variable {cycle : σ → α → Cycled σ β ε} {trips : List β → Prop} {I : List β → σ → Prop}
  {E : List β → σ → ε → Prop}

/-- The rule for loops: a cycle keeps `I`, and ends the loop exactly when the history trips with
its event. -/
theorem endsAtFirst_runLoop
    (hstep : ∀ history s a, I history s → ¬ trips history →
      I (history ++ [(cycle s a).event]) (cycle s a).state ∧
        ((cycle s a).error.isSome = true ↔ trips (history ++ [(cycle s a).event])) ∧
        ∀ error ∈ (cycle s a).error,
          E (history ++ [(cycle s a).event]) (cycle s a).state error) :
    ∀ (inputs : List α) (history : List β) (s : σ), I history s → ¬ trips history →
      EndsAtFirst trips I E inputs.length history (runLoop cycle s inputs) := by
  intro inputs
  induction inputs with
  | nil =>
      intro history s hI htrips
      exact
        { state := by simpa [runLoop] using hI
          earlier := fun events hstart hne => absurd (List.prefix_nil.1 hstart) hne
          error_iff := by simpa [runLoop] using htrips
          error_spec := by simp [runLoop]
          events_le := Nat.le_refl _
          complete := fun _ => rfl }
  | cons a as ih =>
      intro history s hI htrips
      rcases hstep history s a hI htrips with ⟨hI', herror, hspec⟩
      -- No shorter history trips than one that has the first event.
      have hfirst : ∀ {events : List β} {tail : List β},
          events <+: (cycle s a).event :: tail → events = [] ∨
            ∃ rest, events = (cycle s a).event :: rest ∧ rest <+: tail := by
        intro events tail hstart
        cases events with
        | nil =>
            exact Or.inl rfl
        | cons b rest =>
            rcases List.cons_prefix_cons.1 hstart with ⟨rfl, hrest⟩
            exact Or.inr ⟨rest, rfl, hrest⟩
      cases hended : (cycle s a).error with
      | some error =>
          simp only [runLoop, hended]
          refine
            { state := hI'
              earlier := ?_
              error_iff := by simpa [hended] using herror
              error_spec := fun e he => hspec e (hended ▸ he)
              events_le := by simp
              complete := fun h => (nomatch h) }
          intro events hstart hne
          rcases hfirst hstart with rfl | ⟨rest, rfl, hrest⟩
          · simpa using htrips
          · exact absurd (by rw [List.prefix_nil.1 hrest]) hne
      | none =>
          have hnot : ¬ trips (history ++ [(cycle s a).event]) := by
            rw [← herror, hended]
            simp
          have hrest := ih _ _ hI' hnot
          simp only [runLoop, hended]
          refine
            { state := by simpa using hrest.state
              earlier := ?_
              error_iff := by simpa using hrest.error_iff
              error_spec := by simpa using hrest.error_spec
              events_le := by simpa using hrest.events_le
              complete := fun h => by simpa using hrest.complete h }
          intro events hstart hne
          rcases hfirst hstart with rfl | ⟨rest, rfl, hstart'⟩
          · simpa using htrips
          · have := hrest.earlier rest hstart' (fun heq => hne (by rw [heq]))
            simpa using this

/-- Counted in cycles: the loop ends by an error at cycle `k` exactly when `k` is the first cycle
after which the history trips. -/
theorem EndsAtFirst.stops_at_iff {cycles : Nat} {run : Stopped σ β ε}
    (h : EndsAtFirst trips I E cycles [] run) {all : List β} (hall : run.events <+: all)
    (hlength : all.length = cycles) (k : Nat) :
    run.error.isSome = true ∧ run.events.length = k + 1 ↔
      k < cycles ∧ trips (all.take (k + 1)) ∧ ∀ j ≤ k, ¬ trips (all.take j) := by
  have htake : ∀ j, run.events.take j <+: run.events := fun j => List.take_prefix j _
  have hevents : ∀ j ≤ run.events.length, all.take j = run.events.take j := by
    intro j hj
    rcases hall with ⟨tail, rfl⟩
    rw [List.take_append_of_le_length hj]
  constructor
  · rintro ⟨hended, hlen⟩
    have htrips : trips run.events := by simpa using h.error_iff.1 hended
    refine ⟨by have := h.events_le; omega, ?_, ?_⟩
    · rw [hevents (k + 1) (by omega), ← hlen, List.take_length]
      exact htrips
    · intro j hj
      rw [hevents j (by omega)]
      have hshort : run.events.take j ≠ run.events := by
        intro heq
        have := congrArg List.length heq
        simp only [List.length_take] at this
        omega
      simpa using h.earlier _ (htake j) hshort
  · rintro ⟨hk, htrips, hfirst⟩
    -- The run is neither shorter than `k + 1` cycles nor longer.
    have hge : k + 1 ≤ run.events.length := by
      by_contra hlt
      cases herror : run.error with
      | none =>
          have := h.complete herror
          omega
      | some error =>
          have hshort : trips run.events := by
            simpa using h.error_iff.1 (by simp [herror])
          have hle : run.events.length ≤ k := by omega
          refine hfirst _ hle ?_
          rw [hevents _ (Nat.le_refl _), List.take_length]
          exact hshort
    rw [hevents _ hge] at htrips
    have heq : run.events.take (k + 1) = run.events := by
      by_contra hne
      exact h.earlier _ (htake _) hne (by simpa using htrips)
    have hlen : run.events.length = k + 1 := by
      have := congrArg List.length heq
      simp only [List.length_take] at this
      omega
    refine ⟨h.error_iff.2 ?_, hlen⟩
    rw [heq] at htrips
    simpa using htrips

end Rule

end Lib
end Kafkaman
