import Kafkaman.Lib.Fallible
import Mathlib.Control.Basic
import Mathlib.Data.List.Basic

/-!
# Interruptible — programs that can stop at any of their calls

A program talks to a durable state through calls.  At each call it may go on, be stopped before the
call took effect, or be stopped after it did, and a stop is an error that the program sees or a
crash that it does not.

* `Prog` — a program, run against a script of disturbances;
* `Implements` — a program computes a function of the state, and wherever it stops it has moved the
  state within a given relation;
* `Implements.mapM` — a loop of atomic steps stops between two steps;
* `Implements.state_of_returned` — where any stopped run can be resumed, the first run to return
  ends where a single run would have.
-/

namespace Kafkaman
namespace Lib

universe u

/-- How a call is stopped; without an error the program crashed. -/
inductive Disturbance (ε : Type u)
  | before (error : Option ε)
  | after (error : Option ε)

/-- What happens at each call in turn; past its end nothing is disturbed. -/
abbrev Script (ε : Type u) :=
  List (Option (Disturbance ε))

inductive Ending (ε α : Type u)
  | returned (value : α)
  | raised (error : ε)
  | crashed
  deriving DecidableEq

variable {σ ε α β ι : Type u}

def Ending.stop : Option ε → Ending ε α
  | some error => .raised error
  | none => .crashed

def Ending.ofExcept : Except ε α → Ending ε α
  | .ok value => .returned value
  | .error error => .raised error

/-- A run that is over, with what is left of its script. -/
structure Ended (σ ε α : Type u) where
  ending : Ending ε α
  state : σ
  script : Script ε

def Prog (σ ε α : Type u) :=
  Script ε → σ → Ended σ ε α

namespace Prog

protected def pure (a : α) : Prog σ ε α := fun script s =>
  { ending := .returned a
    state := s
    script := script }

protected def bind (p : Prog σ ε α) (k : α → Prog σ ε β) : Prog σ ε β := fun script s =>
  match p script s with
  | ⟨.returned a, s', rest⟩ => k a rest s'
  | ⟨.raised error, s', rest⟩ => ⟨.raised error, s', rest⟩
  | ⟨.crashed, s', rest⟩ => ⟨.crashed, s', rest⟩

instance : Monad (Prog σ ε) where
  pure := Prog.pure
  bind := Prog.bind

/-- A value computed without a call. -/
def lift (x : Except ε α) : Prog σ ε α := fun script s =>
  { ending := .ofExcept x
    state := s
    script := script }

/-- One call, which changes the state at once or not at all. -/
def call (f : StateT σ (Except ε) α) : Prog σ ε α := fun script s =>
  match script, f s with
  | some (.before error) :: rest, _ => ⟨.stop error, s, rest⟩
  | some (.after error) :: rest, .ok (_, s') => ⟨.stop error, s', rest⟩
  | some (.after error) :: rest, .error _ => ⟨.stop error, s, rest⟩
  | _, .ok (a, s') => ⟨.returned a, s', script.tail⟩
  | _, .error error => ⟨.raised error, s, script.tail⟩

/-- Run `cleanup` once `p` is over; an error of `p` is reported before one of `cleanup`. -/
def release (p : Prog σ ε α) (cleanup : Prog σ ε PUnit) : Prog σ ε α := fun script s =>
  match p script s with
  | ⟨.returned a, s', rest⟩ => (do cleanup; pure a : Prog σ ε α) rest s'
  | ⟨.raised error, s', rest⟩ =>
      match cleanup rest s' with
      | ⟨.crashed, s'', rest'⟩ => ⟨.crashed, s'', rest'⟩
      | ⟨_, s'', rest'⟩ => ⟨.raised error, s'', rest'⟩
  | ⟨.crashed, s', rest⟩ => ⟨.crashed, s', rest⟩

theorem bind_cases (p : Prog σ ε α) (k : α → Prog σ ε β) (script : Script ε) (s : σ) :
    (∃ a, (p script s).ending = .returned a ∧
        (p >>= k) script s = k a (p script s).script (p script s).state) ∨
      ((∀ b, ((p >>= k) script s).ending ≠ .returned b) ∧
        ((p >>= k) script s).state = (p script s).state) := by
  rcases hp : p script s with ⟨_ | _ | _, s', rest⟩
  · exact .inl ⟨_, rfl, by simp [Bind.bind, Prog.bind, hp]⟩
  all_goals exact .inr ⟨by simp [Bind.bind, Prog.bind, hp], by simp [Bind.bind, Prog.bind, hp]⟩

/-- The state after one run for each script. -/
def afterRuns (p : Prog σ ε α) (scripts : List (Script ε)) (s : σ) : σ :=
  scripts.foldl (fun s script => (p script s).state) s

theorem afterRuns_induction {p : Prog σ ε α} {I : σ → Prop}
    (hrun : ∀ script s, I s → I (p script s).state) :
    ∀ (scripts : List (Script ε)) {s : σ}, I s → I (p.afterRuns scripts s) := by
  intro scripts
  induction scripts with
  | nil =>
      intro s hs
      exact hs
  | cons script scripts ih =>
      intro s hs
      exact ih (hrun script s hs)

end Prog

/-- `p` computes `f`: it returns what `f` does in the state `f` leaves, an undisturbed run ends as
`f` does, and wherever a run ends it has moved the state within `R`. -/
structure Implements (p : Prog σ ε α) (f : StateT σ (Except ε) α) (R : σ → σ → Prop) : Prop where
  returned : ∀ {script s a}, (p script s).ending = .returned a →
    f s = .ok (a, (p script s).state)
  reaches : ∀ script s, R s (p script s).state
  undisturbed : ∀ s, (p [] s).ending = .ofExcept ((f s).map Prod.fst) ∧ (p [] s).script = []

/-- All of `f` happened, or nothing of it. -/
def Atomically (f : StateT σ (Except ε) α) (s s' : σ) : Prop :=
  s' = s ∨ ∃ a, f s = .ok (a, s')

abbrev ImplementsAtomically (p : Prog σ ε α) (f : StateT σ (Except ε) α) : Prop :=
  Implements p f (Atomically f)

/-- A first part of the steps happened. -/
def Partly (f : ι → StateT σ (Except ε) β) (steps : List ι) (s s' : σ) : Prop :=
  ∃ done, done <+: steps ∧ ∃ bs, List.mapM' f done s = .ok (bs, s')

namespace Implements

variable {p : Prog σ ε α} {f : StateT σ (Except ε) α} {R : σ → σ → Prop}

theorem weaken {R' : σ → σ → Prop} (h : Implements p f R) (hR : ∀ s s', R s s' → R' s s') :
    Implements p f R' where
  returned := h.returned
  reaches := fun script s => hR _ _ (h.reaches script s)
  undisturbed := h.undisturbed

theorem run_of_ok (h : Implements p f R) {s s' : σ} {a : α} (hf : f s = .ok (a, s')) :
    p [] s = ⟨.returned a, s', []⟩ := by
  rcases h.undisturbed s with ⟨hending, hscript⟩
  have hreturned : (p [] s).ending = .returned a := by
    rw [hending, hf]
    rfl
  have hstate := h.returned hreturned
  rw [hf] at hstate
  cases hrun : p [] s with
  | mk ending state script =>
      rw [hrun] at hreturned hstate hscript
      cases hreturned
      cases hstate
      cases hscript
      rfl

theorem state_eq (h : Implements p f Eq) {s s' : σ} {a : α} (hf : f s = .ok (a, s')) : s' = s := by
  have hreaches := h.reaches [] s
  rw [h.run_of_ok hf] at hreaches
  exact hreaches.symm

theorem pure (a : α) : Implements (Pure.pure a : Prog σ ε α) (Pure.pure a) Eq where
  returned := by
    intro script s b hending
    cases hending
    rfl
  reaches := fun _ _ => rfl
  undisturbed := fun _ => ⟨rfl, rfl⟩

theorem lift (x : Except ε α) : Implements (Prog.lift x : Prog σ ε α) (StateT.lift x) Eq where
  returned := by
    intro script s a hending
    cases x with
    | error error => cases hending
    | ok b =>
        cases hending
        rfl
  reaches := fun _ _ => rfl
  undisturbed := by
    intro s
    cases x with
    | error error => exact ⟨rfl, rfl⟩
    | ok b => exact ⟨rfl, rfl⟩

theorem call (f : StateT σ (Except ε) α) : ImplementsAtomically (Prog.call f) f where
  returned := by
    intro script s a hending
    cases hf : f s with
    | error error =>
        rcases script with _ | ⟨_ | ⟨_ | _⟩ | ⟨_ | _⟩, rest⟩ <;>
          simp [Prog.call, hf, Ending.stop] at hending
    | ok next =>
        rcases next with ⟨b, s'⟩
        rcases script with _ | ⟨_ | ⟨_ | _⟩ | ⟨_ | _⟩, rest⟩ <;>
          simp [Prog.call, hf, Ending.stop] at hending ⊢
        all_goals exact hending
  reaches := by
    intro script s
    cases hf : f s with
    | error error =>
        rcases script with _ | ⟨_ | _ | _, rest⟩ <;>
          exact .inl (by simp [Prog.call, hf])
    | ok next =>
        rcases script with _ | ⟨_ | _ | _, rest⟩
        case cons.some.before => exact .inl (by simp [Prog.call])
        all_goals exact .inr ⟨next.1, by simp [Prog.call, hf]⟩
  undisturbed := by
    intro s
    cases hf : f s with
    | error error =>
        simp [Prog.call, hf, Ending.ofExcept, Except.map]
    | ok next =>
        simp [Prog.call, hf, Ending.ofExcept, Except.map]

theorem call_eq (hf : ∀ {s a s'}, f s = .ok (a, s') → s' = s) : Implements (Prog.call f) f Eq := by
  refine (call f).weaken ?_
  rintro s s' (rfl | ⟨a, h⟩)
  · rfl
  · exact (hf h).symm

/-! ## Sequences -/

variable {k : α → Prog σ ε β} {g : α → StateT σ (Except ε) β} {Q : σ → σ → Prop}

theorem bind {S : α → σ → σ → Prop} (hp : Implements p f R)
    (hk : ∀ a, Implements (k a) (g a) (S a)) (hfirst : ∀ {s s'}, R s s' → Q s s')
    (hthen : ∀ {s s' s'' a}, f s = .ok (a, s') → S a s' s'' → Q s s'') :
    Implements (p >>= k) (f >>= g) Q where
  returned := by
    intro script s b hending
    rcases Prog.bind_cases p k script s with ⟨a, ha, hrun⟩ | ⟨hnot, -⟩
    · rw [hrun] at hending ⊢
      have hf := hp.returned ha
      have hg := (hk a).returned hending
      simp [Bind.bind, StateT.bind, Except.bind, hf, hg]
    · exact absurd hending (hnot b)
  reaches := by
    intro script s
    rcases Prog.bind_cases p k script s with ⟨a, ha, hrun⟩ | ⟨-, hstate⟩
    · rw [hrun]
      exact hthen (hp.returned ha) ((hk a).reaches _ _)
    · rw [hstate]
      exact hfirst (hp.reaches script s)
  undisturbed := by
    intro s
    cases hf : f s with
    | error error =>
        rcases hp.undisturbed s with ⟨hending, hscript⟩
        rw [hf] at hending
        rcases hrun : p [] s with ⟨ending, s', rest⟩
        rw [hrun] at hending hscript
        cases hending
        cases hscript
        simp [Bind.bind, Prog.bind, StateT.bind, Except.bind, hrun, hf, Ending.ofExcept, Except.map]
    | ok next =>
        rcases next with ⟨a, s'⟩
        have hrun := hp.run_of_ok hf
        have hsecond := (hk a).undisturbed s'
        simpa [Bind.bind, Prog.bind, StateT.bind, Except.bind, hrun, hf] using hsecond

theorem bind_reads (hp : Implements p f Eq) (hrefl : ∀ s, Q s s)
    (hk : ∀ a, Implements (k a) (g a) Q) : Implements (p >>= k) (f >>= g) Q := by
  refine hp.bind hk ?_ ?_
  · rintro s _ rfl
    exact hrefl s
  · intro s s' s'' a hf hsecond
    rw [← hp.state_eq hf]
    exact hsecond

theorem bind_atomically (hp : Implements p f Eq)
    (hk : ∀ a, ImplementsAtomically (k a) (g a)) :
    ImplementsAtomically (p >>= k) (f >>= g) := by
  refine hp.bind hk (fun h => .inl h.symm) ?_
  rintro s s' s'' a hf (rfl | ⟨b, hg⟩)
  · exact .inl (hp.state_eq hf)
  · exact .inr ⟨b, by simp [Bind.bind, StateT.bind, Except.bind, hf, hg]⟩

theorem atomically_pure (hp : ImplementsAtomically p f) (h : α → β) :
    ImplementsAtomically (p >>= fun a => Pure.pure (h a)) (f >>= fun a => Pure.pure (h a)) := by
  have hall : ∀ {s s' : σ} {a : α}, f s = .ok (a, s') →
      Atomically (f >>= fun a => Pure.pure (h a)) s s' := by
    intro s s' a hf
    exact .inr ⟨h a, by simp [Bind.bind, StateT.bind, Except.bind, hf]; rfl⟩
  refine hp.bind (fun a => pure (h a)) ?_ ?_
  · rintro s s' (rfl | ⟨a, hf⟩)
    · exact .inl rfl
    · exact hall hf
  · rintro s s' s'' a hf rfl
    exact hall hf

theorem lift_bind (x : Except ε α) (y : α → Except ε β) :
    (StateT.lift x >>= fun a => StateT.lift (y a) : StateT σ (Except ε) β) = StateT.lift (x >>= y) := by
  cases x with
  | error error => rfl
  | ok a => rfl

theorem lift_bind_apply (x : Except ε α) (s : σ) : (StateT.lift x >>= g) s = (x >>= fun a => g a s) := by
  cases x with
  | error error => rfl
  | ok a => rfl

theorem foldlM {body : β → ι → Prog σ ε β} {step : β → ι → Except ε β}
    (hbody : ∀ b i, Implements (body b i) (StateT.lift (step b i)) Eq) :
    ∀ (steps : List ι) (b : β),
      Implements (steps.foldlM body b) (StateT.lift (steps.foldlM step b)) Eq := by
  intro steps
  induction steps with
  | nil =>
      intro b
      exact pure b
  | cons i steps ih =>
      intro b
      rw [List.foldlM_cons, List.foldlM_cons, ← lift_bind]
      exact (hbody b i).bind_reads Eq.refl ih

theorem mapM_reads {body : ι → Prog σ ε β} {step : ι → Except ε β}
    (hbody : ∀ i, Implements (body i) (StateT.lift (step i)) Eq) :
    ∀ steps : List ι, Implements (steps.mapM' body) (StateT.lift (steps.mapM' step)) Eq := by
  intro steps
  induction steps with
  | nil => exact pure []
  | cons i steps ih =>
      rw [List.mapM'_cons, List.mapM'_cons, ← lift_bind]
      refine (hbody i).bind_reads Eq.refl fun b => ?_
      rw [← lift_bind]
      exact ih.bind_reads Eq.refl fun bs => pure (b :: bs)

end Implements

/-! ## Loops of atomic steps -/

section Loops

variable {body : ι → Prog σ ε β} {f : ι → StateT σ (Except ε) β}

theorem Partly.refl (steps : List ι) (s : σ) : Partly f steps s s :=
  ⟨[], List.nil_prefix, [], rfl⟩

theorem mapM'_cons_apply (i : ι) (steps : List ι) (s : σ) :
    List.mapM' f (i :: steps) s =
      (f i s >>= fun first => List.mapM' f steps first.2 >>= fun rest =>
        .ok (first.1 :: rest.1, rest.2)) :=
  rfl

theorem mapM'_append_apply (first second : List ι) (s : σ) :
    List.mapM' f (first ++ second) s =
      (List.mapM' f first s >>= fun one => List.mapM' f second one.2 >>= fun two =>
        .ok (one.1 ++ two.1, two.2)) := by
  simp only [List.mapM'_eq_mapM, List.mapM_append]
  rfl

theorem mapM'_cons_ok {i : ι} {steps : List ι} {s s' : σ} {bs : List β} :
    List.mapM' f (i :: steps) s = .ok (bs, s') ↔
      ∃ b t rest, f i s = .ok (b, t) ∧ List.mapM' f steps t = .ok (rest, s') ∧ bs = b :: rest := by
  simp only [mapM'_cons_apply, bind_eq_ok, Except.ok.injEq, Prod.mk.injEq, Prod.exists]
  constructor
  · rintro ⟨b, t, hfirst, rest, _, hrest, rfl, rfl⟩
    exact ⟨b, t, rest, hfirst, hrest, rfl⟩
  · rintro ⟨b, t, rest, hfirst, hrest, rfl⟩
    exact ⟨b, t, hfirst, rest, s', hrest, rfl, rfl⟩

theorem mapM'_append_ok {first second : List ι} {s s' : σ} {bs : List β} :
    List.mapM' f (first ++ second) s = .ok (bs, s') ↔
      ∃ bs₁ t bs₂, List.mapM' f first s = .ok (bs₁, t) ∧ List.mapM' f second t = .ok (bs₂, s') ∧
        bs = bs₁ ++ bs₂ := by
  simp only [mapM'_append_apply, bind_eq_ok, Except.ok.injEq, Prod.mk.injEq, Prod.exists]
  constructor
  · rintro ⟨bs₁, t, hfirst, bs₂, _, hsecond, rfl, rfl⟩
    exact ⟨bs₁, t, bs₂, hfirst, hsecond, rfl⟩
  · rintro ⟨bs₁, t, bs₂, hfirst, hsecond, rfl⟩
    exact ⟨bs₁, t, hfirst, bs₂, s', hsecond, rfl, rfl⟩

/-- A loop of atomic steps stops between two of them. -/
theorem Implements.mapM (hbody : ∀ i, ImplementsAtomically (body i) (f i)) :
    ∀ steps : List ι, Implements (steps.mapM' body) (steps.mapM' f) (Partly f steps) := by
  intro steps
  induction steps with
  | nil => exact (Implements.pure []).weaken (by rintro s _ rfl; exact Partly.refl [] s)
  | cons i steps ih =>
      have hone : ∀ {s s' : σ} {b : β}, f i s = .ok (b, s') → Partly f (i :: steps) s s' := by
        intro s s' b hf
        exact ⟨[i], by simp, [b], mapM'_cons_ok.2 ⟨b, s', [], hf, rfl, rfl⟩⟩
      refine (hbody i).bind (S := fun _ => Partly f steps) (fun b => ?_) ?_ ?_
      · refine (ih.bind (fun bs => Implements.pure (b :: bs)) id ?_)
        -- nothing is left to do once the rest of the loop has returned
        rintro s s' s'' bs hrest rfl
        exact ⟨steps, List.prefix_refl _, bs, hrest⟩
      · rintro s s' (rfl | ⟨b, hf⟩)
        · exact Partly.refl _ _
        · exact hone hf
      · rintro s s' s'' b hf ⟨done, hdone, bs, hbs⟩
        exact ⟨i :: done, List.cons_prefix_cons.2 ⟨rfl, hdone⟩, b :: bs,
          mapM'_cons_ok.2 ⟨b, s', bs, hf, hbs, rfl⟩⟩

end Loops

/-! ## Cleaning up, and running again -/

section Runs

variable {p : Prog σ ε α} {f : StateT σ (Except ε) α} {R : σ → σ → Prop}

theorem Prog.release_cases {cleanup : Prog σ ε PUnit} (hcleanup : ∀ script s, s = (cleanup script s).state)
    (script : Script ε) (s : σ) :
    (p.release cleanup script s).state = (p script s).state ∧
      ∀ a, (p.release cleanup script s).ending = .returned a → (p script s).ending = .returned a := by
  rcases hrun : p script s with ⟨b | error | _, s', rest⟩
  · have hstate := hcleanup rest s'
    rcases hdone : cleanup rest s' with ⟨_ | _ | _, s'', rest'⟩ <;> rw [hdone] at hstate <;>
      subst hstate <;>
      simp [Prog.release, hrun, hdone, Bind.bind, Prog.bind, Pure.pure, Prog.pure]
  · have hstate := hcleanup rest s'
    rcases hdone : cleanup rest s' with ⟨_ | _ | _, s'', rest'⟩ <;> rw [hdone] at hstate <;>
      subst hstate <;>
      simp [Prog.release, hrun, hdone]
  · simp [Prog.release, hrun]

theorem Implements.release (hp : Implements p f R) {cleanup : Prog σ ε PUnit}
    (hcleanup : Implements cleanup (Pure.pure ⟨⟩) Eq) :
    Implements (p.release cleanup) f R where
  returned := by
    intro script s a hending
    rcases Prog.release_cases (p := p) hcleanup.reaches script s with ⟨hstate, hreturned⟩
    rw [hstate]
    exact hp.returned (hreturned a hending)
  reaches := by
    intro script s
    rw [(Prog.release_cases (p := p) hcleanup.reaches script s).1]
    exact hp.reaches script s
  undisturbed := by
    intro s
    rcases hp.undisturbed s with ⟨hending, hscript⟩
    have hclean : ∀ s', cleanup [] s' = ⟨.returned ⟨⟩, s', []⟩ := fun s' => hcleanup.run_of_ok rfl
    rcases hrun : p [] s with ⟨ending, s', rest⟩
    rw [hrun] at hending hscript
    cases hscript
    cases hf : f s with
    | error error =>
        rw [hf] at hending
        cases hending
        simp [Prog.release, hrun, hclean, Ending.ofExcept, Except.map]
    | ok next =>
        rw [hf] at hending
        cases hending
        simp [Prog.release, hrun, hclean, Bind.bind, Prog.bind, Pure.pure, Prog.pure,
          Ending.ofExcept, Except.map]

/-- Where the states a run may stop in lead to the same end, the first run to return ends where a
single run from the start does. -/
theorem Implements.state_of_returned (hp : Implements p f R)
    (hresume : ∀ {s s' t}, R s s' → (∃ a, f s' = .ok (a, t)) → ∃ a, f s = .ok (a, t))
    (scripts : List (Script ε)) {script : Script ε} {s : σ} {a : α}
    (hreturned : (p script (p.afterRuns scripts s)).ending = .returned a) :
    ∃ b, f s = .ok (b, (p script (p.afterRuns scripts s)).state) := by
  have hback : ∀ t, (∃ a, f (p.afterRuns scripts s) = .ok (a, t)) → ∃ a, f s = .ok (a, t) :=
    Prog.afterRuns_induction (p := p) (I := fun s' => ∀ t, (∃ a, f s' = .ok (a, t)) → ∃ a, f s = .ok (a, t))
      (fun script s' hs' t ht => hs' t (hresume (hp.reaches script s') ht)) scripts (fun _ => id)
  exact hback _ ⟨a, hp.returned hreturned⟩

end Runs

end Lib
end Kafkaman
