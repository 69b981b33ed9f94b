import Mathlib.Data.List.Induction

/-!
# TransitionSystem — labelled steps, guarded reachability and the invariant rule

A system is a set of initial states together with a partial step function; every source of
nondeterminism (scheduling, failures, answers of the environment) sits in the action that labels
a step.  This keeps the systems executable, so that a concrete schedule can be replayed by
evaluation, and still lets a statement range over *every* schedule.

* `ReachableBy ok s` — `s` is reached by a run whose steps all satisfy the guard `ok`;
* `Reachable s` — the unguarded case;
* `ReachableBy.invariant` — the induction over a run, stated once;
* `ReachableBy.invariant_of_inherited` — the same, under an assumption about the last state;
* `Refines.reachableBy` — runs of one system seen as runs of another;
* `reachableBy_of_run` — a replayed schedule is a run;
* `exists_reachableBy_of_run` — what evaluating a schedule shows of the reachable states;
* `invariant_of_run` — the induction over a replayed schedule, with the schedule at hand;
* `runOk_iff_of_run` — a guard that is the exact price of a property;
* `run_erase` — a schedule without its silent actions.
-/

namespace Kafkaman
namespace Lib

universe u v w x

/-- A labelled transition system with a deterministic, partial step function. -/
structure TransitionSystem (σ : Type u) (α : Type v) where
  init : σ → Prop
  next : σ → α → Option σ

namespace TransitionSystem

variable {σ : Type u} {α : Type v} {τ : Type w} {β : Type x} (S : TransitionSystem σ α)

/-! ## Reachability -/

/-- States reached from an initial state by steps that all satisfy `ok`. -/
inductive ReachableBy (ok : σ → α → Prop) : σ → Prop where
  | start {s : σ} :
      S.init s → ReachableBy ok s
  | step {s s' : σ} {a : α} :
      ReachableBy ok s → ok s a → S.next s a = some s' → ReachableBy ok s'

/-- States reached by an arbitrary run. -/
def Reachable (s : σ) : Prop :=
  S.ReachableBy (fun _ _ => True) s

variable {S}

theorem Reachable.start {s : σ} (h : S.init s) : S.Reachable s :=
  ReachableBy.start h

theorem Reachable.step {s s' : σ} {a : α} (h : S.Reachable s) (hnext : S.next s a = some s') :
    S.Reachable s' :=
  ReachableBy.step h trivial hnext

/-- The invariant rule: what holds initially and is kept by every admitted step holds in every
state reached. -/
theorem ReachableBy.invariant {ok : σ → α → Prop} {I : σ → Prop}
    (hinit : ∀ s, S.init s → I s)
    (hstep : ∀ s a s', I s → ok s a → S.next s a = some s' → I s') :
    ∀ {s : σ}, S.ReachableBy ok s → I s := by
  intro s h
  induction h with
  | start h0 =>
      exact hinit _ h0
  | step _ hok hnext ih =>
      exact hstep _ _ _ ih hok hnext

theorem Reachable.invariant {I : σ → Prop}
    (hinit : ∀ s, S.init s → I s)
    (hstep : ∀ s a s', I s → S.next s a = some s' → I s') :
    ∀ {s : σ}, S.Reachable s → I s := by
  intro s h
  exact ReachableBy.invariant hinit (fun s a s' hI _ hnext => hstep s a s' hI hnext) h

/-- The invariant rule under an assumption about the state reached which every earlier state of the
run inherits. -/
theorem ReachableBy.invariant_of_inherited {ok : σ → α → Prop} {P I : σ → Prop}
    (hback : ∀ s a s', S.ReachableBy ok s → S.next s a = some s' → P s' → P s)
    (hinit : ∀ s, S.init s → I s)
    (hstep : ∀ s a s', S.ReachableBy ok s → I s → P s → P s' → ok s a → S.next s a = some s' →
      I s') :
    ∀ {s : σ}, S.ReachableBy ok s → P s → I s := by
  intro s h
  induction h with
  | start h0 =>
      intro _
      exact hinit _ h0
  | step hreach hok hnext ih =>
      intro hP
      have hbefore := hback _ _ _ hreach hnext hP
      exact hstep _ _ _ hreach (ih hbefore) hbefore hP hok hnext

/-! ## Refinement -/

/-- Through `f`, a run of `S` under the guard `ok` is a run of `T` under the guard `ok'`: each of its
steps is a step of `T`, or leaves what `f` shows alone. -/
structure Refines (S : TransitionSystem σ α) (ok : σ → α → Prop) (T : TransitionSystem τ β)
    (ok' : τ → β → Prop) (f : σ → τ) : Prop where
  start : ∀ s, S.init s → T.init (f s)
  step : ∀ s a s', ok s a → S.next s a = some s' →
    f s' = f s ∨ ∃ b, ok' (f s) b ∧ T.next (f s) b = some (f s')

theorem Refines.reachableBy {T : TransitionSystem τ β} {ok : σ → α → Prop} {ok' : τ → β → Prop}
    {f : σ → τ} (h : Refines S ok T ok' f) {s : σ} (hs : S.ReachableBy ok s) :
    T.ReachableBy ok' (f s) := by
  induction hs with
  | start h0 =>
      exact ReachableBy.start (h.start _ h0)
  | step _ hok hnext ih =>
      rcases h.step _ _ _ hok hnext with hsame | ⟨b, hok', hnext'⟩
      · rw [hsame]
        exact ih
      · exact ReachableBy.step ih hok' hnext'

/-! ## Replaying a schedule -/

variable (S)

/-- Replay a schedule; `none` as soon as one action is not enabled. -/
def run : σ → List α → Option σ
  | s, [] => some s
  | s, a :: as => (S.next s a).bind fun s' => run s' as

/-- The guard `ok` along a replayed schedule. -/
def runOk (ok : σ → α → Prop) : σ → List α → Prop
  | _, [] => True
  | s, a :: as =>
      ok s a ∧
        match S.next s a with
        | none => True
        | some s' => runOk ok s' as

theorem run_append_singleton {a : α} :
    ∀ {as : List α} {s s' : σ}, S.run s (as ++ [a]) = some s' ↔
      ∃ s₁, S.run s as = some s₁ ∧ S.next s₁ a = some s' := by
  intro as
  induction as with
  | nil =>
      simp [run]
  | cons b as ih =>
      intro s s'
      simp only [List.cons_append, run, Option.bind_eq_some_iff, ih]
      constructor
      · rintro ⟨s₁, hnext, s₂, hrun, hlast⟩
        exact ⟨s₂, ⟨s₁, hnext, hrun⟩, hlast⟩
      · rintro ⟨s₂, ⟨s₁, hnext, hrun⟩, hlast⟩
        exact ⟨s₁, hnext, s₂, hrun, hlast⟩

instance decidableRunOk (ok : σ → α → Prop) [∀ s a, Decidable (ok s a)] :
    ∀ (s : σ) (as : List α), Decidable (S.runOk ok s as)
  | _, [] => isTrue trivial
  | s, a :: as =>
      have : Decidable (match S.next s a with
          | none => True
          | some s' => S.runOk ok s' as) :=
        match S.next s a with
        | none => isTrue trivial
        | some s' => decidableRunOk ok s' as
      inferInstanceAs (Decidable (ok s a ∧ _))

variable {S}

/-- The invariant rule for what a replayed schedule and the state it leads to have to do with each
other. -/
theorem invariant_of_run {I : List α → σ → Prop} {s₀ : σ} (hinit : I [] s₀)
    (hstep : ∀ as s a s', I as s → S.next s a = some s' → I (as ++ [a]) s') :
    ∀ {as : List α} {s : σ}, S.run s₀ as = some s → I as s := by
  intro as
  induction as using List.reverseRecOn with
  | nil =>
      intro s hrun
      cases hrun
      exact hinit
  | append_singleton as a ih =>
      intro s hrun
      rcases S.run_append_singleton.1 hrun with ⟨s₁, hrun₁, hnext⟩
      exact hstep as s₁ a s (ih hrun₁) hnext

theorem runOk_append_singleton {ok : σ → α → Prop} {a : α} :
    ∀ {as : List α} {s₀ s : σ}, S.run s₀ as = some s →
      (S.runOk ok s₀ (as ++ [a]) ↔ S.runOk ok s₀ as ∧ ok s a) := by
  intro as
  induction as with
  | nil =>
      intro s₀ s hrun
      cases hrun
      cases hnext : S.next s₀ a <;> simp [runOk, hnext]
  | cons b as ih =>
      intro s₀ s hrun
      rcases Option.bind_eq_some_iff.1 hrun with ⟨s₁, hnext, hrun₁⟩
      simp only [List.cons_append, runOk, hnext, ih hrun₁, and_assoc]

/-- What a step keeps if and only if the guard admits it holds in the end if and only if the guard
admitted every step. -/
theorem runOk_iff_of_run {ok : σ → α → Prop} {I : List α → σ → Prop} {K : σ → Prop} {s₀ : σ}
    (hinit : I [] s₀)
    (hstep : ∀ as s a s', I as s → S.next s a = some s' → I (as ++ [a]) s')
    (hK : K s₀)
    (hiff : ∀ as s a s', I as s → S.next s a = some s' → (K s' ↔ K s ∧ ok s a)) :
    ∀ {as : List α} {s : σ}, S.run s₀ as = some s → (K s ↔ S.runOk ok s₀ as) := by
  intro as
  induction as using List.reverseRecOn with
  | nil =>
      intro s hrun
      cases hrun
      exact iff_of_true hK trivial
  | append_singleton as a ih =>
      intro s hrun
      rcases S.run_append_singleton.1 hrun with ⟨s₁, hrun₁, hnext⟩
      have hI := invariant_of_run hinit hstep hrun₁
      rw [hiff as s₁ a s hI hnext, ih hrun₁, runOk_append_singleton hrun₁]

theorem exists_of_run {s : σ} {as : List α} {Q : σ → Prop} [DecidablePred Q]
    (h : (S.run s as).map (fun s' => decide (Q s')) = some true) :
    ∃ s', S.run s as = some s' ∧ Q s' := by
  rcases Option.map_eq_some_iff.1 h with ⟨s', hrun, hQ⟩
  exact ⟨s', hrun, of_decide_eq_true hQ⟩

theorem reachableBy_of_run {ok : σ → α → Prop} :
    ∀ {as : List α} {s s' : σ}, S.ReachableBy ok s → S.runOk ok s as → S.run s as = some s' →
      S.ReachableBy ok s' := by
  intro as
  induction as with
  | nil =>
      intro s s' hs _ hrun
      have : s = s' := by simpa [run] using hrun
      exact this ▸ hs
  | cons a as ih =>
      intro s s' hs hok hrun
      cases hnext : S.next s a with
      | none =>
          simp [run, hnext] at hrun
      | some s₁ =>
          have hs₁ : S.ReachableBy ok s₁ := ReachableBy.step hs hok.1 hnext
          have hok' : S.runOk ok s₁ as := by
            simpa [hnext] using hok.2
          have hrun' : S.run s₁ as = some s' := by
            simpa [run, hnext] using hrun
          exact ih hs₁ hok' hrun'

/-- Erasing silent actions from a schedule: if the erased run can ignore every silent step and follow
every other one, the two runs stay related. -/
theorem run_erase {ok : σ → α → Prop} {R : σ → σ → Prop} {silent : α → Bool}
    (hsilent : ∀ s s' t a, R s s' → ok s a → S.next s a = some t → silent a = true → R t s')
    (hfollow : ∀ s s' t a, R s s' → ok s a → S.next s a = some t → silent a = false →
      ∃ t', S.next s' a = some t' ∧ R t t') :
    ∀ {as : List α} {s s' t : σ}, R s s' → S.runOk ok s as → S.run s as = some t →
      ∃ t', S.run s' (as.filter fun a => !silent a) = some t' ∧ R t t' := by
  intro as
  induction as with
  | nil =>
      intro s s' t hR _ hrun
      cases hrun
      exact ⟨s', rfl, hR⟩
  | cons a as ih =>
      intro s s' t hR hok hrun
      -- A silent step moves only the full run, any other one both.
      rcases Option.bind_eq_some_iff.1 hrun with ⟨s₁, hnext, hrun'⟩
      have hok' : S.runOk ok s₁ as := by
        simpa [hnext] using hok.2
      cases ha : silent a with
      | true =>
          rw [List.filter_cons_of_neg (by simp [ha])]
          exact ih (hsilent s s' s₁ a hR hok.1 hnext ha) hok' hrun'
      | false =>
          rw [List.filter_cons_of_pos (by simp [ha])]
          rcases hfollow s s' s₁ a hR hok.1 hnext ha with ⟨s₁', hnext', hR'⟩
          rcases ih hR' hok' hrun' with ⟨t', hrun'', hR''⟩
          exact ⟨t', by rw [run, hnext']; exact hrun'', hR''⟩

theorem runOk_true (s : σ) (as : List α) : S.runOk (fun _ _ => True) s as := by
  induction as generalizing s with
  | nil =>
      trivial
  | cons a as ih =>
      refine ⟨trivial, ?_⟩
      cases S.next s a with
      | none =>
          trivial
      | some s' =>
          exact ih s'

theorem reachable_of_run {as : List α} {s s' : σ} (hs : S.Reachable s)
    (hrun : S.run s as = some s') : S.Reachable s' :=
  reachableBy_of_run hs (runOk_true s as) hrun

/-- What evaluating a schedule that keeps the guard shows of the states reached under it. -/
theorem exists_reachableBy_of_run {ok : σ → α → Prop} {Q : σ → Prop} [DecidablePred Q] {s : σ}
    (hs : S.ReachableBy ok s) (as : List α) (hok : S.runOk ok s as)
    (h : (S.run s as).map (fun s' => decide (Q s')) = some true) :
    ∃ s', S.ReachableBy ok s' ∧ Q s' := by
  rcases exists_of_run h with ⟨s', hrun, hQ⟩
  exact ⟨s', reachableBy_of_run hs hok hrun, hQ⟩

theorem exists_reachable_of_run {Q : σ → Prop} [DecidablePred Q] {s : σ} (hs : S.Reachable s)
    (as : List α) (h : (S.run s as).map (fun s' => decide (Q s')) = some true) :
    ∃ s', S.Reachable s' ∧ Q s' :=
  exists_reachableBy_of_run hs as (runOk_true s as) h

end TransitionSystem

end Lib
end Kafkaman
