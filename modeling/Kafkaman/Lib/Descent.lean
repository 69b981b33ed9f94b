import Mathlib.Order.Basic

/-!
# Descent — counting the events of an infinite run against a measure

Along a run some instants are events.  A measure that never grows and drops at every event bounds
how many there are, and if an event is always still to come until the run is done, the run gets done.

* `countBefore_add_le` — the events so far and the measure left are within the measure at the start;
* `exists_done` — a run that keeps having events is done at some instant.
-/

namespace Kafkaman
namespace Lib
namespace Descent

/-- How many of the first `n` instants are events. -/
def countBefore (event : Nat → Bool) : Nat → Nat
  | 0 => 0
  | n + 1 => countBefore event n + (event n).toNat

variable (event : Nat → Bool) (measure : Nat → Nat)

theorem countBefore_add_le (hdrop : ∀ n, measure (n + 1) + (event n).toNat ≤ measure n) (n : Nat) :
    countBefore event n + measure n ≤ measure 0 := by
  induction n with
  | zero =>
      exact Nat.le_of_eq (Nat.zero_add _)
  | succ n ih =>
      calc
        countBefore event (n + 1) + measure (n + 1)
            = countBefore event n + (measure (n + 1) + (event n).toNat) := by
              rw [countBefore]
              omega
        _ ≤ countBefore event n + measure n := Nat.add_le_add_left (hdrop n) _
        _ ≤ measure 0 := ih

variable {event measure} in
theorem measure_antitone (hdrop : ∀ n, measure (n + 1) + (event n).toNat ≤ measure n) {m n : Nat}
    (h : n ≤ m) : measure m ≤ measure n := by
  induction h with
  | refl =>
      exact Nat.le_refl _
  | step _ ih =>
      exact Nat.le_trans (Nat.le_trans (Nat.le_add_right _ _) (hdrop _)) ih

theorem exists_done {done : Nat → Prop}
    (hdrop : ∀ n, measure (n + 1) + (event n).toNat ≤ measure n)
    (hlive : ∀ n, ¬ done n → ∃ m, n ≤ m ∧ event m = true) : ∃ n, done n := by
  -- Induction on what is left of the measure: an undone run spends some of it.
  have hbound : ∀ k n, measure n = k → ∃ m, done m := by
    intro k
    induction k using Nat.strongRecOn with
    | _ k ih =>
        intro n hn
        by_cases hdone : done n
        · exact ⟨n, hdone⟩
        · rcases hlive n hdone with ⟨m, hm, hevent⟩
          have hleft := measure_antitone hdrop hm
          have hspent := hdrop m
          rw [hevent, Bool.toNat_true] at hspent
          exact ih (measure (m + 1)) (by omega) (m + 1) rfl
  exact hbound _ 0 rfl

end Descent
end Lib
end Kafkaman
