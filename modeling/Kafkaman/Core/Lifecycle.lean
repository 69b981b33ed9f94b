import Mathlib.Algebra.GroupWithZero.Nat
import Mathlib.Data.List.Forall2

/-!
# Core.Lifecycle — which successes get an event of their own

A worker loop counts its successes and emits as many events as the configured rate owes for them.
The rate is a fraction of a million, and the counters are 64-bit and saturate.

* `LifecycleSampler.take` — count some successes, and the events due for them;
* `SampleRate.owed` — the events owed after `n` successes;
* `take_batch` — a sampler emits what is owed for a batch; `take_one` for a single success;
* `takeAll_tracks` — over batches the differences add up;
* `sampled` — the successes that get an event.
-/

namespace Kafkaman

/-- `RATE_DENOMINATOR`. -/
def rateDenominator : Nat := 1000000

/-- `u64::MAX`. -/
def u64Max : Nat := 18446744073709551615

/-- What `LifecycleEmission` comes to: events per `rateDenominator` successes, and none at all for a
numerator of zero. -/
structure SampleRate where
  numerator : Nat
  le_denominator : numerator ≤ rateDenominator

structure LifecycleSampler where
  /-- `none` emits nothing. -/
  numerator : Option Nat
  seen : Nat
  emitted : Nat

namespace LifecycleSampler

/-- Record successes; the second component is how many events to emit for them. -/
def take (sampler : LifecycleSampler) (successes : Nat) : LifecycleSampler × Nat :=
  match sampler.numerator with
  | none => (sampler, 0)
  | some numerator =>
      if successes = 0 then
        (sampler, 0)
      else
        let seen := min (sampler.seen + min successes u64Max) u64Max
        let owed := min (seen * numerator / rateDenominator) u64Max
        ({ sampler with seen := seen, emitted := owed }, min (owed - sampler.emitted) u64Max)

/-- What each of some batches is answered with, one after the other. -/
def takeAll (sampler : LifecycleSampler) : List Nat → List Nat
  | [] => []
  | successes :: batches =>
      (sampler.take successes).2 :: (sampler.take successes).1.takeAll batches

end LifecycleSampler

namespace SampleRate

variable (rate : SampleRate)

def sampler : LifecycleSampler :=
  { numerator := if rate.numerator = 0 then none else some rate.numerator
    seen := 0
    emitted := 0 }

/-- The events owed after `n` successes. -/
def owed (n : Nat) : Nat :=
  min n u64Max * rate.numerator / rateDenominator

@[simp] theorem owed_zero : rate.owed 0 = 0 := by
  simp [owed]

theorem owed_le (n : Nat) : rate.owed n ≤ min n u64Max := by
  have hle : min n u64Max * rate.numerator ≤ min n u64Max * rateDenominator :=
    Nat.mul_le_mul_left _ rate.le_denominator
  calc
    rate.owed n ≤ min n u64Max * rateDenominator / rateDenominator :=
      Nat.div_le_div_right hle
    _ = min n u64Max :=
      Nat.mul_div_cancel _ (by decide)

theorem owed_succ_le (n : Nat) : rate.owed (n + 1) ≤ rate.owed n + 1 := by
  -- The counter saturates, so it moves by one at most.
  have hmin : min (n + 1) u64Max ≤ min n u64Max + 1 := by omega
  have hmul : min (n + 1) u64Max * rate.numerator ≤
      min n u64Max * rate.numerator + rateDenominator := by
    calc
      min (n + 1) u64Max * rate.numerator ≤ (min n u64Max + 1) * rate.numerator :=
        Nat.mul_le_mul_right _ hmin
      _ = min n u64Max * rate.numerator + rate.numerator :=
        Nat.succ_mul _ _
      _ ≤ min n u64Max * rate.numerator + rateDenominator :=
        Nat.add_le_add_left rate.le_denominator _
  calc
    rate.owed (n + 1) ≤ (min n u64Max * rate.numerator + rateDenominator) / rateDenominator :=
      Nat.div_le_div_right hmul
    _ = rate.owed n + 1 :=
      Nat.add_div_right _ (by decide)

theorem owed_mono {m n : Nat} (h : m ≤ n) : rate.owed m ≤ rate.owed n :=
  Nat.div_le_div_right (Nat.mul_le_mul_right _ (by omega))

theorem owed_of_le {n : Nat} (h : u64Max ≤ n) : rate.owed (n + 1) = rate.owed n := by
  have hmin : min (n + 1) u64Max = min n u64Max := by omega
  rw [owed, owed, hmin]

/-- Everything. -/
def all : SampleRate :=
  { numerator := rateDenominator
    le_denominator := Nat.le_refl _ }

theorem owed_all (n : Nat) : all.owed n = min n u64Max :=
  Nat.mul_div_cancel _ (by decide)

/-- The sampler of this rate, after `n` successes. -/
structure Tracks (n : Nat) (sampler : LifecycleSampler) : Prop where
  numerator : sampler.numerator = if rate.numerator = 0 then none else some rate.numerator
  seen : rate.numerator ≠ 0 → sampler.seen = min n u64Max
  emitted : sampler.emitted = rate.owed n

theorem tracks_sampler : rate.Tracks 0 rate.sampler :=
  { numerator := rfl
    seen := fun _ => by simp [sampler]
    emitted := by simp [sampler] }

/-- The sampler some successes later. -/
theorem take_batch {n : Nat} {sampler : LifecycleSampler} (h : rate.Tracks n sampler) (k : Nat) :
    rate.Tracks (n + k) (sampler.take k).1 ∧
      (sampler.take k).2 = rate.owed (n + k) - rate.owed n := by
  unfold LifecycleSampler.take
  rw [h.numerator]
  by_cases hzero : rate.numerator = 0
  · rw [if_pos hzero]
    -- A rate of zero owes nothing and is left unsampled.
    have howed : ∀ m, rate.owed m = 0 := fun m => by simp [owed, hzero]
    refine ⟨?_, by simp [howed]⟩
    exact
      { numerator := h.numerator
        seen := fun hne => absurd hzero hne
        emitted := by rw [howed, h.emitted, howed] }
  · rw [if_neg hzero]
    by_cases hk : k = 0
    · subst hk
      simp only [if_true]
      exact ⟨h, (Nat.sub_self _).symm⟩
    · simp only [hk, if_false]
      -- Saturating twice is saturating once.
      have hseen : min (sampler.seen + min k u64Max) u64Max = min (n + k) u64Max := by
        rw [h.seen hzero]
        omega
      have hbound : rate.owed (n + k) ≤ u64Max :=
        Nat.le_trans (rate.owed_le (n + k)) (Nat.min_le_right _ _)
      have howed : min (min (sampler.seen + min k u64Max) u64Max * rate.numerator /
          rateDenominator) u64Max = rate.owed (n + k) := by
        rw [hseen]
        exact Nat.min_eq_left hbound
      rw [howed]
      refine ⟨?_, ?_⟩
      · exact
          { numerator := by rw [if_neg hzero]
            seen := fun _ => hseen
            emitted := rfl }
      · rw [h.emitted]
        omega

/-- The sampler one success later. -/
theorem take_one {n : Nat} {sampler : LifecycleSampler} (h : rate.Tracks n sampler) :
    rate.Tracks (n + 1) (sampler.take 1).1 ∧
      (sampler.take 1).2 = rate.owed (n + 1) - rate.owed n :=
  rate.take_batch h 1

/-! ## Batches of successes -/

theorem owed_add_le (n k : Nat) : rate.owed (n + k) ≤ rate.owed n + k := by
  induction k with
  | zero =>
      exact Nat.le_refl _
  | succ k ih =>
      have hstep := rate.owed_succ_le (n + k)
      rw [← Nat.add_assoc]
      omega

/-- What a tracking sampler returns, batch by batch: no call more than its batch, and all of them
together what is owed for the sum. -/
theorem takeAll_tracks {n : Nat} {sampler : LifecycleSampler} (h : rate.Tracks n sampler)
    (batches : List Nat) :
    (sampler.takeAll batches).sum = rate.owed (n + batches.sum) - rate.owed n ∧
      List.Forall₂ (· ≤ ·) (sampler.takeAll batches) batches := by
  induction batches generalizing n sampler with
  | nil =>
      exact ⟨(Nat.sub_self _).symm, .nil⟩
  | cons k batches ih =>
      rcases rate.take_batch h k with ⟨htracks, hemit⟩
      rcases ih htracks with ⟨hsum, hall⟩
      -- A batch is owed no more events than it has successes.
      have hle := rate.owed_add_le n k
      have hfirst : rate.owed n ≤ rate.owed (n + k) := rate.owed_mono (Nat.le_add_right _ _)
      have hrest : rate.owed (n + k) ≤ rate.owed (n + k + batches.sum) :=
        rate.owed_mono (Nat.le_add_right _ _)
      rw [LifecycleSampler.takeAll, List.sum_cons, List.sum_cons, hemit, hsum, ← Nat.add_assoc]
      exact ⟨by omega, .cons (by omega) hall⟩

/-- Over any batches that fit the counter, a sampler emits the whole number of events its rate owes
for their sum, however the sum is split, and no call emits more than its batch. -/
theorem sampler_exact (q : Nat) (hpos : 1 ≤ q) (hle : q ≤ 1000000) (batches : List Nat)
    (hsum : batches.sum < 2 ^ 64) :
    let sampler : LifecycleSampler := { numerator := some q, seen := 0, emitted := 0 }
    (sampler.takeAll batches).sum = batches.sum * q / 1000000 ∧
      (∀ batches' : List Nat, batches'.sum = batches.sum →
        (sampler.takeAll batches').sum = (sampler.takeAll batches).sum) ∧
      List.Forall₂ (· ≤ ·) (sampler.takeAll batches) batches := by
  intro sampler
  have hsampler : sampler = (SampleRate.mk q hle).sampler := by
    simp only [SampleRate.sampler, if_neg (Nat.ne_of_gt hpos), sampler]
  have htracks : (SampleRate.mk q hle).Tracks 0 sampler :=
    hsampler ▸ (SampleRate.mk q hle).tracks_sampler
  -- The total depends on the sum alone; below the bound the counter has not saturated.
  have htotal : ∀ batches' : List Nat, batches'.sum = batches.sum →
      (sampler.takeAll batches').sum = batches.sum * q / 1000000 := by
    intro batches' hsame
    rw [((SampleRate.mk q hle).takeAll_tracks htracks batches').1, hsame, owed_zero, Nat.sub_zero,
      Nat.zero_add, owed, Nat.min_eq_left (by simp only [u64Max]; omega)]
    rfl
  refine ⟨htotal batches rfl, fun batches' hsame => ?_, ?_⟩
  · rw [htotal batches' hsame, htotal batches rfl]
  · exact ((SampleRate.mk q hle).takeAll_tracks htracks batches).2

/-- Three quarters of seven successes, counted in three batches. -/
theorem sampler_exact_seven :
    let sampler : LifecycleSampler := { numerator := some 750000, seen := 0, emitted := 0 }
    (sampler.takeAll [1, 0, 6]).sum = 7 * 750000 / 1000000 ∧
      (∀ batches' : List Nat, batches'.sum = 7 →
        (sampler.takeAll batches').sum = (sampler.takeAll [1, 0, 6]).sum) ∧
      List.Forall₂ (· ≤ ·) (sampler.takeAll [1, 0, 6]) [1, 0, 6] :=
  sampler_exact 750000 (by decide) (by decide) [1, 0, 6] (by decide)

/-! ## The successes that get an event -/

/-- Of a list of successes that `n` others came before, those an event falls on. -/
def sampled {α : Type} : Nat → List α → List α
  | _, [] => []
  | n, a :: as =>
      (if rate.owed n < rate.owed (n + 1) then [a] else []) ++ sampled (n + 1) as

variable {α : Type}

theorem length_sampled (n : Nat) (as : List α) :
    (rate.sampled n as).length = rate.owed (n + as.length) - rate.owed n := by
  induction as generalizing n with
  | nil =>
      simp [sampled]
  | cons a as ih =>
      have hstep := rate.owed_succ_le n
      have hmono : rate.owed n ≤ rate.owed (n + 1) := rate.owed_mono (Nat.le_add_right _ _)
      have htail : rate.owed (n + 1) ≤ rate.owed (n + 1 + as.length) :=
        rate.owed_mono (Nat.le_add_right _ _)
      have hindex : n + (as.length + 1) = n + 1 + as.length := by omega
      rw [sampled, List.length_append, ih, List.length_cons, hindex]
      split
      · rw [List.length_singleton]
        omega
      · rw [List.length_nil]
        omega

theorem sampled_append (n : Nat) (as bs : List α) :
    rate.sampled n (as ++ bs) = rate.sampled n as ++ rate.sampled (n + as.length) bs := by
  induction as generalizing n with
  | nil =>
      simp [sampled]
  | cons a as ih =>
      have hindex : n + (as.length + 1) = n + 1 + as.length := by omega
      rw [List.cons_append, sampled, sampled, ih, List.append_assoc, List.length_cons, hindex]

theorem mem_take_of_mem_sampled {n : Nat} {as : List α} {a : α} (h : a ∈ rate.sampled n as) :
    a ∈ as.take (u64Max - n) := by
  induction as generalizing n with
  | nil =>
      cases h
  | cons b as ih =>
      rw [sampled, List.mem_append] at h
      -- With the counter full nothing more is owed, now or later.
      have hroom : n < u64Max := by
        by_contra hfull
        rcases h with h | h
        · rw [rate.owed_of_le (Nat.le_of_not_lt hfull), if_neg (Nat.lt_irrefl _)] at h
          cases h
        · have hnone : u64Max - (n + 1) = 0 := by omega
          have := ih h
          rw [hnone] at this
          cases this
      have hcount : u64Max - n = (u64Max - (n + 1)) + 1 := by omega
      rw [hcount, List.take_succ_cons, List.mem_cons]
      rcases h with h | h
      · split at h
        · exact Or.inl (List.mem_singleton.1 h)
        · cases h
      · exact Or.inr (ih h)

theorem sampled_all (n : Nat) (as : List α) : all.sampled n as = as.take (u64Max - n) := by
  induction as generalizing n with
  | nil =>
      simp [sampled]
  | cons a as ih =>
      rw [sampled, owed_all, owed_all, ih]
      by_cases hroom : n < u64Max
      · have hcount : u64Max - n = (u64Max - (n + 1)) + 1 := by omega
        rw [if_pos (by omega), hcount, List.take_succ_cons, List.singleton_append]
      · have hnone : u64Max - n = 0 := by omega
        have hnone' : u64Max - (n + 1) = 0 := by omega
        rw [if_neg (by omega), hnone, hnone', List.take_zero, List.take_zero, List.nil_append]

end SampleRate

end Kafkaman
