import Mathlib.Data.Set.Insert
import Mathlib.Order.Basic

/-!
# Register — a register that keeps the greatest value it was shown

A register absorbs values one at a time and holds on to the one of greatest rank.  What it holds is
then a function of the *set* of values shown (`Greatest.unique`), whatever their order and however
often each came (`Greatest.absorb`).
-/

namespace Kafkaman
namespace Lib

universe u v

variable {α : Type u} {ω : Type v} [LinearOrder ω]

/-- Keep the incoming value only if it outranks the present one. -/
def absorb (rank : α → ω) (current : Option α) (a : α) : Option α :=
  match current with
  | none => some a
  | some c => if rank c < rank a then some a else some c

/-- The register content that belongs to a set of values: one of greatest rank, or nothing. -/
def Greatest (rank : α → ω) (S : Set α) : Option α → Prop
  | none => S = ∅
  | some a => a ∈ S ∧ ∀ b ∈ S, rank b ≤ rank a

variable {rank : α → ω} {S : Set α}

theorem absorb_spec (rank : α → ω) (current : Option α) (a : α) :
    ∃ b, absorb rank current a = some b ∧ (b = a ∨ current = some b) ∧ rank a ≤ rank b ∧
      ∀ c, current = some c → rank c ≤ rank b := by
  cases current with
  | none =>
      exact ⟨a, rfl, Or.inl rfl, le_rfl, fun c hc => by cases hc⟩
  | some c =>
      by_cases hlt : rank c < rank a
      · refine ⟨a, by simp [absorb, hlt], Or.inl rfl, le_rfl, ?_⟩
        intro c' hc'
        cases hc'
        exact hlt.le
      · refine ⟨c, by simp [absorb, hlt], Or.inr rfl, not_lt.1 hlt, ?_⟩
        intro c' hc'
        cases hc'
        exact le_rfl

theorem Greatest.absorb {current : Option α} (h : Greatest rank S current) (a : α) :
    Greatest rank (insert a S) (absorb rank current a) := by
  cases current with
  | none =>
      have hS : S = ∅ := h
      refine ⟨Set.mem_insert a S, ?_⟩
      intro b hb
      rcases Set.mem_insert_iff.1 hb with rfl | hb
      · exact le_rfl
      · rw [hS] at hb
        exact absurd hb (Set.notMem_empty b)
  | some c =>
      by_cases hlt : rank c < rank a
      · simp only [Lib.absorb, hlt, if_true]
        refine ⟨Set.mem_insert a S, ?_⟩
        intro b hb
        rcases Set.mem_insert_iff.1 hb with rfl | hb
        · exact le_rfl
        · exact (h.2 b hb).trans hlt.le
      · simp only [Lib.absorb, hlt, if_false]
        refine ⟨Set.mem_insert_of_mem a h.1, ?_⟩
        intro b hb
        rcases Set.mem_insert_iff.1 hb with rfl | hb
        · exact not_lt.1 hlt
        · exact h.2 b hb

/-- Where ranks tell values apart, the content is determined by the set. -/
theorem Greatest.unique {x y : Option α} (hinj : Set.InjOn rank S) (hx : Greatest rank S x)
    (hy : Greatest rank S y) : x = y := by
  cases x with
  | none =>
      cases y with
      | none =>
          rfl
      | some b =>
          have hS : S = ∅ := hx
          exact absurd (hS ▸ hy.1) (Set.notMem_empty b)
  | some a =>
      cases y with
      | none =>
          have hS : S = ∅ := hy
          exact absurd (hS ▸ hx.1) (Set.notMem_empty a)
      | some b =>
          have hrank : rank a = rank b := le_antisymm (hy.2 a hx.1) (hx.2 b hy.1)
          rw [hinj hx.1 hy.1 hrank]

end Lib
end Kafkaman
