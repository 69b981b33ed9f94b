import Mathlib.Data.List.Sort

/-!
# Numbering — row numbers of a selection, and sequences

Two ways in which a database numbers rows: all rows of a selection at once, by their place in an
order (`rowNumber`), and one row at a time, from a counter that is never handed out twice
(`Sequence`).

* `rowNumber_lt` — row numbers follow the order;
* `rowNumber_inj`, `rowNumber_unique`, `exists_rowNumber`, `exists_of_number` — and count the rows
  from one;
* `Sequence.upcoming_after` — after `k` draws a sequence has moved on by `k`;
* `upcoming_backfilled` — a sequence set to the largest number in use goes on right behind it.
-/

namespace Kafkaman
namespace Lib

universe u v

/-! ## Row numbers -/

section RowNumber

variable {ρ : Type u} {ω : Type v} [LinearOrder ω]

/-- `row_number() OVER (ORDER BY ord)`: the rows with their places, counted from one. -/
def rowNumber (ord : ρ → ω) (rows : List ρ) : List (ρ × Nat) :=
  (rows.insertionSort (fun a b => ord a ≤ ord b)).zipIdx 1

variable {ord : ρ → ω} {rows : List ρ} {a b : ρ} {i j : Nat}

theorem mem_rowNumber_iff :
    (a, i) ∈ rowNumber ord rows ↔
      1 ≤ i ∧ (rows.insertionSort (fun a b => ord a ≤ ord b))[i - 1]? = some a :=
  List.mem_zipIdx_iff_le_and_getElem?_sub

theorem mem_of_mem_rowNumber (h : (a, i) ∈ rowNumber ord rows) : a ∈ rows := by
  have hsorted := List.mem_of_getElem? (mem_rowNumber_iff.1 h).2
  exact (List.mem_insertionSort _).1 hsorted

theorem exists_rowNumber (h : a ∈ rows) : ∃ i, (a, i) ∈ rowNumber ord rows := by
  have hsorted : a ∈ rows.insertionSort (fun a b => ord a ≤ ord b) :=
    (List.mem_insertionSort _).2 h
  rcases List.getElem?_of_mem hsorted with ⟨i, hi⟩
  exact ⟨i + 1, mem_rowNumber_iff.2 ⟨Nat.le_add_left 1 i, hi⟩⟩

theorem rowNumber_bounds (h : (a, i) ∈ rowNumber ord rows) : 1 ≤ i ∧ i ≤ rows.length := by
  rcases mem_rowNumber_iff.1 h with ⟨hone, hget⟩
  rcases List.getElem?_eq_some_iff.1 hget with ⟨hlt, -⟩
  rw [List.length_insertionSort] at hlt
  omega

theorem exists_of_number (hone : 1 ≤ i) (hle : i ≤ rows.length) :
    ∃ a, (a, i) ∈ rowNumber ord rows := by
  have hlt : i - 1 < (rows.insertionSort (fun a b => ord a ≤ ord b)).length := by
    rw [List.length_insertionSort]
    omega
  exact ⟨_, mem_rowNumber_iff.2 ⟨hone, List.getElem?_eq_getElem hlt⟩⟩

theorem rowNumber_inj (ha : (a, i) ∈ rowNumber ord rows) (hb : (b, i) ∈ rowNumber ord rows) :
    a = b :=
  Option.some.inj ((mem_rowNumber_iff.1 ha).2.symm.trans (mem_rowNumber_iff.1 hb).2)

/-- A row selected once has one number. -/
theorem rowNumber_unique (hnodup : rows.Nodup) (hi : (a, i) ∈ rowNumber ord rows)
    (hj : (a, j) ∈ rowNumber ord rows) : i = j := by
  rcases mem_rowNumber_iff.1 hi with ⟨hone, hgeti⟩
  rcases mem_rowNumber_iff.1 hj with ⟨hone', hgetj⟩
  rcases List.getElem?_eq_some_iff.1 hgeti with ⟨hlt, hati⟩
  rcases List.getElem?_eq_some_iff.1 hgetj with ⟨hlt', hatj⟩
  have hsorted : (rows.insertionSort (fun a b => ord a ≤ ord b)).Nodup :=
    (List.perm_insertionSort _ rows).nodup_iff.2 hnodup
  have heq : i - 1 = j - 1 := (hsorted.getElem_inj_iff).1 (hati.trans hatj.symm)
  omega

/-- A row that comes first in the order has the smaller number. -/
theorem rowNumber_lt (ha : (a, i) ∈ rowNumber ord rows) (hb : (b, j) ∈ rowNumber ord rows)
    (hlt : ord a < ord b) : i < j := by
  rcases Nat.lt_trichotomy i j with h | rfl | h
  · exact h
  · rw [rowNumber_inj ha hb] at hlt
    exact absurd hlt (lt_irrefl _)
  · -- The later place of a sorted list does not hold the smaller row.
    rcases mem_rowNumber_iff.1 ha with ⟨hi, hgeta⟩
    rcases mem_rowNumber_iff.1 hb with ⟨hj, hgetb⟩
    rcases List.getElem?_eq_some_iff.1 hgeta with ⟨hia, rfl⟩
    rcases List.getElem?_eq_some_iff.1 hgetb with ⟨hjb, rfl⟩
    have hsorted := List.pairwise_insertionSort (fun a b => ord a ≤ ord b) rows
    have hle := List.pairwise_iff_getElem.1 hsorted (j - 1) (i - 1) hjb hia (by omega)
    exact absurd hlt (not_lt_of_ge hle)

end RowNumber

/-! ## Sequences -/

/-- A sequence: the value it stands at, and whether that value has been handed out. -/
structure Sequence where
  lastValue : Nat
  isCalled : Bool
  deriving DecidableEq, Repr

namespace Sequence

/-- `CREATE SEQUENCE`. -/
def create : Sequence :=
  { lastValue := 1
    isCalled := false }

/-- `setval(sequence, value, is_called)`. -/
def setval (_ : Sequence) (value : Nat) (isCalled : Bool) : Sequence :=
  { lastValue := value
    isCalled := isCalled }

/-- `nextval(sequence)`: the value handed out, and the sequence after it. -/
def nextval (q : Sequence) : Nat × Sequence :=
  let value := if q.isCalled then q.lastValue + 1 else q.lastValue
  (value, { lastValue := value, isCalled := true })

/-- The sequence after `k` draws. -/
def after (q : Sequence) : Nat → Sequence
  | 0 => q
  | k + 1 => (q.after k).nextval.2

theorem upcoming_after (q : Sequence) (k : Nat) :
    (q.after k).nextval.1 = q.nextval.1 + k := by
  induction k with
  | zero =>
      rfl
  | succ k ih =>
      have hmove : (q.after (k + 1)).nextval.1 = (q.after k).nextval.1 + 1 := rfl
      rw [hmove, ih, Nat.add_assoc]

/-- Set to the largest of the numbers `1..n`, or left uncalled at one if there are none, a sequence
hands out `n + 1` next. -/
theorem upcoming_backfilled (q : Sequence) {numbers : List Nat} {n : Nat}
    (h : ∀ i, i ∈ numbers ↔ 1 ≤ i ∧ i ≤ n) :
    (q.setval (numbers.max?.getD 1) (decide (0 < n))).nextval.1 = n + 1 := by
  rcases Nat.eq_zero_or_pos n with rfl | hpos
  · have hnil : numbers = [] := by
      refine List.eq_nil_iff_forall_not_mem.2 fun i hi => ?_
      have := (h i).1 hi
      omega
    simp [hnil, setval, nextval]
  · have hmax : numbers.max? = some n :=
      List.max?_eq_some_iff.2 ⟨(h n).2 ⟨hpos, Nat.le_refl n⟩, fun i hi => ((h i).1 hi).2⟩
    simp [hmax, hpos, setval, nextval]

end Sequence

end Lib
end Kafkaman
