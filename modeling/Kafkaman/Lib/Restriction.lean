import Kafkaman.Lib.Table

/-!
# Restriction — a table beside one with more rows

A table `t` restricts `t'` to the keys of a set when its rows are the rows of `t'` under those keys,
in the same order.  Statements that select only rows under such keys do the same to both tables:

* `Restricts.filter_eq`, `Restricts.any_eq` — a selection and an `EXISTS` that stay within the set;
* `Restricts.updateWhere`, `Restricts.insert?` — an `UPDATE`, and an `INSERT` under a key of the set;
* `Restricts.deleteWhere` — a `DELETE` on the smaller side alone, which only narrows the set.
-/

namespace Kafkaman
namespace Lib
namespace Table

universe u v

variable {ρ : Type u} {κ : Type v} {key : ρ → κ}

/-- The rows of `t` are the rows of `t'` whose key is in the set. -/
structure Restricts (keep : κ → Bool) (t t' : Table key) : Prop where
  rows : t.rows = t'.rows.filter fun r => keep (key r)

namespace Restricts

variable {keep : κ → Bool} {t t' : Table key} {p : ρ → Bool}

theorem mem_iff (h : Restricts keep t t') {r : ρ} : r ∈ t ↔ r ∈ t' ∧ keep (key r) = true := by
  rw [← mem_rows, h.rows, List.mem_filter]
  rfl

theorem hasKey_iff (h : Restricts keep t t') {k : κ} :
    t.HasKey k ↔ t'.HasKey k ∧ keep k = true := by
  constructor
  · rintro ⟨r, hr, rfl⟩
    rcases h.mem_iff.1 hr with ⟨hr', hkeep⟩
    exact ⟨⟨r, hr', rfl⟩, hkeep⟩
  · rintro ⟨⟨r, hr', rfl⟩, hkeep⟩
    exact ⟨r, h.mem_iff.2 ⟨hr', hkeep⟩, rfl⟩

/-- A selection that stays within the set selects the same rows, in the same order. -/
theorem filter_eq (h : Restricts keep t t') (hp : ∀ r ∈ t', p r = true → keep (key r) = true) :
    t.rows.filter p = t'.rows.filter p := by
  rw [h.rows, List.filter_filter]
  apply List.filter_congr
  intro r hr
  cases hpr : p r with
  | false =>
      rfl
  | true =>
      exact hp r hr hpr

/-- So does an `EXISTS`. -/
theorem any_eq (h : Restricts keep t t') (hp : ∀ r ∈ t', p r = true → keep (key r) = true) :
    t.rows.any p = t'.rows.any p := by
  rw [Bool.eq_iff_iff, List.any_eq_true, List.any_eq_true]
  constructor
  · rintro ⟨r, hr, hpr⟩
    exact ⟨r, (h.mem_iff.1 hr).1, hpr⟩
  · rintro ⟨r, hr, hpr⟩
    exact ⟨r, h.mem_iff.2 ⟨hr, hp r hr hpr⟩, hpr⟩

theorem rowsAffected_eq (h : Restricts keep t t')
    (hp : ∀ r ∈ t', p r = true → keep (key r) = true) :
    t.rowsAffected p = t'.rowsAffected p := by
  rw [rowsAffected, rowsAffected, h.filter_eq hp]

/-- An `UPDATE` leaves keys alone, so it commutes with the restriction. -/
theorem updateWhere (h : Restricts keep t t') {f : ρ → ρ} (hf : ∀ r, key (f r) = key r) :
    Restricts keep (t.updateWhere p f hf) (t'.updateWhere p f hf) := by
  constructor
  rw [updateWhere_rows, updateWhere_rows, h.rows, List.filter_map]
  congr 1
  apply List.filter_congr
  intro r _
  by_cases hpr : p r <;> simp [hpr, hf]

theorem insert? [DecidableEq κ] (h : Restricts keep t t') {r : ρ} (hr : keep (key r) = true) :
    (t.insert? r = none ∧ t'.insert? r = none) ∨
      ∃ u u', t.insert? r = some u ∧ t'.insert? r = some u' ∧ Restricts keep u u' := by
  by_cases hkey : t'.HasKey (key r)
  · exact Or.inl ⟨insert?_eq_none.2 (h.hasKey_iff.2 ⟨hkey, hr⟩), insert?_eq_none.2 hkey⟩
  · have hkey' : ¬ t.HasKey (key r) := fun hhas => hkey (h.hasKey_iff.1 hhas).1
    cases hins : t.insert? r with
    | none =>
        exact absurd (insert?_eq_none.1 hins) hkey'
    | some u =>
        cases hins' : t'.insert? r with
        | none =>
            exact absurd (insert?_eq_none.1 hins') hkey
        | some u' =>
            refine Or.inr ⟨u, u', rfl, rfl, ?_⟩
            constructor
            rw [(insert?_eq_some.1 hins).2, (insert?_eq_some.1 hins').2, h.rows,
              List.filter_append]
            simp [hr]

/-- Deleting on the smaller side takes the deleted keys out of the set. -/
theorem deleteWhere (h : Restricts keep t t') {keep' : κ → Bool}
    (hkeep : ∀ r ∈ t', keep' (key r) = (keep (key r) && !p r)) :
    Restricts keep' (t.deleteWhere p) t' := by
  constructor
  change t.rows.filter (fun r => !p r) = _
  rw [h.rows, List.filter_filter]
  apply List.filter_congr
  intro r hr
  rw [hkeep r hr, Bool.and_comm]

end Restricts

end Table
end Lib
end Kafkaman
