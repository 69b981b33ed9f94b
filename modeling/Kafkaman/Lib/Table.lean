import Mathlib.Data.List.Nodup
import Mathlib.Data.List.Sort

/-!
# Table — keyed relations with single-statement updates

A table is a list of rows whose primary key is a field of the structure, so a table with two rows
under one key cannot be built.  The operations are the effects of one SQL statement on the whole
table:

* `Table.insert?` — `INSERT`, refused on a primary key conflict;
* `Table.updateWhere` — `UPDATE … SET f WHERE p`;
* `Table.alter` — `ALTER TABLE`;
* `Table.deleteWhere` — `DELETE … WHERE p`;
* `orderByLimit` — `ORDER BY … LIMIT n` of a selection;
* `sqlEq`, `sqlLe` — comparisons of nullable columns.

Rows keep their position under updates, which makes the frame of a statement (“every other row is
unchanged”) a pointwise statement about the row list.
-/

namespace Kafkaman
namespace Lib

universe u v w

variable {ρ : Type u} {κ : Type v} {ω : Type w} [LinearOrder ω]

/-! ## Comparisons of nullable columns in a `WHERE` -/

/-- `a = b`, where a comparison with `NULL` selects nothing. -/
def sqlEq {α : Type u} [DecidableEq α] : Option α → Option α → Bool
  | some a, some b => a = b
  | _, _ => false

@[simp] theorem sqlEq_iff {α : Type u} [DecidableEq α] {a b : Option α} :
    sqlEq a b = true ↔ ∃ x, a = some x ∧ b = some x := by
  cases a with
  | none =>
      simp [sqlEq]
  | some x =>
      cases b with
      | none =>
          simp [sqlEq]
      | some y =>
          simp [sqlEq, eq_comm]

/-- `a <= b` for a nullable `a`. -/
def sqlLe (a : Option ω) (b : ω) : Bool :=
  match a with
  | some x => x ≤ b
  | none => false

@[simp] theorem sqlLe_iff {a : Option ω} {b : ω} :
    sqlLe a b = true ↔ ∃ x, a = some x ∧ x ≤ b := by
  cases a with
  | none =>
      simp [sqlLe]
  | some x =>
      simp [sqlLe]

/-! ## Ordered, bounded selections -/

/-- `ORDER BY ord LIMIT n` over the selected rows. -/
def orderByLimit (ord : ρ → ω) (n : Nat) (rows : List ρ) : List ρ :=
  (rows.insertionSort (fun a b => ord a ≤ ord b)).take n

theorem mem_of_mem_orderByLimit {ord : ρ → ω} {n : Nat} {rows : List ρ} {r : ρ}
    (h : r ∈ orderByLimit ord n rows) : r ∈ rows := by
  have hsort : r ∈ rows.insertionSort (fun a b => ord a ≤ ord b) := List.mem_of_mem_take h
  exact (List.mem_insertionSort _).1 hsort

theorem mem_orderByLimit_of_length_le {ord : ρ → ω} {n : Nat} {rows : List ρ} {r : ρ}
    (hn : rows.length ≤ n) (h : r ∈ rows) : r ∈ orderByLimit ord n rows := by
  have hlen : (rows.insertionSort (fun a b => ord a ≤ ord b)).length ≤ n := by
    simpa using hn
  have hall : orderByLimit ord n rows = rows.insertionSort (fun a b => ord a ≤ ord b) :=
    List.take_of_length_le hlen
  simpa [hall] using h

theorem orderByLimit_ne_nil {ord : ρ → ω} {n : Nat} {rows : List ρ} (hn : 0 < n)
    (h : rows ≠ []) : orderByLimit ord n rows ≠ [] := by
  intro hnil
  have hlen : (orderByLimit ord n rows).length = 0 := by
    simp [hnil]
  have hpos : 0 < rows.length := List.length_pos_of_ne_nil h
  have hmin : (orderByLimit ord n rows).length = min n rows.length := by
    simp [orderByLimit]
  omega

theorem eq_singleton_of_nodup {l : List ρ} {a : ρ} (hnodup : l.Nodup) (ha : a ∈ l)
    (hall : ∀ b ∈ l, b = a) : l = [a] := by
  rw [List.eq_replicate_of_mem hall] at hnodup ha ⊢
  have hle := List.nodup_replicate.1 hnodup
  have hne := (List.mem_replicate.1 ha).1
  have hone : l.length = 1 := by omega
  rw [hone]
  rfl

/-! ## Tables -/

/-- Rows with a primary key. -/
@[ext]
structure Table (key : ρ → κ) where
  rows : List ρ
  primaryKey : (rows.map key).Nodup

namespace Table

variable {key : ρ → κ}

def empty : Table key :=
  { rows := []
    primaryKey := by simp }

instance : Membership ρ (Table key) where
  mem t r := r ∈ t.rows

theorem mem_rows {t : Table key} {r : ρ} : r ∈ t.rows ↔ r ∈ t :=
  Iff.rfl

@[simp] theorem not_mem_empty {r : ρ} : ¬ r ∈ (empty : Table key) := by
  simp [← mem_rows, empty]

theorem eq_of_key_eq {t : Table key} {r r' : ρ} (h : r ∈ t) (h' : r' ∈ t)
    (hkey : key r = key r') : r = r' :=
  List.inj_on_of_nodup_map t.primaryKey h h' hkey

/-- Whether some row carries the key `k`. -/
def HasKey (t : Table key) (k : κ) : Prop :=
  ∃ r ∈ t, key r = k

instance [DecidableEq κ] (t : Table key) (k : κ) : Decidable (t.HasKey k) :=
  inferInstanceAs (Decidable (∃ r ∈ t.rows, key r = k))

/-! ### INSERT -/

theorem nodup_append_of_not_hasKey {t : Table key} {r : ρ} (h : ¬ t.HasKey (key r)) :
    ((t.rows ++ [r]).map key).Nodup := by
  rw [List.map_append, List.nodup_append]
  refine ⟨t.primaryKey, by simp, ?_⟩
  intro k hk k' hk'
  rcases List.mem_map.1 hk with ⟨r₀, hr₀, rfl⟩
  have hkr : k' = key r := by simpa using hk'
  intro heq
  exact h ⟨r₀, hr₀, heq.trans hkr⟩

/-- `INSERT`; `none` is the primary key violation. -/
def insert? [DecidableEq κ] (t : Table key) (r : ρ) : Option (Table key) :=
  if h : t.HasKey (key r) then
    none
  else
    some
      { rows := t.rows ++ [r]
        primaryKey := nodup_append_of_not_hasKey h }

theorem insert?_eq_none [DecidableEq κ] {t : Table key} {r : ρ} :
    t.insert? r = none ↔ t.HasKey (key r) := by
  unfold insert?
  split
  · rename_i h
    simp [h]
  · rename_i h
    simp [h]

theorem insert?_eq_some [DecidableEq κ] {t t' : Table key} {r : ρ} :
    t.insert? r = some t' ↔ ¬ t.HasKey (key r) ∧ t'.rows = t.rows ++ [r] := by
  unfold insert?
  split
  · rename_i h
    simp [h]
  · rename_i h
    constructor
    · intro heq
      have : t'.rows = t.rows ++ [r] := by
        have := Option.some.inj heq
        rw [← this]
      exact ⟨h, this⟩
    · rintro ⟨_, hrows⟩
      congr 1
      ext1
      exact hrows.symm

theorem mem_of_insert? [DecidableEq κ] {t t' : Table key} {r r' : ρ} (h : t.insert? r = some t') :
    r' ∈ t' ↔ r' ∈ t ∨ r' = r := by
  have hrows := (insert?_eq_some.1 h).2
  simp [← mem_rows, hrows]

/-! ### UPDATE -/

/-- `UPDATE … SET f WHERE p`, for an assignment that leaves the primary key alone. -/
def updateWhere (t : Table key) (p : ρ → Bool) (f : ρ → ρ) (hf : ∀ r, key (f r) = key r) :
    Table key :=
  { rows := t.rows.map fun r => if p r then f r else r
    primaryKey := by
      have hkeys : (t.rows.map fun r => if p r then f r else r).map key = t.rows.map key := by
        rw [List.map_map]
        apply List.map_congr_left
        intro r _
        by_cases hp : p r <;> simp [hp, hf]
      rw [hkeys]
      exact t.primaryKey }

section UpdateWhere

variable {t : Table key} {p : ρ → Bool} {f : ρ → ρ} {hf : ∀ r, key (f r) = key r}

theorem updateWhere_rows :
    (t.updateWhere p f hf).rows = t.rows.map fun r => if p r then f r else r :=
  rfl

theorem mem_updateWhere {r' : ρ} :
    r' ∈ t.updateWhere p f hf ↔ ∃ r ∈ t, (if p r then f r else r) = r' := by
  simp [← mem_rows, updateWhere]

theorem hasKey_updateWhere {k : κ} : (t.updateWhere p f hf).HasKey k ↔ t.HasKey k := by
  constructor
  · rintro ⟨r', hr', hk⟩
    rcases mem_updateWhere.1 hr' with ⟨r, hr, rfl⟩
    refine ⟨r, hr, ?_⟩
    by_cases hp : p r
    · simpa [hp, hf] using hk
    · simpa [hp] using hk
  · rintro ⟨r, hr, hk⟩
    refine ⟨_, mem_updateWhere.2 ⟨r, hr, rfl⟩, ?_⟩
    by_cases hp : p r
    · simpa [hp, hf] using hk
    · simpa [hp] using hk

theorem updateWhere_eq_self (h : ∀ r ∈ t, p r = false) : t.updateWhere p f hf = t := by
  ext1
  rw [updateWhere_rows]
  have hid : (t.rows.map fun r => if p r then f r else r) = t.rows.map id := by
    apply List.map_congr_left
    intro r hr
    simp [h r hr]
  simpa using hid

end UpdateWhere

/-! ### ALTER TABLE -/

/-- `ALTER TABLE`: every row in another shape, under the key it had. -/
def alter {ρ' : Type u} {key' : ρ' → κ} (t : Table key) (f : ρ → ρ') (hf : ∀ r, key' (f r) = key r) :
    Table key' :=
  { rows := t.rows.map f
    primaryKey := by
      have hkeys : (t.rows.map f).map key' = t.rows.map key := by
        rw [List.map_map]
        exact List.map_congr_left fun r _ => hf r
      rw [hkeys]
      exact t.primaryKey }

theorem mem_alter {ρ' : Type u} {key' : ρ' → κ} {t : Table key} {f : ρ → ρ'}
    {hf : ∀ r, key' (f r) = key r} {r' : ρ'} : r' ∈ t.alter f hf ↔ ∃ r ∈ t, f r = r' := by
  simp [← mem_rows, alter]

/-! ### Affected rows -/

/-- `rows_affected` of a statement with this `WHERE`. -/
def rowsAffected (t : Table key) (p : ρ → Bool) : Nat :=
  (t.rows.filter p).length

theorem rowsAffected_eq_zero {t : Table key} {p : ρ → Bool} :
    t.rowsAffected p = 0 ↔ ∀ r ∈ t, p r = false := by
  simp [rowsAffected, ← mem_rows]

theorem rowsAffected_le_one {t : Table key} {p : ρ → Bool} {k : κ}
    (hp : ∀ r, p r = true → key r = k) : t.rowsAffected p ≤ 1 := by
  by_contra hlt
  have hnodup : ((t.rows.filter p).map key).Nodup :=
    t.primaryKey.sublist (List.filter_sublist.map key)
  have hconst : ∀ x ∈ (t.rows.filter p).map key, x = k := by
    intro x hx
    rcases List.mem_map.1 hx with ⟨r, hr, rfl⟩
    exact hp r (List.mem_filter.1 hr).2
  have hlen : 1 < ((t.rows.filter p).map key).length := by
    simpa [rowsAffected] using Nat.lt_of_not_le hlt
  match hl : (t.rows.filter p).map key, hnodup, hconst, hlen with
  | [], _, _, hlen =>
      simp at hlen
  | [_], _, _, hlen =>
      simp at hlen
  | a :: b :: _, hnodup, hconst, _ =>
      have hab : a = b := by
        rw [hconst a (by simp), hconst b (by simp)]
      simp [hab] at hnodup

theorem rowsAffected_eq_one {t : Table key} {p : ρ → Bool} {k : κ}
    (hp : ∀ r, p r = true → key r = k) :
    t.rowsAffected p = 1 ↔ ∃ r ∈ t, p r = true := by
  have hle := rowsAffected_le_one (t := t) hp
  constructor
  · intro hone
    have hne : ¬ t.rowsAffected p = 0 := by omega
    rw [rowsAffected_eq_zero] at hne
    push Not at hne
    rcases hne with ⟨r, hr, hpr⟩
    exact ⟨r, hr, by simpa using hpr⟩
  · rintro ⟨r, hr, hpr⟩
    have hne : ¬ t.rowsAffected p = 0 := by
      intro hzero
      have := rowsAffected_eq_zero.1 hzero r hr
      simp [hpr] at this
    omega

theorem rowsAffected_add_le {t t' : Table key} {p : ρ → Bool} {ks : List κ} (hnodup : ks.Nodup)
    (hkeys : ∀ k ∈ ks, ∃ r ∈ t, p r = true ∧ key r = k)
    (hback : ∀ r' ∈ t', p r' = true → key r' ∉ ks ∧ ∃ r ∈ t, p r = true ∧ key r = key r') :
    t'.rowsAffected p + ks.length ≤ t.rowsAffected p := by
  have hmem : ∀ {t : Table key} {k : κ}, k ∈ (t.rows.filter p).map key ↔
      ∃ r ∈ t, p r = true ∧ key r = k := by
    simp [← mem_rows, and_assoc]
  have hdisjoint : List.Disjoint ((t'.rows.filter p).map key) ks := by
    intro k hk hks
    rcases hmem.1 hk with ⟨r', hr', hp, rfl⟩
    exact (hback r' hr' hp).1 hks
  have hall : ((t'.rows.filter p).map key ++ ks).Nodup :=
    (t'.primaryKey.sublist (List.filter_sublist.map key)).append hnodup hdisjoint
  have hsubset : (t'.rows.filter p).map key ++ ks ⊆ (t.rows.filter p).map key := by
    intro k hk
    rcases List.mem_append.1 hk with hk | hk
    · rcases hmem.1 hk with ⟨r', hr', hp, rfl⟩
      exact hmem.2 (hback r' hr' hp).2
    · exact hmem.2 (hkeys k hk)
  simpa [rowsAffected] using (List.subperm_of_subset hall hsubset).length_le

/-! ### DELETE -/

/-- `DELETE … WHERE p`. -/
def deleteWhere (t : Table key) (p : ρ → Bool) : Table key :=
  { rows := t.rows.filter fun r => !p r
    primaryKey := t.primaryKey.sublist (List.filter_sublist.map key) }

theorem mem_deleteWhere {t : Table key} {p : ρ → Bool} {r : ρ} :
    r ∈ t.deleteWhere p ↔ r ∈ t ∧ p r = false := by
  simp [← mem_rows, deleteWhere]

/-! ### Reading and writing one row by its key -/

section Keyed

variable [DecidableEq κ]

/-- The row under a key. -/
def lookup (t : Table key) (k : κ) : Option ρ :=
  t.rows.find? fun r => key r = k

theorem lookup_eq_some {t : Table key} {k : κ} {r : ρ} :
    t.lookup k = some r ↔ r ∈ t ∧ key r = k := by
  constructor
  · intro h
    exact ⟨List.mem_of_find?_eq_some h, by simpa using List.find?_some h⟩
  · rintro ⟨hr, rfl⟩
    cases hfind : t.lookup (key r) with
    | none =>
        have hnone := List.find?_eq_none.1 hfind r hr
        simp at hnone
    | some r' =>
        have hkey : key r' = key r := by simpa using List.find?_some hfind
        rw [eq_of_key_eq (List.mem_of_find?_eq_some hfind) hr hkey]

/-- Write a row under its key, over the row that is there if there is one. -/
def put (t : Table key) (r : ρ) : Table key :=
  (t.insert? r).getD
    (t.updateWhere (fun r' => key r' = key r) (fun r' => if key r' = key r then r else r')
      (by
        intro r'
        split
        · rename_i h
          exact h.symm
        · rfl))

theorem mem_put {t : Table key} {r r' : ρ} :
    r' ∈ t.put r ↔ r' = r ∨ r' ∈ t ∧ key r' ≠ key r := by
  unfold put
  cases hins : t.insert? r with
  | some t' =>
      have hfresh := (insert?_eq_some.1 hins).1
      rw [Option.getD_some, mem_of_insert? hins]
      constructor
      · rintro (h | h)
        · exact Or.inr ⟨h, fun hkey => hfresh ⟨r', h, hkey⟩⟩
        · exact Or.inl h
      · rintro (h | ⟨h, _⟩)
        · exact Or.inr h
        · exact Or.inl h
  | none =>
      rcases insert?_eq_none.1 hins with ⟨old, hold, hkey⟩
      rw [Option.getD_none, mem_updateWhere]
      constructor
      · rintro ⟨r₀, hr₀, rfl⟩
        by_cases h : key r₀ = key r
        · simp [h]
        · simp [h, hr₀]
      · rintro (rfl | ⟨h, hne⟩)
        · exact ⟨old, hold, by simp [hkey]⟩
        · exact ⟨r', h, by simp [hne]⟩

theorem lookup_put (t : Table key) (r : ρ) (k : κ) :
    (t.put r).lookup k = if k = key r then some r else t.lookup k := by
  split
  · rename_i h
    exact lookup_eq_some.2 ⟨mem_put.2 (Or.inl rfl), h.symm⟩
  · rename_i h
    ext r'
    rw [lookup_eq_some, lookup_eq_some, mem_put]
    constructor
    · rintro ⟨rfl | ⟨hr', _⟩, hkey⟩
      · exact absurd hkey.symm h
      · exact ⟨hr', hkey⟩
    · rintro ⟨hr', hkey⟩
      exact ⟨Or.inr ⟨hr', fun heq => h (hkey.symm.trans heq)⟩, hkey⟩

end Keyed

end Table

end Lib
end Kafkaman
