import Mathlib.Data.List.Nodup
import Mathlib.Data.String.Basic
import Mathlib.Order.Defs.LinearOrder

/-!
# SortedMap — ordered maps as strictly sorted association lists

An ordered map iterates its entries in key order and holds one value per key; both facts are the
`sorted` field of the structure.  `insert` overwrites, `insertIfAbsent` keeps the first value
(the `entry(..).or_insert(..)` idiom), and the lookup laws for the two are what callers use.
`filterKeys` selects by key; inserting the entries of a map in order rebuilds it.
-/

namespace Kafkaman
namespace Lib

universe u v

/-- Entries in strictly increasing key order. -/
@[ext]
structure SortedMap (κ : Type u) (ν : Type v) [LinearOrder κ] where
  entries : List (κ × ν)
  sorted : entries.Pairwise fun a b => a.1 < b.1

namespace SortedMap

variable {κ : Type u} {ν : Type v} [LinearOrder κ]

instance [DecidableEq ν] : DecidableEq (SortedMap κ ν) := fun a b =>
  decidable_of_iff (a.entries = b.entries) SortedMap.ext_iff.symm

def empty : SortedMap κ ν :=
  { entries := []
    sorted := List.Pairwise.nil }

def keys (m : SortedMap κ ν) : List κ :=
  m.entries.map Prod.fst

def get? (m : SortedMap κ ν) (k : κ) : Option ν :=
  (m.entries.find? fun e => e.1 = k).map Prod.snd

/-! ## Insertion into a sorted entry list -/

def insertEntry (k : κ) (v : ν) : List (κ × ν) → List (κ × ν)
  | [] => [(k, v)]
  | e :: rest =>
      if k < e.1 then
        (k, v) :: e :: rest
      else if k = e.1 then
        (k, v) :: rest
      else
        e :: insertEntry k v rest

theorem fst_of_mem_insertEntry {k : κ} {v : ν} :
    ∀ {l : List (κ × ν)} {e : κ × ν}, e ∈ insertEntry k v l → e = (k, v) ∨ e ∈ l := by
  intro l
  induction l with
  | nil =>
      intro e h
      exact Or.inl (by simpa [insertEntry] using h)
  | cons x rest ih =>
      intro e h
      unfold insertEntry at h
      split at h
      · exact List.mem_cons.1 h
      · split at h
        · rcases List.mem_cons.1 h with h | h
          · exact Or.inl h
          · exact Or.inr (List.mem_cons_of_mem _ h)
        · rcases List.mem_cons.1 h with h | h
          · exact Or.inr (by simp [h])
          · rcases ih h with h | h
            · exact Or.inl h
            · exact Or.inr (List.mem_cons_of_mem _ h)

theorem sorted_insertEntry (k : κ) (v : ν) :
    ∀ {l : List (κ × ν)}, l.Pairwise (fun a b => a.1 < b.1) →
      (insertEntry k v l).Pairwise fun a b => a.1 < b.1 := by
  intro l
  induction l with
  | nil =>
      intro _
      simp [insertEntry]
  | cons e rest ih =>
      intro h
      rcases List.pairwise_cons.1 h with ⟨hhead, htail⟩
      unfold insertEntry
      split
      · rename_i hlt
        refine List.pairwise_cons.2 ⟨?_, h⟩
        intro x hx
        rcases List.mem_cons.1 hx with rfl | hx
        · exact hlt
        · exact hlt.trans (hhead x hx)
      · rename_i hnlt
        split
        · rename_i heq
          refine List.pairwise_cons.2 ⟨?_, htail⟩
          intro x hx
          simpa [heq] using hhead x hx
        · rename_i hne
          refine List.pairwise_cons.2 ⟨?_, ih htail⟩
          intro x hx
          rcases fst_of_mem_insertEntry hx with rfl | hx
          · exact lt_of_le_of_ne (not_lt.1 hnlt) (Ne.symm hne)
          · exact hhead x hx

theorem find?_insertEntry (k k' : κ) (v : ν) :
    ∀ l : List (κ × ν),
      (insertEntry k v l).find? (fun e => e.1 = k') =
        if k = k' then some (k, v) else l.find? fun e => e.1 = k' := by
  intro l
  induction l with
  | nil =>
      by_cases h : k = k' <;> simp [insertEntry, h]
  | cons e rest ih =>
      unfold insertEntry
      split
      · by_cases h : k = k' <;> simp [h]
      · split
        · rename_i heq
          by_cases h : k = k'
          · simp [h]
          · have he : ¬ e.1 = k' := by
              intro h'
              exact h (heq.trans h')
            simp [h, he]
        · rename_i hne
          -- Inserted further back: the head is in the way only if it is what is looked up.
          by_cases h : k = k'
          · have he : ¬ e.1 = k' := by
              intro h'
              exact hne (h.trans h'.symm)
            rw [List.find?_cons_of_neg (by simpa using he), ih]
            simp [h]
          · rw [List.find?_cons, ih, List.find?_cons]
            simp [h]

/-! ## Map operations -/

/-- Overwriting insert. -/
def insert (m : SortedMap κ ν) (k : κ) (v : ν) : SortedMap κ ν :=
  { entries := insertEntry k v m.entries
    sorted := sorted_insertEntry k v m.sorted }

/-- Insert that keeps a value already present. -/
def insertIfAbsent (m : SortedMap κ ν) (k : κ) (v : ν) : SortedMap κ ν :=
  match m.get? k with
  | some _ => m
  | none => m.insert k v

theorem get?_insert (m : SortedMap κ ν) (k k' : κ) (v : ν) :
    (m.insert k v).get? k' = if k = k' then some v else m.get? k' := by
  unfold get? insert
  rw [find?_insertEntry k k' v m.entries]
  by_cases h : k = k' <;> simp [h]

theorem mem_keys_insert {m : SortedMap κ ν} {k k' : κ} {v : ν} (h : k' ∈ (m.insert k v).keys) :
    k' = k ∨ k' ∈ m.keys := by
  rcases List.mem_map.1 h with ⟨e, he, rfl⟩
  rcases fst_of_mem_insertEntry he with rfl | he
  · exact Or.inl rfl
  · exact Or.inr (List.mem_map_of_mem he)

theorem get?_insertIfAbsent (m : SortedMap κ ν) (k k' : κ) (v : ν) :
    (m.insertIfAbsent k v).get? k' = (m.get? k').or (if k = k' then some v else none) := by
  cases hpresent : m.get? k with
  | some old =>
      rw [insertIfAbsent, hpresent]
      by_cases h : k = k'
      · rw [← h, hpresent]
        rfl
      · simp [h]
  | none =>
      simp only [insertIfAbsent, hpresent, get?_insert]
      by_cases h : k = k'
      · rw [← h, hpresent]
        rfl
      · simp [h]

/-! ## A map is what its lookups say -/

theorem mem_entries_iff {m : SortedMap κ ν} {k : κ} {v : ν} :
    (k, v) ∈ m.entries ↔ m.get? k = some v := by
  unfold get?
  constructor
  · intro hmem
    cases hfind : m.entries.find? fun e => e.1 = k with
    | none =>
        have hnot := List.find?_eq_none.1 hfind (k, v) hmem
        simp at hnot
    | some e =>
        have hkey : e.1 = k := by simpa using List.find?_some hfind
        have hsame : e = (k, v) := by
          have hirrefl := m.sorted.imp fun hlt => hlt.ne
          exact List.inj_on_of_nodup_map (f := Prod.fst) (List.pairwise_map.2 hirrefl)
            (List.mem_of_find?_eq_some hfind) hmem hkey
        rw [hsame]
        rfl
  · intro hget
    rcases Option.map_eq_some_iff.1 hget with ⟨⟨k', v'⟩, hfind, hv⟩
    have hkey : k' = k := by simpa using List.find?_some hfind
    cases hv
    exact hkey ▸ List.mem_of_find?_eq_some hfind

theorem ext_get? {m m' : SortedMap κ ν} (h : ∀ k, m.get? k = m'.get? k) : m = m' := by
  have hmem : ∀ e, e ∈ m.entries ↔ e ∈ m'.entries := by
    rintro ⟨k, v⟩
    rw [mem_entries_iff, mem_entries_iff, h k]
  have hnodup : ∀ m : SortedMap κ ν, m.entries.Nodup := fun m =>
    m.sorted.imp fun hlt heq => absurd (congrArg Prod.fst heq) hlt.ne
  refine SortedMap.ext (List.Perm.eq_of_pairwise ?_ m.sorted m'.sorted
    ((List.perm_ext_iff_of_nodup (hnodup m) (hnodup m')).2 hmem))
  exact fun a b _ _ hab hba => absurd hab hba.not_gt

theorem insert_get?_self {m : SortedMap κ ν} {k : κ} {v : ν} (h : m.get? k = some v) :
    m.insert k v = m := by
  refine ext_get? fun k' => ?_
  rw [get?_insert]
  split
  · rename_i hkey
    rw [← hkey, h]
  · rfl

/-! ## Selecting by key -/

/-- The entries whose key passes. -/
def filterKeys (p : κ → Bool) (m : SortedMap κ ν) : SortedMap κ ν :=
  { entries := m.entries.filter fun e => p e.1
    sorted := m.sorted.filter _ }

theorem filter_insertEntry {p : κ → Bool} {k : κ} (v : ν) (h : p k = false) :
    ∀ l : List (κ × ν),
      (insertEntry k v l).filter (fun e => p e.1) = l.filter fun e => p e.1 := by
  intro l
  induction l with
  | nil =>
      simp [insertEntry, h]
  | cons e rest ih =>
      unfold insertEntry
      split
      · simp [h]
      · split
        · rename_i heq
          simp [h, ← heq]
        · rw [List.filter_cons, List.filter_cons, ih]

theorem filterKeys_insert {p : κ → Bool} {k : κ} (m : SortedMap κ ν) (v : ν) (h : p k = false) :
    (m.insert k v).filterKeys p = m.filterKeys p :=
  SortedMap.ext (filter_insertEntry v h m.entries)

theorem insertEntry_of_lt {k : κ} (v : ν) :
    ∀ {l : List (κ × ν)}, (∀ e ∈ l, e.1 < k) → insertEntry k v l = l ++ [(k, v)] := by
  intro l
  induction l with
  | nil =>
      intro _
      rfl
  | cons e rest ih =>
      intro h
      have he := h e List.mem_cons_self
      rw [insertEntry, if_neg he.not_gt, if_neg he.ne',
        ih fun x hx => h x (List.mem_cons_of_mem _ hx)]
      rfl

theorem entries_foldl_insert :
    ∀ {l : List (κ × ν)} {m : SortedMap κ ν}, l.Pairwise (fun a b => a.1 < b.1) →
      (∀ a ∈ m.entries, ∀ b ∈ l, a.1 < b.1) →
      (l.foldl (fun m e => m.insert e.1 e.2) m).entries = m.entries ++ l := by
  intro l
  induction l with
  | nil =>
      intro m _ _
      simp
  | cons e rest ih =>
      intro m hsorted hbelow
      rcases List.pairwise_cons.1 hsorted with ⟨hhead, htail⟩
      have hentries : (m.insert e.1 e.2).entries = m.entries ++ [e] :=
        insertEntry_of_lt e.2 fun a ha => hbelow a ha e List.mem_cons_self
      rw [List.foldl_cons, ih htail, hentries, List.append_assoc]
      · rfl
      · intro a ha b hb
        rw [hentries] at ha
        rcases List.mem_append.1 ha with ha | ha
        · exact hbelow a ha b (List.mem_cons_of_mem _ hb)
        · rw [List.mem_singleton.1 ha]
          exact hhead b hb

theorem foldl_insert_entries (m : SortedMap κ ν) :
    m.entries.foldl (fun m e => m.insert e.1 e.2) empty = m :=
  SortedMap.ext ((entries_foldl_insert m.sorted fun _ ha => by cases ha).trans (List.nil_append _))

end SortedMap

end Lib
end Kafkaman
