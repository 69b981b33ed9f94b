import Mathlib.Algebra.GroupWithZero.Nat
import Mathlib.Data.List.DropRight

/-!
# SeparatedList — lists of fields between separators, with blanks around them

A text is split at a separator, every field is trimmed, and empty fields are dropped: `fields`.
Joining fields again is a right inverse, on fields that are what they should be.

* `trim` — `dropWhile` at both ends;
* `IsField` — not empty, trimmed, and without the separator;
* `fields_intercalate` — joined fields are read back;
* `weight_intercalate_le` — what is joined of a text is no heavier than the text.
-/

namespace Kafkaman
namespace Lib
namespace SeparatedList

universe u

variable {α : Type u}

/-- The list without the blanks at its two ends. -/
def trim (blank : α → Bool) (l : List α) : List α :=
  (l.dropWhile blank).rdropWhile blank

section Trim

variable {blank : α → Bool} {l : List α}

theorem trim_sublist : (trim blank l).Sublist l :=
  (List.rdropWhile_prefix blank _).sublist.trans (List.dropWhile_sublist blank)

theorem trim_trim (l : List α) : trim blank (trim blank l) = trim blank l := by
  have hleft : (trim blank l).dropWhile blank = trim blank l := by
    rw [List.dropWhile_eq_self_iff]
    intro hpos
    have hinner : (l.dropWhile blank).dropWhile blank = l.dropWhile blank :=
      List.dropWhile_idempotent blank l
    have hlen : 0 < (l.dropWhile blank).length :=
      Nat.lt_of_lt_of_le hpos (List.rdropWhile_prefix blank _).length_le
    have hhead := List.dropWhile_eq_self_iff.1 hinner hlen
    rwa [← (List.rdropWhile_prefix blank (l.dropWhile blank)).getElem hpos] at hhead
  rw [trim, hleft, trim, List.rdropWhile_idempotent]

theorem getLast?_of_trim (h : trim blank l = l) {a : α} (ha : l.getLast? = some a) :
    ¬ blank a = true := by
  have hself : l.rdropWhile blank = l := by
    rw [← h, trim, List.rdropWhile_idempotent]
  have hne : l ≠ [] := by
    rintro rfl
    cases ha
  have hlast := List.rdropWhile_eq_self_iff.1 hself hne
  rw [List.getLast?_eq_some_getLast hne] at ha
  rwa [← Option.some.inj ha]

end Trim

section Fields

variable (separator : α) (blank : α → Bool)

/-- The trimmed pieces that hold something. -/
def nonempty (pieces : List (List α)) : List (List α) :=
  (pieces.map (trim blank)).filter fun field => !field.isEmpty

/-- The fields of a list. -/
def fields [DecidableEq α] (l : List α) : List (List α) :=
  nonempty blank (l.splitOn separator)

structure IsField (field : List α) : Prop where
  ne_nil : field ≠ []
  trimmed : trim blank field = field
  separator : separator ∉ field

variable {separator blank}

theorem nonempty_cons_of_blank {piece : List α} {rest : List (List α)}
    (h : (trim blank piece).isEmpty = true) :
    nonempty blank (piece :: rest) = nonempty blank rest := by
  simp [nonempty, List.isEmpty_iff.1 h]

theorem nonempty_cons_of_not_blank {piece : List α} {rest : List (List α)}
    (h : (trim blank piece).isEmpty = false) :
    nonempty blank (piece :: rest) = trim blank piece :: nonempty blank rest := by
  rw [nonempty, List.map_cons, List.filter_cons_of_pos (by rw [h]; rfl)]
  rfl

theorem nonempty_of_isField {pieces : List (List α)}
    (h : ∀ piece ∈ pieces, IsField separator blank piece) : nonempty blank pieces = pieces := by
  have hmap : pieces.map (trim blank) = pieces := by
    refine (List.map_congr_left fun piece hpiece => ?_).trans (List.map_id pieces)
    exact (h piece hpiece).trimmed
  rw [nonempty, hmap, List.filter_eq_self]
  intro piece hpiece
  simpa using (h piece hpiece).ne_nil

variable [DecidableEq α]

theorem not_mem_of_mem_splitOn {l piece : List α} (h : piece ∈ l.splitOn separator) :
    separator ∉ piece := by
  induction l generalizing piece with
  | nil =>
      simp only [List.splitOn_nil, List.mem_singleton] at h
      simp [h]
  | cons x rest ih =>
      rw [List.splitOn_cons_eq_if_modifyHead] at h
      split at h
      · rcases List.mem_cons.1 h with rfl | h
        · exact List.not_mem_nil
        · exact ih h
      · rename_i hx
        cases hrest : rest.splitOn separator with
        | nil =>
            rw [hrest] at h
            cases h
        | cons first others =>
            rw [hrest] at h ih
            rcases List.mem_cons.1 h with rfl | h
            · intro hmem
              rcases List.mem_cons.1 hmem with rfl | hmem
              · exact hx (beq_self_eq_true _)
              · exact ih List.mem_cons_self hmem
            · exact ih (List.mem_cons_of_mem _ h)

omit [DecidableEq α] in
theorem intercalate_cons (field : List α) (rest : List (List α)) :
    [separator].intercalate (field :: rest) = field ++ rest.flatMap fun f => separator :: f := by
  induction rest generalizing field with
  | nil =>
      simp
  | cons next rest ih =>
      rw [List.intercalate_cons_cons, ih, List.flatMap_cons, List.append_assoc]
      rfl

theorem splitOn_eq_cons_iff {l first : List α} {rest : List (List α)} :
    l.splitOn separator = first :: rest ↔
      l = first ++ (rest.flatMap fun f => separator :: f) ∧ separator ∉ first ∧
        ∀ f ∈ rest, separator ∉ f := by
  constructor
  · intro h
    have hjoin : [separator].intercalate (l.splitOn separator) = l :=
      List.intercalate_splitOn separator
    rw [h, intercalate_cons] at hjoin
    have hpieces : ∀ piece ∈ first :: rest, separator ∉ piece := fun piece hpiece =>
      not_mem_of_mem_splitOn (h ▸ hpiece)
    exact ⟨hjoin.symm, List.forall_mem_cons.1 hpieces⟩
  · rintro ⟨rfl, hfirst, hrest⟩
    rw [← intercalate_cons]
    exact List.splitOn_intercalate separator
      (List.forall_mem_cons.2 ⟨hfirst, hrest⟩) (List.cons_ne_nil _ _)

theorem isField_of_mem_fields {l field : List α} (h : field ∈ fields separator blank l) :
    IsField separator blank field := by
  rcases List.mem_filter.1 h with ⟨hmem, hne⟩
  rcases List.mem_map.1 hmem with ⟨piece, hpiece, rfl⟩
  exact
    { ne_nil := by simpa using hne
      trimmed := trim_trim piece
      separator := fun hsep => not_mem_of_mem_splitOn hpiece (trim_sublist.subset hsep) }

/-- Joined fields are read back. -/
theorem fields_intercalate {joined : List (List α)} (hne : joined ≠ [])
    (h : ∀ field ∈ joined, IsField separator blank field) :
    fields separator blank ([separator].intercalate joined) = joined := by
  rw [fields, List.splitOn_intercalate separator (fun field hfield => (h field hfield).separator)
    hne]
  exact nonempty_of_isField h

end Fields

/-! ## Weights -/

section Weight

variable (w : α → Nat)

def weight (l : List α) : Nat :=
  (l.map w).sum

/-- The weight of the fields, each with a separator after it. -/
def total (c : Nat) (pieces : List (List α)) : Nat :=
  weight (fun piece => weight w piece + c) pieces

variable {w}

theorem weight_le_of_sublist {l l' : List α} (h : l.Sublist l') : weight w l ≤ weight w l' := by
  induction h with
  | slnil =>
      exact Nat.le_refl _
  | cons a _ ih =>
      exact Nat.le_trans ih (Nat.le_add_left _ _)
  | cons_cons a _ ih =>
      exact Nat.add_le_add_left ih _

theorem weight_intercalate (separator : α) {pieces : List (List α)} (hne : pieces ≠ []) :
    weight w ([separator].intercalate pieces) + w separator = total w (w separator) pieces := by
  induction pieces with
  | nil =>
      exact absurd rfl hne
  | cons piece rest ih =>
      cases rest with
      | nil =>
          simp [total, weight]
      | cons next others =>
          have hrest := ih (List.cons_ne_nil next others)
          have hstep : [separator].intercalate (piece :: next :: others) =
              piece ++ separator :: [separator].intercalate (next :: others) := by
            simp [List.intercalate, List.intersperse]
          have hweight : weight w ([separator].intercalate (piece :: next :: others)) =
              weight w piece + (w separator + weight w ([separator].intercalate (next :: others))) := by
            rw [hstep]
            simp [weight]
          have htotal : total w (w separator) (piece :: next :: others) =
              weight w piece + w separator + total w (w separator) (next :: others) := by
            simp [total, weight]
          omega

theorem total_nonempty_le {c : Nat} {blank : α → Bool} (pieces : List (List α)) :
    total w c (nonempty blank pieces) ≤ total w c pieces := by
  induction pieces with
  | nil =>
      exact Nat.le_refl _
  | cons piece rest ih =>
      have htrim : weight w (trim blank piece) ≤ weight w piece :=
        weight_le_of_sublist trim_sublist
      have hcons : total w c (piece :: rest) = weight w piece + c + total w c rest := by
        simp [total, weight]
      cases hempty : (trim blank piece).isEmpty with
      | true =>
          rw [nonempty_cons_of_blank hempty, hcons]
          omega
      | false =>
          have hkept : total w c (trim blank piece :: nonempty blank rest) =
              weight w (trim blank piece) + c + total w c (nonempty blank rest) := by
            simp [total, weight]
          rw [nonempty_cons_of_not_blank hempty, hcons, hkept]
          omega

/-- What is joined of the fields of a list is no heavier than the list. -/
theorem weight_intercalate_le [DecidableEq α] {separator : α} {blank : α → Bool}
    {joined : List (List α)} {l : List α} (hne : joined ≠ [])
    (h : joined.Sublist (fields separator blank l)) :
    weight w ([separator].intercalate joined) ≤ weight w l := by
  have hsplit : weight w l + w separator = total w (w separator) (l.splitOn separator) := by
    have := weight_intercalate (w := w) separator (List.splitOn_ne_nil separator l)
    rwa [List.intercalate_splitOn] at this
  have hjoined := weight_intercalate (w := w) separator hne
  have hsub : total w (w separator) joined ≤ total w (w separator) (fields separator blank l) :=
    weight_le_of_sublist h
  have hfields : total w (w separator) (fields separator blank l) ≤ _ :=
    total_nonempty_le (l.splitOn separator)
  omega

end Weight

end SeparatedList
end Lib
end Kafkaman
