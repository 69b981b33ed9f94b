import Kafkaman.Lib.Table

/-!
# Paging — an ordered selection, taken page by page

A statement with `ORDER BY … LIMIT n` returns the first rows of the ordered selection.  When the
order tells all rows apart, the rest of the selection is what is still selected once the page is
gone, and in the same order; so successive pages of any sizes cut one list into consecutive blocks.

* `ordered` — the selection in order, without a limit;
* `forall₂_ordered` — two selections with the same keys, row by row;
* `ordered_filter` — selecting first or ordering first comes to the same;
* `ordered_filter_not_page` — the order of what a page leaves behind.
-/

namespace Kafkaman
namespace Lib

universe u v w

variable {ρ : Type u} {ω : Type w} [LinearOrder ω] {ord : ρ → ω}

/-- `ORDER BY ord` over the selected rows. -/
def ordered (ord : ρ → ω) (rows : List ρ) : List ρ :=
  rows.insertionSort (fun a b => ord a ≤ ord b)

theorem orderByLimit_eq_take (n : Nat) (rows : List ρ) :
    orderByLimit ord n rows = (ordered ord rows).take n :=
  rfl

theorem ordered_perm (rows : List ρ) : (ordered ord rows).Perm rows :=
  List.perm_insertionSort _ rows

@[simp] theorem mem_ordered {rows : List ρ} {r : ρ} : r ∈ ordered ord rows ↔ r ∈ rows :=
  (ordered_perm rows).mem_iff

theorem ordered_pairwise (ord : ρ → ω) (rows : List ρ) :
    (ordered ord rows).Pairwise fun a b => ord a ≤ ord b := by
  have htotal : Std.Total fun a b : ρ => ord a ≤ ord b :=
    ⟨fun a b => le_total (ord a) (ord b)⟩
  have htrans : IsTrans ρ fun a b => ord a ≤ ord b :=
    ⟨fun _ _ _ hab hbc => le_trans hab hbc⟩
  exact List.pairwise_insertionSort _ rows

theorem ordered_map {σ : Type v} (f : σ → ρ) (rows : List σ) :
    ordered ord (rows.map f) = (ordered (fun r => ord (f r)) rows).map f :=
  (List.map_insertionSort _ _ f rows fun _ _ _ _ => Iff.rfl).symm

/-! ## Rows matched key by key -/

theorem map_eq_of_forall₂ {σ : Type v} {τ : Type w} {f : ρ → τ} {g : σ → τ} {l : List ρ}
    {l' : List σ} (h : List.Forall₂ (fun a b => f a = g b) l l') : l.map f = l'.map g := by
  rw [← List.forall₂_eq_eq_eq, List.forall₂_map_left_iff, List.forall₂_map_right_iff]
  exact h

omit [LinearOrder ω] in
theorem forall₂_of_map_eq {R : ρ → ρ → Prop} {l l' : List ρ} (hmap : l.map ord = l'.map ord)
    (hR : ∀ a ∈ l, ∀ b ∈ l', ord a = ord b → R a b) : List.Forall₂ R l l' := by
  induction l generalizing l' with
  | nil =>
      rw [List.map_eq_nil_iff.1 hmap.symm]
      exact .nil
  | cons a l ih =>
      cases l' with
      | nil =>
          cases hmap
      | cons b l' =>
          rcases List.cons.inj hmap with ⟨hhead, htail⟩
          refine .cons (hR a List.mem_cons_self b List.mem_cons_self hhead) (ih htail ?_)
          exact fun c hc d hd => hR c (List.mem_cons_of_mem _ hc) d (List.mem_cons_of_mem _ hd)

/-- Two selections with the same keys agree row by row once they are ordered. -/
theorem forall₂_ordered {R : ρ → ρ → Prop} {rows rows' : List ρ}
    (hkeys : (rows.map ord).Perm (rows'.map ord))
    (hR : ∀ a ∈ rows, ∀ b ∈ rows', ord a = ord b → R a b) :
    List.Forall₂ R (ordered ord rows) (ordered ord rows') := by
  have hsorted : ∀ rows : List ρ, ((ordered ord rows).map ord).Pairwise (· ≤ ·) := fun rows =>
    List.pairwise_map.2 (ordered_pairwise ord rows)
  have hperm : ∀ rows : List ρ, ((ordered ord rows).map ord).Perm (rows.map ord) := fun rows =>
    (ordered_perm rows).map ord
  have hmap : (ordered ord rows).map ord = (ordered ord rows').map ord :=
    ((hperm rows).trans (hkeys.trans (hperm rows').symm)).eq_of_pairwise
      (fun _ _ _ _ => le_antisymm) (hsorted rows) (hsorted rows')
  exact forall₂_of_map_eq hmap fun a ha b hb => hR a (mem_ordered.1 ha) b (mem_ordered.1 hb)

theorem exists_of_forall₂ {R : ρ → ρ → Prop} {l l' : List ρ} (h : List.Forall₂ R l l') {a : ρ}
    (ha : a ∈ l) : ∃ b ∈ l', R a b := by
  induction h with
  | nil =>
      exact absurd ha List.not_mem_nil
  | @cons c d l l' hhead htail ih =>
      rcases List.mem_cons.1 ha with rfl | ha
      · exact ⟨d, List.mem_cons_self, hhead⟩
      · rcases ih ha with ⟨b, hb, hab⟩
        exact ⟨b, List.mem_cons_of_mem _ hb, hab⟩

section Injective

variable {rows : List ρ} (hinj : ∀ a ∈ rows, ∀ b ∈ rows, ord a = ord b → a = b)

include hinj

theorem eq_ordered_of_perm {l : List ρ} (hperm : l.Perm rows)
    (hsorted : l.Pairwise fun a b => ord a ≤ ord b) : l = ordered ord rows := by
  refine List.Perm.eq_of_pairwise ?_ hsorted (ordered_pairwise ord rows)
    (hperm.trans (ordered_perm rows).symm)
  intro a b ha hb hab hba
  exact hinj a (hperm.mem_iff.1 ha) b (mem_ordered.1 hb) (le_antisymm hab hba)

theorem ordered_filter (p : ρ → Bool) :
    ordered ord (rows.filter p) = (ordered ord rows).filter p := by
  symm
  refine eq_ordered_of_perm ?_ ((ordered_perm rows).filter p) ?_
  · intro a ha b hb
    exact hinj a (List.mem_of_mem_filter ha) b (List.mem_of_mem_filter hb)
  · exact (ordered_pairwise ord rows).filter p

end Injective

theorem filter_not_mem_take {l : List ρ} (hnodup : l.Nodup) (n : Nat) (onPage : ρ → Bool)
    (honPage : ∀ r ∈ l, onPage r = true ↔ r ∈ l.take n) :
    l.filter (fun r => !onPage r) = l.drop n := by
  have hsplit : l.take n ++ l.drop n = l := List.take_append_drop n l
  have hdisjoint : ∀ r ∈ l.drop n, r ∉ l.take n := by
    have := List.nodup_append.1 (hsplit.symm ▸ hnodup)
    exact fun r hdrop htake => this.2.2 r htake r hdrop rfl
  have htake : (l.take n).filter (fun r => !onPage r) = [] := by
    rw [List.filter_eq_nil_iff]
    intro r hr
    simp [(honPage r (List.mem_of_mem_take hr)).2 hr]
  have hdrop : (l.drop n).filter (fun r => !onPage r) = l.drop n := by
    rw [List.filter_eq_self]
    intro r hr
    have hnot : ¬ onPage r = true := fun h =>
      hdisjoint r hr ((honPage r (List.mem_of_mem_drop hr)).1 h)
    simp [hnot]
  calc
    l.filter (fun r => !onPage r) = (l.take n ++ l.drop n).filter (fun r => !onPage r) := by
      rw [hsplit]
    _ = l.drop n := by
      rw [List.filter_append, htake, hdrop, List.nil_append]

/-- What a page leaves behind, in the order it had. -/
theorem ordered_filter_not_page {rows : List ρ} (hnodup : rows.Nodup)
    (hinj : ∀ a ∈ rows, ∀ b ∈ rows, ord a = ord b → a = b) (n : Nat) (onPage : ρ → Bool)
    (honPage : ∀ r ∈ rows, onPage r = true ↔ r ∈ (ordered ord rows).take n) :
    ordered ord (rows.filter fun r => !onPage r) = (ordered ord rows).drop n := by
  rw [ordered_filter hinj]
  refine filter_not_mem_take ((ordered_perm rows).nodup_iff.2 hnodup) n onPage ?_
  intro r hr
  exact honPage r (mem_ordered.1 hr)

end Lib
end Kafkaman
