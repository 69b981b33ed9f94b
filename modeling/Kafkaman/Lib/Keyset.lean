import Mathlib.Data.Finset.Sort
import Mathlib.Data.List.Chain

/-!
# Keyset — walking a finite set of keys page by page after a cursor

A keyset scan asks again and again for the next few keys above the last key it has seen.  Its pages
may be cut anywhere; what the scan is for is the increasing list of all keys after its cursor.

* `AfterCursor`, `remaining` — the keys that are left, in order;
* `ServedPage` — a page that leaves nothing out;
* `remaining_of_append`, `remaining_of_served` — the cursor moves along that list;
* `all_zip_tail_iff`, `afterCursor_head?_iff` — a page is checked by its neighbours and its head;
* `Scanned`, `Scanned.append` — the order in which a scan visits keys, one page at a time.
-/

namespace Kafkaman
namespace Lib

universe u

variable {K : Type u}

/-- The cursor after the keys of `scanned`. -/
def cursorAfter (cursor : Option K) (scanned : List K) : Option K :=
  scanned.getLast?.or cursor

theorem cursorAfter_append (cursor : Option K) (xs ys : List K) :
    cursorAfter cursor (xs ++ ys) = cursorAfter (cursorAfter cursor xs) ys := by
  simp [cursorAfter, List.getLast?_append, Option.or_assoc]

theorem cursorAfter_concat (cursor : Option K) (xs : List K) (key : K) :
    cursorAfter cursor (xs ++ [key]) = some key := by
  simp [cursorAfter]

variable [LinearOrder K]

/-- A key above an exclusive cursor; without a cursor every key is. -/
def AfterCursor (cursor : Option K) (key : K) : Prop :=
  ∀ last ∈ cursor, last < key

instance (cursor : Option K) (key : K) : Decidable (AfterCursor cursor key) :=
  match cursor with
  | none => .isTrue (fun _ h => nomatch h)
  | some last => decidable_of_iff (last < key) (by simp [AfterCursor])

/-- The keys after the cursor, in increasing order. -/
def remaining (keys : Finset K) (cursor : Option K) : List K :=
  (keys.filter (AfterCursor cursor)).sort (· ≤ ·)

theorem mem_remaining {keys : Finset K} {cursor : Option K} {key : K} :
    key ∈ remaining keys cursor ↔ key ∈ keys ∧ AfterCursor cursor key := by
  simp [remaining]

theorem pairwise_remaining (keys : Finset K) (cursor : Option K) :
    (remaining keys cursor).Pairwise (· < ·) :=
  (Finset.sortedLT_sort _).pairwise

theorem eq_remaining {keys : Finset K} {cursor : Option K} {list : List K}
    (hlist : list.Pairwise (· < ·))
    (hmem : ∀ key, key ∈ list ↔ key ∈ keys ∧ AfterCursor cursor key) :
    remaining keys cursor = list :=
  (pairwise_remaining keys cursor).sortedLT.eq_of_mem_iff hlist.sortedLT
    fun key => mem_remaining.trans (hmem key).symm

/-- A cursor that has moved over the first keys leaves the others. -/
theorem remaining_of_append {keys : Finset K} {cursor : Option K} {scanned rest : List K}
    (h : remaining keys cursor = scanned ++ rest) :
    remaining keys (cursorAfter cursor scanned) = rest := by
  have hsorted := pairwise_remaining keys cursor
  have hmem : ∀ key, key ∈ scanned ++ rest ↔ key ∈ keys ∧ AfterCursor cursor key :=
    fun key => h ▸ mem_remaining
  rw [h] at hsorted
  rcases List.eq_nil_or_concat' scanned with rfl | ⟨before, last, rfl⟩
  · exact h
  rw [cursorAfter_concat]
  rcases List.pairwise_append.1 hsorted with ⟨hscanned, hrest, hcross⟩
  refine eq_remaining hrest fun key => ?_
  constructor
  · intro hkey
    refine ⟨((hmem key).1 (List.mem_append_right _ hkey)).1, ?_⟩
    rintro _ ⟨⟩
    exact hcross last (by simp) key hkey
  · rintro ⟨hkey, hafter⟩
    have hlast : last < key := hafter last rfl
    -- Whatever lies above the last scanned key lies above the cursor it was scanned from.
    have hcursor : AfterCursor cursor key := by
      intro start hstart
      have := ((hmem last).1 (by simp)).2 start hstart
      exact this.trans hlast
    rcases List.mem_append.1 ((hmem key).2 ⟨hkey, hcursor⟩) with hscan | hkey
    · rcases List.mem_append.1 hscan with hbefore | hsame
      · have := (List.pairwise_append.1 hscanned).2.2 key hbefore last (by simp)
        exact absurd this hlast.asymm
      · rw [List.mem_singleton.1 hsame] at hlast
        exact absurd hlast (lt_irrefl _)
    · exact hkey

/-- A page that holds the next keys: increasing, not too long, without gaps, and empty only when
no key is left. -/
structure ServedPage (keys : Finset K) (cursor : Option K) (limit : Nat) (page : List K) :
    Prop where
  increasing : page.Pairwise (· < ·)
  length_le : page.length ≤ limit
  served : ∀ key ∈ page, key ∈ keys ∧ AfterCursor cursor key
  contiguous : ∀ key ∈ keys, AfterCursor cursor key → ∀ last ∈ page, key ≤ last → key ∈ page
  exhausted : page = [] → ∀ key ∈ keys, ¬ AfterCursor cursor key

/-- A served page is the beginning of what remains. -/
theorem remaining_of_served {keys : Finset K} {cursor : Option K} {limit : Nat} {page : List K}
    (h : ServedPage keys cursor limit page) :
    remaining keys cursor = page ++ remaining keys (cursorAfter cursor page) := by
  rcases List.eq_nil_or_concat' page with rfl | ⟨before, last, rfl⟩
  · rfl
  have hlast : last ∈ before ++ [last] := by simp
  have hmax : ∀ key ∈ before ++ [last], key ≤ last := by
    intro key hkey
    rcases List.mem_append.1 hkey with hbefore | hsame
    · exact ((List.pairwise_append.1 h.increasing).2.2 key hbefore last (by simp)).le
    · exact (List.mem_singleton.1 hsame).le
  rw [cursorAfter_concat]
  refine eq_remaining ?_ fun key => ?_
  · refine List.pairwise_append.2 ⟨h.increasing, pairwise_remaining _ _, ?_⟩
    intro key hkey next hnext
    exact (hmax key hkey).trans_lt ((mem_remaining.1 hnext).2 last rfl)
  · rw [List.mem_append, mem_remaining]
    constructor
    · rintro (hkey | ⟨hkey, hafter⟩)
      · exact h.served key hkey
      · refine ⟨hkey, fun start hstart => ?_⟩
        exact ((h.served last hlast).2 start hstart).trans (hafter last rfl)
    · rintro ⟨hkey, hafter⟩
      -- A key up to the last one served was served, since pages have no gaps.
      rcases le_or_gt key last with hle | hlt
      · exact Or.inl (h.contiguous key hkey hafter last hlast hle)
      · refine Or.inr ⟨hkey, ?_⟩
        rintro _ ⟨⟩
        exact hlt

/-- When keys remain, so does a key on the next page. -/
theorem ServedPage.ne_nil {keys : Finset K} {cursor : Option K} {limit : Nat} {page : List K}
    (h : ServedPage keys cursor limit page) (hleft : remaining keys cursor ≠ []) : page ≠ [] := by
  intro hpage
  rcases List.exists_mem_of_ne_nil _ hleft with ⟨key, hkey⟩
  rcases mem_remaining.1 hkey with ⟨hkeys, hafter⟩
  exact h.exhausted hpage key hkeys hafter

theorem servedPage_take (keys : Finset K) (cursor : Option K) {limit : Nat} (hlimit : 0 < limit) :
    ServedPage keys cursor limit ((remaining keys cursor).take limit) := by
  have hsorted := pairwise_remaining keys cursor
  have hsplit := List.take_append_drop limit (remaining keys cursor)
  refine
    { increasing := hsorted.sublist (List.take_sublist _ _)
      length_le := by simp
      served := fun key hkey => mem_remaining.1 (List.mem_of_mem_take hkey)
      contiguous := ?_
      exhausted := ?_ }
  · intro key hkey hafter last hlast hle
    have hmem := mem_remaining.2 ⟨hkey, hafter⟩
    rw [← hsplit] at hsorted hmem
    rcases List.mem_append.1 hmem with hfront | hback
    · exact hfront
    · exact absurd ((List.pairwise_append.1 hsorted).2.2 last hlast key hback) hle.not_gt
  · intro hnil key hkey hafter
    have hempty : remaining keys cursor = [] :=
      (List.take_eq_nil_iff.1 hnil).resolve_left hlimit.ne'
    have hmem := mem_remaining.2 ⟨hkey, hafter⟩
    rw [hempty] at hmem
    exact (nomatch hmem)

/-- Neighbours that increase make an increasing list. -/
theorem all_zip_tail_iff {list : List K} :
    (list.zip list.tail).all (fun pair => decide (pair.1 < pair.2)) = true ↔
      list.Pairwise (· < ·) := by
  rw [← List.isChain_iff_pairwise]
  induction list with
  | nil =>
      simp
  | cons first rest ih =>
      cases rest with
      | nil =>
          simp
      | cons second rest =>
          rw [List.isChain_cons_cons, ← ih]
          simp

/-- Of an increasing list, all keys are after the cursor when the first is. -/
theorem afterCursor_head?_iff {cursor : Option K} {list : List K}
    (hlist : list.Pairwise (· < ·)) :
    (∀ first ∈ list.head?, AfterCursor cursor first) ↔ ∀ key ∈ list, AfterCursor cursor key := by
  cases list with
  | nil =>
      simp
  | cons first rest =>
      constructor
      · intro hfirst key hkey last hlast
        have hlt := hfirst first rfl last hlast
        rcases List.mem_cons.1 hkey with rfl | hrest
        · exact hlt
        · exact hlt.trans ((List.pairwise_cons.1 hlist).1 key hrest)
      · rintro hall _ ⟨⟩
        exact hall first (by simp)

/-- Keys visited in increasing order, all of them after the cursor. -/
structure Scanned (cursor : Option K) (visited : List K) : Prop where
  increasing : visited.Pairwise (· < ·)
  after : ∀ key ∈ visited, AfterCursor cursor key

theorem scanned_nil (cursor : Option K) : Scanned cursor [] :=
  { increasing := List.Pairwise.nil
    after := fun _ hkey => nomatch hkey }

/-- The rule for scans: an increasing page after what was visited last. -/
theorem Scanned.append {cursor : Option K} {visited page : List K} (h : Scanned cursor visited)
    (hpage : page.Pairwise (· < ·))
    (hafter : ∀ key ∈ page, AfterCursor (cursorAfter cursor visited) key) :
    Scanned cursor (visited ++ page) := by
  rcases List.eq_nil_or_concat' visited with rfl | ⟨before, last, rfl⟩
  · exact
      { increasing := hpage
        after := hafter }
  rw [cursorAfter_concat] at hafter
  have hlast : ∀ key ∈ page, last < key := fun key hkey => hafter key hkey last rfl
  refine
    { increasing := List.pairwise_append.2 ⟨h.increasing, hpage, ?_⟩
      after := ?_ }
  · intro key hkey next hnext
    rcases List.mem_append.1 hkey with hbefore | hsame
    · have hlt := (List.pairwise_append.1 h.increasing).2.2 key hbefore last (by simp)
      exact hlt.trans (hlast next hnext)
    · rw [List.mem_singleton.1 hsame]
      exact hlast next hnext
  · intro key hkey start hstart
    rcases List.mem_append.1 hkey with hold | hnew
    · exact h.after key hold start hstart
    · exact (h.after last (by simp) start hstart).trans (hlast key hnew)

theorem Scanned.sublist {cursor : Option K} {visited visited' : List K}
    (h : Scanned cursor visited) (hsub : visited'.Sublist visited) : Scanned cursor visited' :=
  { increasing := h.increasing.sublist hsub
    after := fun key hkey => h.after key (hsub.mem hkey) }

end Lib
end Kafkaman
