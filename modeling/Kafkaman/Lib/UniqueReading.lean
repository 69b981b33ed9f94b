import Mathlib.Data.List.Basic
import Mathlib.Data.List.Forall2

/-!
# Lib.UniqueReading — codes that can be read back from what they are written into

A code writes values as words.  Where such a word stands at the head of a longer one, the value can
be read back if no other value's word, with whatever may follow it, gives the same text.  `ReadsAt`
says so for one value; the lemmas build it up from alphabets, from concatenation and from lists with
separators, which is what a recursive writer is made of.

* `ReadsAt` — reading one value off the head of a text;
* `eq_of_alphabet` — words over an alphabet that what follows does not continue;
* `flatMap_reads` — symbol by symbol up to a stop;
* `separated_reads` — item by item, between separators, up to a stop;
* `delimited_injective` — item by item, each up to the delimiter behind it.
-/

namespace Kafkaman
namespace Lib
namespace UniqueReading

universe u v w

variable {α : Type u} {β : Type v}

/-- Where a word is followed by what may follow, it is `a`'s only if it is that of the `same`. -/
def ReadsAt (code : α → List β) (follows : List β → Prop) (same : α → α → Prop) (a : α) : Prop :=
  ∀ b rest rest', follows rest → follows rest' → code a ++ rest = code b ++ rest' →
    same a b ∧ rest = rest'

/-- Two words over one alphabet, each followed by something outside it. -/
theorem eq_of_alphabet {p : β → Bool} {word word' rest rest' : List β}
    (hword : ∀ x ∈ word, p x = true) (hword' : ∀ x ∈ word', p x = true)
    (hrest : ∀ x ∈ rest.head?, p x = false) (hrest' : ∀ x ∈ rest'.head?, p x = false)
    (h : word ++ rest = word' ++ rest') : word = word' ∧ rest = rest' := by
  have hstops : ∀ {tail : List β}, (∀ x ∈ tail.head?, p x = false) → tail.takeWhile p = [] := by
    intro tail htail
    cases tail with
    | nil =>
        rfl
    | cons x tail =>
        rw [List.takeWhile_cons, htail x rfl]
        rfl
  -- Both words are the longest front over the alphabet.
  have htake := congrArg (List.takeWhile p) h
  rw [List.takeWhile_append_of_pos hword, List.takeWhile_append_of_pos hword', hstops hrest,
    hstops hrest', List.append_nil, List.append_nil] at htake
  subst htake
  exact ⟨rfl, List.append_cancel_left h⟩

/-- A text written symbol by symbol, up to a stop that no symbol's word starts with. -/
theorem flatMap_reads {code : α → List β} {stop : β}
    (hcode : ∀ a b rest rest', code a ++ rest = code b ++ rest' → a = b ∧ rest = rest')
    (hstop : ∀ a rest rest', code a ++ rest ≠ stop :: rest') {text text' : List α}
    {rest rest' : List β}
    (h : text.flatMap code ++ stop :: rest = text'.flatMap code ++ stop :: rest') :
    text = text' ∧ rest = rest' := by
  induction text generalizing text' with
  | nil =>
      cases text' with
      | nil =>
          exact ⟨rfl, List.tail_eq_of_cons_eq h⟩
      | cons b text' =>
          rw [List.flatMap_cons, List.append_assoc] at h
          exact absurd h.symm (hstop b _ _)
  | cons a text ih =>
      rw [List.flatMap_cons, List.append_assoc] at h
      cases text' with
      | nil =>
          exact absurd h (hstop a _ _)
      | cons b text' =>
          rw [List.flatMap_cons, List.append_assoc] at h
          -- The two texts agree on their first symbol, and go on from the same place.
          rcases hcode a b _ _ h with ⟨rfl, hrest⟩
          rcases ih hrest with ⟨rfl, rfl⟩
          exact ⟨rfl, rfl⟩

/-! ## Lists with separators -/

section Separated

variable (code : α → List β) (separator : β)

/-- The items, each after the first with a separator before it. -/
def separated : List α → List β
  | [] => []
  | a :: items => code a ++ items.flatMap fun b => separator :: code b

theorem separated_map {γ : Type w} (f : γ → α) (items : List γ) :
    separated code separator (items.map f) = separated (fun c => code (f c)) separator items := by
  cases items with
  | nil =>
      rfl
  | cons c items =>
      simp only [List.map_cons, separated, List.flatMap_map]

variable {code separator}

theorem separated_congr {items items' : List α} (h : items.map code = items'.map code) :
    separated code separator items = separated code separator items' := by
  have hid := separated_map (id : List β → List β) separator code
  exact (hid items).symm.trans ((congrArg (separated id separator) h).trans (hid items'))

theorem mem_separated {items : List α} {x : β} (h : x ∈ separated code separator items) :
    x = separator ∨ ∃ a ∈ items, x ∈ code a := by
  cases items with
  | nil =>
      exact absurd h List.not_mem_nil
  | cons a items =>
      rcases List.mem_append.1 h with hfirst | hrest
      · exact .inr ⟨a, List.mem_cons_self, hfirst⟩
      · rcases List.mem_flatMap.1 hrest with ⟨b, hb, hx⟩
        rcases List.mem_cons.1 hx with hsep | hcode
        · exact .inl hsep
        · exact .inr ⟨b, List.mem_cons_of_mem _ hb, hcode⟩

variable {follows : List β → Prop} {same : α → α → Prop} {stop : β}

theorem follows_tail (hsep : ∀ rest, follows (separator :: rest))
    (hstop : ∀ rest, follows (stop :: rest)) (items : List α) (rest : List β) :
    follows ((items.flatMap fun b => separator :: code b) ++ stop :: rest) := by
  cases items with
  | nil =>
      exact hstop rest
  | cons b items =>
      exact hsep _

theorem tail_reads (hne : stop ≠ separator) (hsep : ∀ rest, follows (separator :: rest))
    (hstop : ∀ rest, follows (stop :: rest)) {items items' : List α} {rest rest' : List β}
    (hitems : ∀ a ∈ items, ReadsAt code follows same a)
    (h : (items.flatMap fun b => separator :: code b) ++ stop :: rest =
      (items'.flatMap fun b => separator :: code b) ++ stop :: rest') :
    List.Forall₂ same items items' ∧ rest = rest' := by
  induction items generalizing items' with
  | nil =>
      cases items' with
      | nil =>
          exact ⟨.nil, List.tail_eq_of_cons_eq h⟩
      | cons b items' =>
          exact absurd (List.head_eq_of_cons_eq h) hne
  | cons a items ih =>
      cases items' with
      | nil =>
          exact absurd (List.head_eq_of_cons_eq h).symm hne
      | cons b items' =>
          -- What follows an item's word is a separator or the stop.
          rw [List.flatMap_cons, List.flatMap_cons, List.cons_append, List.cons_append,
            List.append_assoc, List.append_assoc] at h
          rcases hitems a List.mem_cons_self b _ _ (follows_tail hsep hstop items rest)
            (follows_tail hsep hstop items' rest') (List.tail_eq_of_cons_eq h) with ⟨hsame, htail⟩
          rcases ih (fun c hc => hitems c (List.mem_cons_of_mem _ hc)) htail with ⟨hall, hlast⟩
          exact ⟨.cons hsame hall, hlast⟩

/-- Item by item, up to a stop that no item's word starts with. -/
theorem separated_reads (hne : stop ≠ separator) (hsep : ∀ rest, follows (separator :: rest))
    (hstop : ∀ rest, follows (stop :: rest)) (hopens : ∀ a rest rest', code a ++ rest ≠ stop :: rest')
    {items items' : List α} {rest rest' : List β}
    (hitems : ∀ a ∈ items, ReadsAt code follows same a)
    (h : separated code separator items ++ stop :: rest =
      separated code separator items' ++ stop :: rest') :
    List.Forall₂ same items items' ∧ rest = rest' := by
  -- An empty list shows at once: what follows is the stop, with which no item starts.
  cases items with
  | nil =>
      cases items' with
      | nil =>
          exact ⟨.nil, List.tail_eq_of_cons_eq h⟩
      | cons b items' =>
          rw [separated, separated, List.append_assoc] at h
          exact absurd h.symm (hopens b _ _)
  | cons a items =>
      cases items' with
      | nil =>
          rw [separated, separated, List.append_assoc] at h
          exact absurd h (hopens a _ _)
      | cons b items' =>
          rw [separated, separated, List.append_assoc, List.append_assoc] at h
          rcases hitems a List.mem_cons_self b _ _ (follows_tail hsep hstop items rest)
            (follows_tail hsep hstop items' rest') h with ⟨hsame, htail⟩
          rcases tail_reads hne hsep hstop (fun c hc => hitems c (List.mem_cons_of_mem _ hc)) htail
            with ⟨hall, hlast⟩
          exact ⟨.cons hsame hall, hlast⟩

end Separated

/-! ## Lists with delimiters -/

section Delimited

variable (code : α → List β) (delimiter : β)

/-- The items, each with a delimiter behind it. -/
def delimited (items : List α) : List β :=
  items.flatMap fun a => code a ++ [delimiter]

variable {code delimiter}

theorem mem_delimited {items : List α} (h : items ≠ []) :
    delimiter ∈ delimited code delimiter items := by
  rcases List.exists_mem_of_ne_nil items h with ⟨a, ha⟩
  exact List.mem_flatMap.2 ⟨a, ha, by simp⟩

theorem delimited_cons_reads (hfree : ∀ a, delimiter ∉ code a) {a b : α} {rest rest' : List β}
    (h : code a ++ delimiter :: rest = code b ++ delimiter :: rest') :
    code a = code b ∧ rest = rest' := by
  classical
  have hword : ∀ c, ∀ x ∈ code c, decide (x ≠ delimiter) = true := by
    intro c x hx
    exact decide_eq_true fun heq => hfree c (heq ▸ hx)
  have hstop : ∀ tail : List β, ∀ x ∈ (delimiter :: tail).head?, decide (x ≠ delimiter) = false := by
    intro tail x hx
    rw [List.head?_cons, Option.mem_some_iff] at hx
    simp [hx]
  rcases eq_of_alphabet (hword a) (hword b) (hstop rest) (hstop rest') h with ⟨hcode, htail⟩
  exact ⟨hcode, List.tail_eq_of_cons_eq htail⟩

/-- A code without the delimiter can be read back from lists of any length. -/
theorem delimited_injective (hcode : Function.Injective code) (hfree : ∀ a, delimiter ∉ code a) :
    Function.Injective (delimited code delimiter) := by
  intro items
  induction items with
  | nil =>
      intro items' h
      cases items' with
      | nil =>
          rfl
      | cons b items' =>
          simp [delimited] at h
  | cons a items ih =>
      intro items' h
      cases items' with
      | nil =>
          simp [delimited] at h
      | cons b items' =>
          simp only [delimited, List.flatMap_cons, List.append_assoc, List.singleton_append] at h
          rcases delimited_cons_reads hfree h with ⟨hword, hrest⟩
          rw [hcode hword, ih hrest]

end Delimited

end UniqueReading
end Lib
end Kafkaman
