import Kafkaman.Lib.Utf8

/-!
# QuotedIdentifier — reading delimited identifiers back out of a statement

PostgreSQL's rules for a delimited identifier: it runs from one double quote to the next, a doubled
quote stands for one, the character with code zero cannot occur, the empty identifier is refused and
a long one is clipped to whole characters within a byte limit.

* `read`, `readQualified` — the lexer, with the text that is left over;
* `read_quote`, `readQualified_quote` — a plain name between quotes is read back as it was written.
-/

namespace Kafkaman
namespace Lib
namespace QuotedIdentifier

open Utf8 (byteLen)

/-! ## The lexer -/

/-- The longest run of whole characters within `limit` bytes. -/
def clip : Nat → List Char → List Char
  | _, [] => []
  | limit, c :: rest =>
      if c.utf8Size ≤ limit then c :: clip (limit - c.utf8Size) rest else []

/-- The characters up to the closing quote, and what follows it. -/
def body : List Char → Option (List Char × List Char)
  | [] => none
  | '"' :: '"' :: rest => (body rest).map fun r => ('"' :: r.1, r.2)
  | '"' :: rest => some ([], rest)
  | c :: rest =>
      if c = '\x00' then none else (body rest).map fun r => (c :: r.1, r.2)

/-- One delimited identifier at the start of a text. -/
def read (limit : Nat) : List Char → Option (List Char × List Char)
  | '"' :: rest =>
      match body rest with
      | some ([], _) => none
      | some (name, after) => some (clip limit name, after)
      | none => none
  | _ => none

/-- Two delimited identifiers with a dot between them. -/
def readQualified (limit : Nat) (text : List Char) :
    Option ((List Char × List Char) × List Char) :=
  match read limit text with
  | some (schema, '.' :: rest) =>
      (read limit rest).map fun r => ((schema, r.1), r.2)
  | _ => none

/-- A name between quotes. -/
def quote (name : List Char) : List Char :=
  '"' :: name ++ ['"']

/-! ## Reading a plain name back -/

/-- A name no rule of the lexer touches. -/
structure Plain (limit : Nat) (name : List Char) : Prop where
  nonempty : name ≠ []
  fits : byteLen name ≤ limit
  noQuote : '"' ∉ name
  noNul : '\x00' ∉ name

theorem clip_of_byteLen_le {limit : Nat} {text : List Char} (h : byteLen text ≤ limit) :
    clip limit text = text := by
  induction text generalizing limit with
  | nil =>
      rfl
  | cons c rest ih =>
      have hsum : c.utf8Size + byteLen rest ≤ limit := h
      have hhead : c.utf8Size ≤ limit := by omega
      have hrest : byteLen rest ≤ limit - c.utf8Size := by omega
      simp only [clip, if_pos hhead, ih hrest]

theorem body_cons {c : Char} {rest : List Char} (hquote : c ≠ '"') (hnul : c ≠ '\x00') :
    body (c :: rest) = (body rest).map fun r => (c :: r.1, r.2) := by
  rw [body, if_neg hnul]
  · intro _ h
    exact absurd h hquote
  · intro h
    exact absurd h hquote

theorem body_append {name after : List Char} (hquote : '"' ∉ name) (hnul : '\x00' ∉ name)
    (hafter : after.head? ≠ some '"') : body (name ++ '"' :: after) = some (name, after) := by
  induction name with
  | nil =>
      cases after with
      | nil =>
          rfl
      | cons c rest =>
          have hc : c ≠ '"' := fun h => hafter (by rw [h]; rfl)
          rw [List.nil_append, body]
          intro _ h
          exact absurd (List.cons.inj h).1 hc
  | cons c rest ih =>
      rw [List.mem_cons, not_or] at hquote hnul
      rw [List.cons_append, body_cons (Ne.symm hquote.1) (Ne.symm hnul.1),
        ih hquote.2 hnul.2]
      rfl

/-- A plain name between quotes is read back as it was written, up to its closing quote. -/
theorem read_quote {limit : Nat} {name : List Char} (h : Plain limit name) (after : List Char)
    (hafter : after.head? ≠ some '"') :
    read limit (quote name ++ after) = some (name, after) := by
  have htext : quote name ++ after = '"' :: (name ++ '"' :: after) := by
    simp [quote]
  rw [htext]
  simp only [read, body_append h.noQuote h.noNul hafter]
  cases hname : name with
  | nil =>
      exact absurd hname h.nonempty
  | cons c rest =>
      simp only [← hname, clip_of_byteLen_le h.fits]

theorem readQualified_quote {limit : Nat} {schema table : List Char} (hschema : Plain limit schema)
    (htable : Plain limit table) :
    readQualified limit (quote schema ++ '.' :: quote table) = some ((schema, table), []) := by
  have htail : read limit (quote table) = some (table, []) := by
    have hread := read_quote htable [] (by simp)
    rwa [List.append_nil] at hread
  have hhead : read limit (quote schema ++ '.' :: quote table) =
      some (schema, '.' :: quote table) :=
    read_quote hschema _ (by simp)
  simp only [readQualified, hhead, htail, Option.map_some]

end QuotedIdentifier
end Lib
end Kafkaman
