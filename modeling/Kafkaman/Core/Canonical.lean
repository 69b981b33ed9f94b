import Kafkaman.Core.Identifier
import Kafkaman.Lib.Paging
import Kafkaman.Lib.UniqueReading
import Kafkaman.Lib.Utf8
import Mathlib.Logic.Equiv.List
import Mathlib.Tactic.FinCases

/-!
# Core.Canonical — the bytes an idempotency key is the digest of

`IdempotencyIdentity::derive` hashes a namespace, a zero byte and the source value in a canonical
form: no blanks, object members in the order of their keys.  How numbers and characters are spelled
is the business of `serde_json`; `Serde` holds its two spellings and `Serde.Lawful` what is assumed
of them.

* `readChar` — what a reader of JSON strings makes of the front of a text;
* `SameValue` — the same value up to the order of object members, at every depth;
* `write_reads` — the canonical text of a value is read back from whatever follows it;
* `write_of_sameValue` — the same values have one canonical text.
-/

namespace Kafkaman

open Lib Lib.UniqueReading
open Lib.Utf8 (utf8 utf8_append utf8_injective)

/-! ## JSON values -/

theorem Json.induction {motive : Json → Prop} (null : motive .null) (bool : ∀ b, motive (.bool b))
    (number : ∀ text, motive (.number text)) (string : ∀ s, motive (.string s))
    (array : ∀ items, (∀ value ∈ items, motive value) → motive (.array items))
    (object : ∀ members, (∀ member ∈ members, motive member.2) → motive (.object members))
    (value : Json) : motive value := by
  refine @Json.rec motive (fun items => ∀ value ∈ items, motive value)
    (fun members => ∀ member ∈ members, motive member.2) (fun member => motive member.2)
    null bool number string array object ?_ ?_ ?_ ?_ ?_ value
  · exact fun _ h => absurd h List.not_mem_nil
  · exact fun _ _ hvalue hitems => List.forall_mem_cons.2 ⟨hvalue, hitems⟩
  · exact fun _ h => absurd h List.not_mem_nil
  · exact fun _ _ hmember hmembers => List.forall_mem_cons.2 ⟨hmember, hmembers⟩
  · exact fun _ _ hvalue => hvalue

/-- The values a `serde_json::Value` can hold: its objects are maps, so no key occurs twice. -/
inductive Json.IsValue : Json → Prop
  | null : IsValue .null
  | bool (b : Bool) : IsValue (.bool b)
  | number (text : String) : IsValue (.number text)
  | string (s : String) : IsValue (.string s)
  | array {items : List Json} (hitems : ∀ value ∈ items, IsValue value) : IsValue (.array items)
  | object {members : List (String × Json)} (hkeys : (members.map Prod.fst).Nodup)
      (hmembers : ∀ member ∈ members, IsValue member.2) : IsValue (.object members)

/-- The same JSON value, with the members of its objects in any order. -/
inductive SameValue : Json → Json → Prop
  | null : SameValue .null .null
  | bool (b : Bool) : SameValue (.bool b) (.bool b)
  | number (text : String) : SameValue (.number text) (.number text)
  | string (s : String) : SameValue (.string s) (.string s)
  | array {items items' : List Json} (hitems : List.Forall₂ SameValue items items') :
      SameValue (.array items) (.array items')
  | object {members members' : List (String × Json)}
      (hkeys : (members.map Prod.fst).Perm (members'.map Prod.fst))
      (hvalues : ∀ key value value', (key, value) ∈ members → (key, value') ∈ members' →
        SameValue value value') :
      SameValue (.object members) (.object members')

/-! ## Characters of JSON strings -/

/-- The one-letter escapes. -/
def shortEscapes : List (Char × Char) :=
  [('"', '"'), ('\\', '\\'), ('/', '/'), ('b', '\x08'), ('f', '\x0c'), ('n', '\n'), ('r', '\r'),
    ('t', '\t')]

/-- The number a run of hexadecimal digits denotes. -/
def hexNumber (digits : List Char) : Option Nat :=
  digits.foldlM (fun n digit => (IdempotencyKey.decodeHexNibble digit).map fun d => 16 * n + d.toNat) 0

/-- Four digits, and what follows them. -/
def readUnit : List Char → Option (Nat × List Char)
  | a :: b :: c :: d :: rest => (hexNumber [a, b, c, d]).map fun unit => (unit, rest)
  | _ => none

/-- The second half of a surrogate pair. -/
def readLowSurrogate (high : Nat) : List Char → Option (Char × List Char)
  | '\\' :: 'u' :: text =>
      match readUnit text with
      | some (low, rest) =>
          if 0xDC00 ≤ low ∧ low < 0xE000 then
            some (Char.ofNat (0x10000 + (high - 0xD800) * 0x400 + (low - 0xDC00)), rest)
          else
            none
      | none => none
  | _ => none

/-- What follows a backslash. -/
def readEscape : List Char → Option (Char × List Char)
  | [] => none
  | letter :: text =>
      if letter = 'u' then
        match readUnit text with
        | some (unit, rest) =>
            if 0xD800 ≤ unit ∧ unit < 0xDC00 then readLowSurrogate unit rest
            else if 0xDC00 ≤ unit ∧ unit < 0xE000 then none
            else some (Char.ofNat unit, rest)
        | none => none
      else
        (shortEscapes.lookup letter).map fun c => (c, text)

/-- The first character of the content of a JSON string, and what follows it.  A control character
or a quotation mark is not read as itself. -/
def readChar : List Char → Option (Char × List Char)
  | [] => none
  | c :: text =>
      if c = '\\' then readEscape text
      else if c.toNat < 0x20 ∨ c = '"' then none
      else some (c, text)

/-- The characters of JSON numbers. -/
def isNumberChar (c : Char) : Bool :=
  ('0' ≤ c && c ≤ '9') || c = '-' || c = '+' || c = '.' || c = 'e' || c = 'E'

/-! ## The writer -/

/-- How `serde_json` spells a number, and a character inside a string. -/
structure Serde where
  number : String → String
  escape : Char → List Char

/-- Distinct numbers have distinct number texts, and a reader of JSON strings reads every character
back from its spelling. -/
structure Serde.Lawful (serde : Serde) : Prop where
  number_injective : Function.Injective serde.number
  number_ne_empty : ∀ text, (serde.number text).toList ≠ []
  number_chars : ∀ text, ∀ c ∈ (serde.number text).toList, isNumberChar c = true
  escape_reads : ∀ c rest, readChar (serde.escape c ++ rest) = some (c, rest)

section Writer

variable (serde : Serde)

/-- `serde_json::to_writer` on a string. -/
def writeString (s : String) : List Char :=
  '"' :: s.toList.flatMap serde.escape ++ ['"']

-- The members are written before they are sorted, which keeps the recursion structural; that this
-- is the source's order of work is `writeCanonicalJson_object`.
mutual

def writeCanonicalJson : Json → List Char
  | .null => "null".toList
  | .bool true => "true".toList
  | .bool false => "false".toList
  | .number text => (serde.number text).toList
  | .string s => writeString serde s
  | .array values => '[' :: separated id ',' (writeItems values) ++ [']']
  | .object entries =>
      '\x7b' :: separated (fun entry => writeString serde entry.1 ++ ':' :: entry.2) ','
        (ordered Prod.fst (writeMembers entries)) ++ ['\x7d']

def writeItems : List Json → List (List Char)
  | [] => []
  | value :: values => writeCanonicalJson value :: writeItems values

def writeMembers : List (String × Json) → List (String × List Char)
  | [] => []
  | (key, value) :: entries => (key, writeCanonicalJson value) :: writeMembers entries

end

/-- A member as the loop over the entries writes it. -/
def writeMember (entry : String × Json) : List Char :=
  writeString serde entry.1 ++ ':' :: writeCanonicalJson serde entry.2

theorem writeItems_eq (values : List Json) :
    writeItems serde values = values.map (writeCanonicalJson serde) := by
  induction values with
  | nil =>
      rfl
  | cons value values ih =>
      rw [writeItems, ih, List.map_cons]

theorem writeMembers_eq (entries : List (String × Json)) :
    writeMembers serde entries = entries.map fun entry => (entry.1, writeCanonicalJson serde entry.2) := by
  induction entries with
  | nil =>
      rfl
  | cons entry entries ih =>
      rw [writeMembers, ih, List.map_cons]

theorem writeCanonicalJson_array (values : List Json) :
    writeCanonicalJson serde (.array values) =
      '[' :: separated (writeCanonicalJson serde) ',' values ++ [']'] := by
  rw [writeCanonicalJson, writeItems_eq, separated_map]
  rfl

theorem writeCanonicalJson_object (entries : List (String × Json)) :
    writeCanonicalJson serde (.object entries) =
      '\x7b' :: separated (writeMember serde) ',' (ordered Prod.fst entries) ++ ['\x7d'] := by
  rw [writeCanonicalJson, writeMembers_eq, ordered_map, separated_map]
  rfl

def canonicalJsonBytes (value : Json) : Bytes :=
  utf8 (writeCanonicalJson serde value)

end Writer

/-! ## Identities -/

/-- The errors of `IdempotencyIdentity::derive`. -/
inductive IdempotencyError
  | invalidIdempotencyNamespace (value reason : String)
  | invalidIdempotencySource (text : String)
  deriving DecidableEq

/-- `str::trim().is_empty()`. -/
def isBlank (s : String) : Bool :=
  s.toList.all isWhitespace

def IdempotencyKey.fromBytes (bytes : Vector UInt8 32) : IdempotencyKey :=
  { bytes := bytes.toList
    length_eq := bytes.length_toList }

section Derive

variable (sha256 : Bytes → Vector UInt8 32) (serde : Serde)

/-- What the hasher is fed, in three updates. -/
def digestInput (ns : String) (value : Json) : Bytes :=
  utf8 ns.toList ++ [0] ++ canonicalJsonBytes serde value

/-- `IdempotencyIdentity::derive`; `source` is what `serde_json::to_value` made of the source. -/
def IdempotencyIdentity.derive (ns : String) (source : Except String Json) :
    Except IdempotencyError IdempotencyIdentity :=
  if isBlank ns then
    .error (.invalidIdempotencyNamespace ns "must not be empty or whitespace")
  else
    match source with
    | .error text => .error (.invalidIdempotencySource text)
    | .ok value =>
        let digest := sha256 (digestInput serde ns value)
        .ok { key := IdempotencyKey.fromBytes digest, source := some value }

end Derive

/-! ## What is read is not a control character -/

theorem hexNumber_digits {digits : List Char} {n : Nat} (h : hexNumber digits = some n) :
    '\x00' ∉ digits := by
  have hzero : IdempotencyKey.decodeHexNibble '\x00' = none := by decide
  unfold hexNumber at h
  -- The fold starts anywhere: a zero digit stops it whatever has been read before.
  generalize 0 = start at h
  induction digits generalizing start with
  | nil =>
      exact List.not_mem_nil
  | cons digit digits ih =>
      rw [List.foldlM_cons] at h
      rcases Option.bind_eq_some_iff.1 h with ⟨next, hdigit, hrest⟩
      intro hmem
      rcases List.mem_cons.1 hmem with rfl | hmem
      · rw [hzero] at hdigit
        cases hdigit
      · exact ih next hrest hmem

theorem readUnit_eq_some {text rest : List Char} {unit : Nat}
    (h : readUnit text = some (unit, rest)) :
    ∃ word, text = word ++ rest ∧ '\x00' ∉ word := by
  unfold readUnit at h
  split at h
  · rename_i a b c d tail
    rcases Option.map_eq_some_iff.1 h with ⟨n, hdigits, hpair⟩
    cases hpair
    exact ⟨[a, b, c, d], rfl, hexNumber_digits hdigits⟩
  · cases h

theorem readLowSurrogate_eq_some {high : Nat} {text rest : List Char} {c : Char}
    (h : readLowSurrogate high text = some (c, rest)) :
    ∃ word, text = word ++ rest ∧ '\x00' ∉ word := by
  unfold readLowSurrogate at h
  split at h
  · rename_i text
    split at h
    · rename_i low tail hunit
      rcases readUnit_eq_some hunit with ⟨word, rfl, hword⟩
      split at h
      -- The second half of a surrogate pair: a backslash, a `u` and four digits.
      · rcases Prod.mk.inj (Option.some.inj h) with ⟨-, rfl⟩
        exact ⟨'\\' :: 'u' :: word, rfl, by simpa using hword⟩
      · cases h
    · cases h
  · cases h

theorem lookup_shortEscapes {letter c : Char} (h : shortEscapes.lookup letter = some c) :
    letter ≠ '\x00' := by
  have hnone : shortEscapes.lookup '\x00' = none := by decide
  rintro rfl
  rw [hnone] at h
  cases h

theorem readEscape_eq_some {text rest : List Char} {c : Char}
    (h : readEscape text = some (c, rest)) : ∃ word, text = word ++ rest ∧ '\x00' ∉ word := by
  cases text with
  | nil =>
      cases h
  | cons letter text =>
      rw [readEscape] at h
      split at h
      · rename_i hletter
        subst hletter
        split at h
        · rename_i unit tail hunit
          rcases readUnit_eq_some hunit with ⟨word, rfl, hword⟩
          split at h
          -- A high surrogate takes the escape that follows it along.
          · rcases readLowSurrogate_eq_some h with ⟨word', rfl, hword'⟩
            exact ⟨'u' :: word ++ word', by simp, by simp [hword, hword']⟩
          · split at h
            · cases h
            · rcases Prod.mk.inj (Option.some.inj h) with ⟨-, rfl⟩
              exact ⟨'u' :: word, rfl, by simpa using hword⟩
        · cases h
      -- Any other letter is one of the short escapes.
      · rcases Option.map_eq_some_iff.1 h with ⟨c', hlookup, hpair⟩
        cases hpair
        exact ⟨[letter], rfl, by simpa using (lookup_shortEscapes hlookup).symm⟩

theorem readChar_eq_some {text rest : List Char} {c : Char} (h : readChar text = some (c, rest)) :
    ∃ word, text = word ++ rest ∧ '\x00' ∉ word := by
  cases text with
  | nil =>
      cases h
  | cons first text =>
      rw [readChar] at h
      split at h
      · rename_i hfirst
        subst hfirst
        rcases readEscape_eq_some h with ⟨word, rfl, hword⟩
        exact ⟨'\\' :: word, rfl, by simpa using hword⟩
      · split at h
        · cases h
        · rename_i hplain
          cases h
          -- An unescaped character is not a control character, and zero is one.
          refine ⟨[c], rfl, ?_⟩
          rintro hzero
          rw [List.mem_singleton] at hzero
          subst hzero
          exact hplain (.inl (by decide))

/-! ## Reading the canonical text back -/

/-- A number is not continued by what follows a value. -/
def Follows (rest : List Char) : Prop :=
  ∀ c ∈ rest.head?, isNumberChar c = false

theorem follows_of_not_numberChar {c : Char} (hc : isNumberChar c = false) (rest : List Char) :
    Follows (c :: rest) := by
  intro c' hc'
  cases hc'
  exact hc

def SameMember (member member' : String × Json) : Prop :=
  member.1 = member'.1 ∧ SameValue member.2 member'.2

/-- The kind of value a first character belongs to; all characters of numbers stand for one. -/
def openerOf (c : Char) : Char :=
  if isNumberChar c then '0' else c

def Json.opener : Json → Char
  | .null => 'n'
  | .bool true => 't'
  | .bool false => 'f'
  | .number _ => '0'
  | .string _ => '"'
  | .array _ => '['
  | .object _ => '\x7b'

/-- Two values of one kind; literals are kinds of their own. -/
inductive SameKind : Json → Json → Prop
  | null : SameKind .null .null
  | bool (b : Bool) : SameKind (.bool b) (.bool b)
  | number (text text' : String) : SameKind (.number text) (.number text')
  | string (s s' : String) : SameKind (.string s) (.string s')
  | array (items items' : List Json) : SameKind (.array items) (.array items')
  | object (members members' : List (String × Json)) : SameKind (.object members) (.object members')

theorem sameKind_of_opener {value value' : Json} (h : value.opener = value'.opener) :
    SameKind value value' := by
  rcases value with _ | (_ | _) | _ | _ | _ | _ <;> rcases value' with _ | (_ | _) | _ | _ | _ | _ <;>
    first
      | constructor
      | exact absurd h (by simp [Json.opener])

section Reads

variable {serde : Serde} (hserde : serde.Lawful)

include hserde

theorem escape_reads_char (c c' : Char) (rest rest' : List Char)
    (h : serde.escape c ++ rest = serde.escape c' ++ rest') : c = c' ∧ rest = rest' := by
  have hread := hserde.escape_reads c rest
  rw [h, hserde.escape_reads c' rest'] at hread
  cases hread
  exact ⟨rfl, rfl⟩

theorem escape_ne_quote (c : Char) (rest rest' : List Char) :
    serde.escape c ++ rest ≠ '"' :: rest' := by
  intro h
  have hread := hserde.escape_reads c rest
  rw [h] at hread
  cases hread

theorem zero_not_mem_escape (c : Char) : '\x00' ∉ serde.escape c := by
  rcases readChar_eq_some (hserde.escape_reads c []) with ⟨word, hword, hzero⟩
  rwa [List.append_cancel_right hword]

theorem writeString_reads {s s' : String} {rest rest' : List Char}
    (h : writeString serde s ++ rest = writeString serde s' ++ rest') : s = s' ∧ rest = rest' := by
  simp only [writeString, List.cons_append, List.append_assoc, List.nil_append] at h
  rcases flatMap_reads (escape_reads_char hserde) (escape_ne_quote hserde)
    (List.tail_eq_of_cons_eq h) with ⟨hs, hrest⟩
  exact ⟨String.toList_inj.1 hs, hrest⟩

/-! Each kind of value is told by the first character of its text. -/

theorem head_write (value : Json) :
    ∃ c tail, writeCanonicalJson serde value = c :: tail ∧ openerOf c = value.opener := by
  cases value with
  | null =>
      exact ⟨'n', _, rfl, by decide⟩
  | bool b =>
      cases b with
      | true =>
          exact ⟨'t', _, rfl, by decide⟩
      | false =>
          exact ⟨'f', _, rfl, by decide⟩
  | number text =>
      rw [writeCanonicalJson]
      cases hdigits : (serde.number text).toList with
      | nil =>
          exact absurd hdigits (hserde.number_ne_empty text)
      | cons c tail =>
          have hc := hserde.number_chars text c (hdigits ▸ List.mem_cons_self)
          exact ⟨c, tail, rfl, if_pos hc⟩
  | string s =>
      exact ⟨'"', _, rfl, rfl⟩
  | array values =>
      exact ⟨'[', _, rfl, rfl⟩
  | object entries =>
      exact ⟨'\x7b', _, rfl, rfl⟩

theorem sameKind_of_append {value value' : Json} {rest rest' : List Char}
    (h : writeCanonicalJson serde value ++ rest = writeCanonicalJson serde value' ++ rest') :
    SameKind value value' := by
  apply sameKind_of_opener
  rcases head_write hserde value with ⟨c, tail, hwrite, hc⟩
  rcases head_write hserde value' with ⟨c', tail', hwrite', hc'⟩
  rw [hwrite, hwrite'] at h
  rw [← hc, ← hc', List.head_eq_of_cons_eq h]

theorem write_ne_close (value : Json) (rest rest' : List Char) :
    writeCanonicalJson serde value ++ rest ≠ ']' :: rest' := by
  intro h
  rcases head_write hserde value with ⟨c, tail, hwrite, hc⟩
  rw [hwrite] at h
  rw [List.head_eq_of_cons_eq h] at hc
  cases value with
  | bool b =>
      cases b <;> exact absurd hc (by decide)
  | _ =>
      simp [openerOf, isNumberChar, Json.opener] at hc

omit hserde in
theorem writeMember_ne_close (member : String × Json) (rest rest' : List Char) :
    writeMember serde member ++ rest ≠ '\x7d' :: rest' := by
  intro h
  exact absurd (List.head_eq_of_cons_eq h) (by decide)

theorem writeMember_reads {member : String × Json}
    (hvalue : ReadsAt (writeCanonicalJson serde) Follows SameValue member.2) :
    ReadsAt (writeMember serde) Follows SameMember member := by
  intro member' rest rest' hrest hrest' h
  simp only [writeMember, List.append_assoc, List.cons_append] at h
  rcases writeString_reads hserde h with ⟨hkey, htail⟩
  rcases hvalue member'.2 rest rest' hrest hrest' (List.tail_eq_of_cons_eq htail) with ⟨hsame, hlast⟩
  exact ⟨⟨hkey, hsame⟩, hlast⟩

omit hserde in
theorem sameValue_of_ordered {members members' : List (String × Json)}
    (hnodup : (members.map Prod.fst).Nodup)
    (h : List.Forall₂ SameMember (ordered Prod.fst members) (ordered Prod.fst members')) :
    SameValue (.object members) (.object members') := by
  have hkeys : (members.map Prod.fst).Perm (members'.map Prod.fst) := by
    have hmap := map_eq_of_forall₂ (h.imp fun _ _ hsame => hsame.1)
    have hperm : ∀ rows : List (String × Json),
        ((ordered Prod.fst rows).map Prod.fst).Perm (rows.map Prod.fst) := fun rows =>
      (ordered_perm rows).map Prod.fst
    exact (hperm members).symm.trans (hmap ▸ hperm members')
  refine .object hkeys fun key value value' hmem hmem' => ?_
  rcases exists_of_forall₂ h (mem_ordered.2 hmem) with ⟨⟨key', other⟩, hother, hkey, hsame⟩
  -- the key occurs once among the members on the other side as well
  have hnodup' : (members'.map Prod.fst).Nodup := hkeys.nodup_iff.1 hnodup
  have heq := List.inj_on_of_nodup_map hnodup' (mem_ordered.1 hother) hmem' hkey.symm
  cases heq
  exact hsame

/-- The canonical text of a value is that of the same values only, whatever follows. -/
theorem write_reads (value : Json) (hvalue : value.IsValue) :
    ReadsAt (writeCanonicalJson serde) Follows SameValue value := by
  induction value using Json.induction with
  | null =>
      intro value' rest rest' _ _ h
      -- The first character tells the kind of the other value; `null` has one spelling.
      cases sameKind_of_append hserde h
      exact ⟨.null, List.append_cancel_left h⟩
  | bool b =>
      intro value' rest rest' _ _ h
      cases sameKind_of_append hserde h
      exact ⟨.bool b, List.append_cancel_left h⟩
  | number text =>
      intro value' rest rest' hrest hrest' h
      cases sameKind_of_append hserde h with
      | number _ text' =>
          rw [writeCanonicalJson, writeCanonicalJson] at h
          -- A number ends where its alphabet does, and nothing that may follow a value is in it.
          rcases eq_of_alphabet (hserde.number_chars text) (hserde.number_chars text') hrest hrest' h
            with ⟨hword, hlast⟩
          cases hserde.number_injective (String.toList_inj.1 hword)
          exact ⟨.number text, hlast⟩
  | string s =>
      intro value' rest rest' _ _ h
      cases sameKind_of_append hserde h with
      | string _ s' =>
          rw [writeCanonicalJson, writeCanonicalJson] at h
          -- A string ends at the first quote that is not escaped.
          rcases writeString_reads hserde h with ⟨rfl, hlast⟩
          exact ⟨.string s, hlast⟩
  | array items ih =>
      intro value' rest rest' _ _ h
      cases sameKind_of_append hserde h with
      | array _ items' =>
          rw [writeCanonicalJson_array, writeCanonicalJson_array, List.append_assoc,
            List.append_assoc] at h
          cases hvalue with
          | array hitems =>
              -- Item by item: each is read back by the induction, up to a comma or the bracket.
              rcases separated_reads (by decide) (follows_of_not_numberChar (by decide))
                (follows_of_not_numberChar (by decide))
                (write_ne_close hserde) (fun v hv => ih v hv (hitems v hv))
                (List.tail_eq_of_cons_eq h) with ⟨hall, hlast⟩
              exact ⟨.array hall, hlast⟩
  | object members ih =>
      intro value' rest rest' _ _ h
      cases sameKind_of_append hserde h with
      | object _ members' =>
          rw [writeCanonicalJson_object, writeCanonicalJson_object, List.append_assoc,
            List.append_assoc] at h
          cases hvalue with
          | object hkeys hmembers =>
              -- Members are written in key order, so reading compares the sorted lists.
              have hreads : ∀ m ∈ ordered Prod.fst members,
                  ReadsAt (writeMember serde) Follows SameMember m := by
                intro m hm
                rw [mem_ordered] at hm
                exact writeMember_reads hserde (ih m hm (hmembers m hm))
              rcases separated_reads (by decide) (follows_of_not_numberChar (by decide))
                (follows_of_not_numberChar (by decide))
                writeMember_ne_close hreads (List.tail_eq_of_cons_eq h) with ⟨hall, hlast⟩
              exact ⟨sameValue_of_ordered hkeys hall, hlast⟩

/-! ## One text for the same values -/

omit hserde in
theorem write_of_sameValue {value value' : Json} (h : SameValue value value') :
    writeCanonicalJson serde value = writeCanonicalJson serde value' := by
  induction value using Json.induction generalizing value' with
  | array items ih =>
      cases h with
      | array hitems =>
          rw [writeCanonicalJson_array, writeCanonicalJson_array]
          -- Same values at the same places are written the same.
          have hall := ((List.forall₂_and_left _ _).2 ⟨ih, hitems⟩).imp fun _ _ hpair => hpair.1 hpair.2
          rw [separated_congr (map_eq_of_forall₂ hall)]
  | object members ih =>
      cases h with
      | @object _ members' hkeys hvalues =>
          rw [writeCanonicalJson_object, writeCanonicalJson_object]
          have hall : List.Forall₂ (fun member member' => writeMember serde member =
              writeMember serde member') (ordered Prod.fst members) (ordered Prod.fst members') := by
            -- Sorted by key, the two lists of members pair up.
            refine forall₂_ordered hkeys ?_
            rintro ⟨key, value⟩ hmem ⟨key', value'⟩ hmem' rfl
            rw [writeMember, writeMember, ih _ hmem (hvalues key value value' hmem hmem')]
          rw [separated_congr (map_eq_of_forall₂ hall)]
  | _ =>
      cases h
      rfl

/-! ## The separator -/

theorem zero_not_mem_writeString (s : String) : '\x00' ∉ writeString serde s := by
  intro h
  simp only [writeString, List.mem_append, List.mem_cons, List.mem_flatMap, List.not_mem_nil,
    or_false] at h
  rcases h with (hquote | ⟨c, -, hc⟩) | hquote
  · exact absurd hquote (by decide)
  · exact zero_not_mem_escape hserde c hc
  · exact absurd hquote (by decide)

omit hserde in
theorem zero_not_mem_enclosed {α : Type} {code : α → List Char} {items : List α} {first last : Char}
    (hfirst : '\x00' ≠ first) (hlast : '\x00' ≠ last) (hitems : ∀ a ∈ items, '\x00' ∉ code a) :
    '\x00' ∉ first :: separated code ',' items ++ [last] := by
  intro h
  simp only [List.mem_append, List.mem_cons, List.not_mem_nil, or_false] at h
  rcases h with (h | h) | h
  · exact hfirst h
  · rcases mem_separated h with hcomma | ⟨a, ha, hmem⟩
    · exact absurd hcomma (by decide)
    · exact hitems a ha hmem
  · exact hlast h

/-- Control characters are escaped, so the zero before the canonical text is the last one. -/
theorem zero_not_mem_write (value : Json) : '\x00' ∉ writeCanonicalJson serde value := by
  induction value using Json.induction with
  | null =>
      rw [writeCanonicalJson]
      decide
  | bool b =>
      cases b <;> rw [writeCanonicalJson] <;> decide
  | number text =>
      exact fun h => absurd (hserde.number_chars text _ h) (by decide)
  | string s =>
      exact zero_not_mem_writeString hserde s
  | array items ih =>
      rw [writeCanonicalJson_array]
      exact zero_not_mem_enclosed (by decide) (by decide) ih
  | object members ih =>
      rw [writeCanonicalJson_object]
      -- A member is its key, a colon and its value.
      refine zero_not_mem_enclosed (by decide) (by decide) fun member hmember hmem => ?_
      rcases List.mem_append.1 hmem with hkey | hvalue
      · exact zero_not_mem_writeString hserde _ hkey
      · rcases List.mem_cons.1 hvalue with hcolon | hvalue
        · exact absurd hcolon (by decide)
        · exact ih member (mem_ordered.1 hmember) hvalue

theorem digestInput_reads {ns ns' : String} {value value' : Json}
    (h : digestInput serde ns value = digestInput serde ns' value') :
    ns = ns' ∧ writeCanonicalJson serde value = writeCanonicalJson serde value' := by
  have htext : ∀ (ns : String) (value : Json), digestInput serde ns value =
      utf8 (ns.toList ++ '\x00' :: writeCanonicalJson serde value) := by
    intro ns value
    have hzero : utf8 ['\x00'] = [0] := by decide
    rw [digestInput, canonicalJsonBytes, ← hzero, ← utf8_append, ← utf8_append, List.append_assoc]
    rfl
  rw [htext, htext] at h
  have hreverse := congrArg List.reverse (utf8_injective h)
  simp only [List.reverse_append, List.reverse_cons, List.append_assoc, List.singleton_append]
    at hreverse
  -- read from its end, the text runs up to the first zero
  have hplain : ∀ (value : Json), ∀ c ∈ (writeCanonicalJson serde value).reverse,
      (c != '\x00') = true := by
    intro value c hc
    rw [List.mem_reverse] at hc
    exact bne_iff_ne.2 fun hzero => zero_not_mem_write hserde value (hzero ▸ hc)
  rcases eq_of_alphabet (hplain value) (hplain value') (by simp) (by simp) hreverse
    with ⟨hwrite, hrest⟩
  have hns := List.reverse_inj.1 (List.tail_eq_of_cons_eq hrest)
  exact ⟨String.toList_inj.1 hns, List.reverse_inj.1 hwrite⟩

end Reads

/-! ## The digest's input -/

/-- Two derivations hash the same bytes only if their namespaces are the same and so are their
sources, up to the order of object members.  The objects of a `serde_json::Value` have distinct
keys; those of the second source then have so too wherever it matters. -/
theorem derive_input_canonical {serde : Serde} (hserde : serde.Lawful) {ns ns' : String}
    (hns : isBlank ns = false) (hns' : isBlank ns' = false) {value : Json} (hvalue : value.IsValue)
    (value' : Json) :
    ∃ input input' : Bytes,
      (∀ sha256, IdempotencyIdentity.derive sha256 serde ns (.ok value) =
        .ok { key := IdempotencyKey.fromBytes (sha256 input), source := some value }) ∧
      (∀ sha256, IdempotencyIdentity.derive sha256 serde ns' (.ok value') =
        .ok { key := IdempotencyKey.fromBytes (sha256 input'), source := some value' }) ∧
      (input = input' ↔ ns = ns' ∧ SameValue value value') := by
  refine ⟨digestInput serde ns value, digestInput serde ns' value', fun sha256 => ?_,
    fun sha256 => ?_, fun h => ?_, ?_⟩
  · simp [IdempotencyIdentity.derive, hns]
  · simp [IdempotencyIdentity.derive, hns']
  -- Nothing follows the canonical text, so it is read back to its end.
  · rcases digestInput_reads hserde h with ⟨hsame, hwrite⟩
    have hend : Follows [] := fun _ hc => by cases hc
    exact ⟨hsame, (write_reads hserde value hvalue value' [] [] hend hend (by rw [hwrite])).1⟩
  · rintro ⟨rfl, hsame⟩
    rw [digestInput, digestInput, canonicalJsonBytes, canonicalJsonBytes, write_of_sameValue hsame]

/-! ## A lawful spelling -/

/-- The characters `serde_json` writes as two. -/
def serdeEscapes : List (Char × Char) :=
  [('"', '"'), ('\\', '\\'), ('\x08', 'b'), ('\x0c', 'f'), ('\n', 'n'), ('\r', 'r'), ('\t', 't')]

/-- The texts that are spelled as they are. -/
def isNumberText (text : String) : Bool :=
  text.toList.head?.any (· ≠ '+') && text.toList.all isNumberChar

/-- The escapes of `serde_json`, and its numbers.  A text that is no number is spelled as so many ones
behind a sign that no number starts with. -/
def serdeJson : Serde where
  number text :=
    if isNumberText text then text
    else String.ofList ('+' :: List.replicate (Encodable.encode (text.toList.map Char.toNat)) '1')
  escape c :=
    match serdeEscapes.lookup c with
    | some letter => ['\\', letter]
    | none =>
        if c.toNat < 0x20 then
          '\\' :: 'u' :: '0' :: '0' :: IdempotencyKey.encodeHexByte (UInt8.ofNat c.toNat)
        else
          [c]

theorem serdeJson_escape_control (n : Fin 32) (rest : List Char) :
    readChar (serdeJson.escape (Char.ofNat n) ++ rest) = some (Char.ofNat n, rest) := by
  fin_cases n <;> rfl

/-- Every other character stands for itself: the table holds none of them. -/
theorem serdeJson_escape_plain {c : Char} (hcontrol : ¬ c.toNat < 0x20) (hquote : c ≠ '"')
    (hbackslash : c ≠ '\\') : serdeJson.escape c = [c] := by
  have hentries : ∀ entry ∈ serdeEscapes,
      entry.1 = '"' ∨ entry.1 = '\\' ∨ entry.1.toNat < 0x20 := by decide
  have hlookup : serdeEscapes.lookup c = none := by
    refine List.lookup_eq_none_iff.2 fun entry hentry => bne_iff_ne.2 ?_
    rintro rfl
    rcases hentries entry hentry with h | h | h
    · exact hquote h
    · exact hbackslash h
    · exact hcontrol h
  simp [serdeJson, hlookup, hcontrol]

theorem serdeJson_number_injective : Function.Injective serdeJson.number := by
  have hsign : ∀ {text : String} {rest : List Char}, isNumberText text = true →
      text.toList ≠ '+' :: rest := by
    intro text rest htext hplus
    simp [isNumberText, hplus] at htext
  intro text text' h
  simp only [serdeJson] at h
  split at h
  · rename_i htext
    split at h
    · exact h
    · exact absurd (h ▸ String.toList_ofList) (hsign htext)
  · split at h
    · rename_i htext
      exact absurd (h ▸ String.toList_ofList) (hsign htext)
    · -- the number of ones is the code of the text
      have hlength := congrArg (fun s : String => s.toList.length) h
      simp only [String.toList_ofList, List.length_cons, List.length_replicate,
        Nat.add_right_cancel_iff] at hlength
      exact String.toList_inj.1 ((List.map_injective_iff.2 fun _ _ => Char.toNat_inj.1)
        (Encodable.encode_injective hlength))

theorem serdeJson_number_spec (text : String) :
    (serdeJson.number text).toList ≠ [] ∧
      ∀ c ∈ (serdeJson.number text).toList, isNumberChar c = true := by
  simp only [serdeJson]
  split
  · rename_i htext
    rw [isNumberText, Bool.and_eq_true, List.all_eq_true] at htext
    refine ⟨fun hnil => ?_, htext.2⟩
    rw [hnil] at htext
    cases htext.1
  · rw [String.toList_ofList]
    refine ⟨List.cons_ne_nil _ _, List.forall_mem_cons.2 ⟨by decide, fun c hc => ?_⟩⟩
    rw [List.eq_of_mem_replicate hc]
    decide

theorem serdeJson_lawful : serdeJson.Lawful where
  number_injective := serdeJson_number_injective
  number_ne_empty text := (serdeJson_number_spec text).1
  number_chars text := (serdeJson_number_spec text).2
  escape_reads := by
    intro c rest
    by_cases hcontrol : c.toNat < 0x20
    · simpa using serdeJson_escape_control ⟨c.toNat, hcontrol⟩ rest
    · by_cases hquote : c = '"'
      · subst hquote
        rfl
      · by_cases hbackslash : c = '\\'
        · subst hbackslash
          rfl
        · rw [serdeJson_escape_plain hcontrol hquote hbackslash, List.singleton_append, readChar,
            if_neg hbackslash, if_neg]
          exact fun h => h.elim hcontrol hquote

/-- Two spellings of one order, under one namespace. -/
theorem derive_input_canonical_orders :
    ∃ input input' : Bytes,
      (∀ sha256, IdempotencyIdentity.derive sha256 serdeJson "orders"
          (.ok (.object [("b", .array [.number "1"]), ("a", .string "x")])) =
        .ok { key := IdempotencyKey.fromBytes (sha256 input)
              source := some (.object [("b", .array [.number "1"]), ("a", .string "x")]) }) ∧
      (∀ sha256, IdempotencyIdentity.derive sha256 serdeJson "orders"
          (.ok (.object [("a", .string "x"), ("b", .array [.number "1"])])) =
        .ok { key := IdempotencyKey.fromBytes (sha256 input')
              source := some (.object [("a", .string "x"), ("b", .array [.number "1"])]) }) ∧
      (input = input' ↔ "orders" = "orders" ∧
        SameValue (.object [("b", .array [.number "1"]), ("a", .string "x")])
          (.object [("a", .string "x"), ("b", .array [.number "1"])])) := by
  refine derive_input_canonical serdeJson_lawful (by decide) (by decide) ?_ _
  refine .object (by decide) (List.forall_mem_cons.2 ⟨?_, List.forall_mem_cons.2 ⟨.string _, ?_⟩⟩)
  · exact .array (List.forall_mem_cons.2 ⟨.number _, fun _ h => absurd h List.not_mem_nil⟩)
  · exact fun _ h => absurd h List.not_mem_nil

end Kafkaman
