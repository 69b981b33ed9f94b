import Kafkaman.Core.Rows
import Kafkaman.Lib.Fallible
import Kafkaman.Lib.QuotedIdentifier

/-!
# Core.Identifier — names that are interpolated into generated SQL

`SqlIdentifier` is a text in a box: its checked constructors go through `validateIdentifier`, its
derived deserializer puts any string inside.  The type therefore carries no invariant here either;
`SafeText` is the one the checked constructors establish.

* `validateIdentifier_eq_ok`, `safeText_iff` — what the checks accept, and how much of it is shape;
* `SafeText.plain` — a safe text is one the lexer of delimited identifiers reads back;
* `Construction` — every public way to an identifier.
-/

namespace Kafkaman

open Lib Lib.QuotedIdentifier
open Lib.Utf8 (byteLen isAsciiLowercase isAsciiDigit)

/-- `kafkaman_core::Error`, as far as names and descriptors raise it. -/
inductive CoreError
  | invalidIdentifier (value reason : String)
  | invalidMessageDescriptor (reason : String)
  deriving DecidableEq

/-! ## Validation -/

structure SqlIdentifier where
  value : String
  deriving DecidableEq, Repr

/-- `str::len`. -/
def strLen (s : String) : Nat :=
  byteLen s.toList

/-- The alphabet of an identifier after its first character. -/
def isIdentifierChar (c : Char) : Bool :=
  isAsciiLowercase c || isAsciiDigit c || c = '_'

namespace SqlIdentifier

/-- PostgreSQL's limit on an identifier, in bytes. -/
def maxLen : Nat := 63

def reservedWords : List String :=
  ["all", "alter", "and", "as", "by", "case", "create", "delete", "drop", "from", "group",
    "insert", "into", "join", "limit", "not", "null", "or", "order", "select", "set", "table",
    "type", "update", "where"]

end SqlIdentifier

/-- `validate_identifier`.  The reserved words are sorted, so the source's binary search finds
exactly the members of the list. -/
def validateIdentifier (value : String) : Except CoreError Unit :=
  match value.toList with
  | [] => .error (.invalidIdentifier value "must not be empty")
  | first :: rest =>
      if SqlIdentifier.maxLen < strLen value then
        .error (.invalidIdentifier value "must be at most 63 bytes")
      else if !isAsciiLowercase first then
        .error (.invalidIdentifier value "must start with a lowercase ASCII letter")
      else if !rest.all isIdentifierChar then
        .error (.invalidIdentifier value
          "may contain only lowercase ASCII letters, digits, and underscores")
      else if value ∈ SqlIdentifier.reservedWords then
        .error (.invalidIdentifier value "must not be a reserved SQL word")
      else
        .ok ()

/-- The shape every checked identifier has. -/
structure SafeText (text : String) : Prop where
  nonempty : text ≠ ""
  short : strLen text ≤ SqlIdentifier.maxLen
  startsLower : ∀ c, text.toList.head? = some c → isAsciiLowercase c = true
  alphabet : ∀ c ∈ text.toList, isIdentifierChar c = true

theorem isIdentifierChar_of_isAsciiLowercase {c : Char} (h : isAsciiLowercase c = true) :
    isIdentifierChar c = true := by
  simp [isIdentifierChar, h]

theorem safeText_cons_iff {text : String} {first : Char} {rest : List Char}
    (htext : text.toList = first :: rest) :
    SafeText text ↔ strLen text ≤ SqlIdentifier.maxLen ∧ isAsciiLowercase first = true ∧
      rest.all isIdentifierChar = true := by
  constructor
  · intro h
    refine ⟨h.short, h.startsLower first (by simp [htext]), ?_⟩
    apply List.all_eq_true.2
    intro c hc
    exact h.alphabet c (by simp [htext, hc])
  · rintro ⟨hshort, hfirst, hrest⟩
    refine
      { nonempty := ?_
        short := hshort
        startsLower := ?_
        alphabet := ?_ }
    · rintro rfl
      cases htext
    · intro c hc
      rw [htext, List.head?_cons, Option.some.injEq] at hc
      exact hc ▸ hfirst
    · intro c hc
      rw [htext] at hc
      rcases List.mem_cons.1 hc with rfl | hc
      · exact isIdentifierChar_of_isAsciiLowercase hfirst
      · exact List.all_eq_true.1 hrest c hc

theorem not_safeText_of_toList_nil {text : String} (htext : text.toList = []) :
    ¬ SafeText text := by
  intro h
  exact h.nonempty (String.toList_injective (by simpa using htext))

theorem validateIdentifier_cases (value : String) :
    (SafeText value ∧ value ∉ SqlIdentifier.reservedWords ∧ validateIdentifier value = .ok ()) ∨
      (SafeText value ∧ value ∈ SqlIdentifier.reservedWords ∧ validateIdentifier value =
        .error (.invalidIdentifier value "must not be a reserved SQL word")) ∨
      (¬ SafeText value ∧ ∃ reason, reason ≠ "must not be a reserved SQL word" ∧
        validateIdentifier value = .error (.invalidIdentifier value reason)) := by
  unfold validateIdentifier
  -- The checks in the order of the source, which decides the reason given.
  cases htext : value.toList with
  | nil =>
      exact Or.inr (Or.inr ⟨not_safeText_of_toList_nil htext, _, by decide, rfl⟩)
  | cons first rest =>
      have hsafe := safeText_cons_iff htext
      by_cases hlen : SqlIdentifier.maxLen < strLen value
      · refine Or.inr (Or.inr ⟨fun h => ?_, "must be at most 63 bytes", by decide, by simp [hlen]⟩)
        exact absurd h.short (Nat.not_le.2 hlen)
      · by_cases hfirst : isAsciiLowercase first = true
        · by_cases hrest : rest.all isIdentifierChar = true
          · have h : SafeText value := hsafe.2 ⟨Nat.not_lt.1 hlen, hfirst, hrest⟩
            by_cases hword : value ∈ SqlIdentifier.reservedWords
            · exact Or.inr (Or.inl ⟨h, hword, by simp only [hlen, hfirst, hrest, hword]; rfl⟩)
            · exact Or.inl ⟨h, hword, by simp only [hlen, hfirst, hrest, hword]; rfl⟩
          · refine Or.inr (Or.inr ⟨fun h => hrest (hsafe.1 h).2.2,
              "may contain only lowercase ASCII letters, digits, and underscores", by decide, ?_⟩)
            simp only [hlen, hfirst, hrest]
            rfl
        · refine Or.inr (Or.inr ⟨fun h => hfirst (hsafe.1 h).2.1,
            "must start with a lowercase ASCII letter", by decide, ?_⟩)
          simp only [hlen, hfirst]
          rfl

theorem validateIdentifier_eq_ok {value : String} :
    validateIdentifier value = .ok () ↔
      SafeText value ∧ value ∉ SqlIdentifier.reservedWords := by
  rcases validateIdentifier_cases value with
    ⟨hsafe, hword, hok⟩ | ⟨_, hword, herror⟩ | ⟨hbad, _, _, herror⟩
  · exact ⟨fun _ => ⟨hsafe, hword⟩, fun _ => hok⟩
  · rw [herror]
    exact ⟨fun h => (nomatch h), fun h => absurd hword h.2⟩
  · rw [herror]
    exact ⟨fun h => (nomatch h), fun h => absurd h.1 hbad⟩

/-- The text passes every check but perhaps the word list's. -/
def PassesShapeChecks (text : String) : Prop :=
  validateIdentifier text = .ok () ∨
    validateIdentifier text = .error (.invalidIdentifier text "must not be a reserved SQL word")

theorem safeText_iff {text : String} : SafeText text ↔ PassesShapeChecks text := by
  unfold PassesShapeChecks
  rcases validateIdentifier_cases text with
    ⟨hsafe, _, hok⟩ | ⟨hsafe, _, herror⟩ | ⟨hbad, reason, hreason, herror⟩
  · exact ⟨fun _ => Or.inl hok, fun _ => hsafe⟩
  · exact ⟨fun _ => Or.inr herror, fun _ => hsafe⟩
  · refine ⟨fun h => absurd h hbad, ?_⟩
    rw [herror]
    rintro (h | h)
    · cases h
    · cases h
      exact absurd rfl hreason

/-! ## Quoting -/

namespace SqlIdentifier

def quoted (identifier : SqlIdentifier) : String :=
  "\"" ++ identifier.value ++ "\""

theorem toList_quoted (identifier : SqlIdentifier) :
    identifier.quoted.toList = quote identifier.value.toList := by
  simp [quoted, quote]

end SqlIdentifier

theorem not_isIdentifierChar_quote : ¬ isIdentifierChar '"' = true := by
  decide

theorem not_isIdentifierChar_nul : ¬ isIdentifierChar '\x00' = true := by
  decide

theorem SafeText.plain {text : String} (h : SafeText text) :
    Plain SqlIdentifier.maxLen text.toList := by
  refine
    { nonempty := ?_
      fits := h.short
      noQuote := fun hc => not_isIdentifierChar_quote (h.alphabet _ hc)
      noNul := fun hc => not_isIdentifierChar_nul (h.alphabet _ hc) }
  intro hnil
  exact not_safeText_of_toList_nil hnil h

/-! ## Constructors -/

namespace SqlIdentifier

def new (value : String) : Except CoreError SqlIdentifier :=
  (validateIdentifier value).map fun _ => ⟨value⟩

def tryFrom (value : String) : Except CoreError SqlIdentifier :=
  new value

def fromStr (value : String) : Except CoreError SqlIdentifier :=
  new value

/-- The derived `Deserialize` of the newtype: whatever string is there. -/
def deserialize : Json → Except String SqlIdentifier
  | .string value => .ok ⟨value⟩
  | _ => .error "invalid type: expected a string"

theorem new_eq_ok {value : String} {identifier : SqlIdentifier} :
    new value = .ok identifier ↔
      identifier = ⟨value⟩ ∧ SafeText value ∧ value ∉ reservedWords := by
  rw [← validateIdentifier_eq_ok]
  unfold new
  cases hvalid : validateIdentifier value with
  | error e =>
      constructor
      · intro h
        cases h
      · rintro ⟨_, h⟩
        cases h
  | ok _ =>
      constructor
      · intro h
        cases h
        exact ⟨rfl, rfl⟩
      · rintro ⟨rfl, _⟩
        rfl

end SqlIdentifier

/-- `char::is_whitespace`. -/
def isWhitespace (c : Char) : Bool :=
  let n := c.toNat
  (0x9 ≤ n && n ≤ 0xd) || n = 0x20 || n = 0x85 || n = 0xa0 || n = 0x1680 ||
    (0x2000 ≤ n && n ≤ 0x200a) || n = 0x2028 || n = 0x2029 || n = 0x202f || n = 0x205f ||
    n = 0x3000

namespace MessageDescriptor

/-- The identifier inside a descriptor. -/
def typeIdentifier (descriptor : MessageDescriptor) : SqlIdentifier :=
  ⟨descriptor.messageType⟩

def new (messageType topic : String) : Except CoreError MessageDescriptor :=
  if topic.toList.all isWhitespace then
    .error (.invalidMessageDescriptor "topic must not be empty")
  else do
    let identifier ← SqlIdentifier.new messageType
    return { messageType := identifier.value, topic := topic }

section Deserialize

-- The deserializer of the `topic_spec` member, which contributes nothing but its own failure.
variable (topicSpec : Json → Except String Unit)

/-- A member that may occur at most once. -/
def field (name : String) (members : List (String × Json)) : Except String (Option Json) :=
  match members.filter fun member => member.1 = name with
  | [] => .ok none
  | [member] => .ok (some member.2)
  | _ :: _ :: _ => .error ("duplicate field `" ++ name ++ "`")

def requiredField (name : String) (members : List (String × Json)) : Except String Json := do
  match ← field name members with
  | some value => return value
  | none => throw ("missing field `" ++ name ++ "`")

def topicText : Json → Except String String
  | .string topic => .ok topic
  | _ => .error "invalid type: expected a string"

/-- The derived `Deserialize`: by name from an object, by position from an array. -/
def deserialize : Json → Except String MessageDescriptor
  | .object members => do
      let identifier ← SqlIdentifier.deserialize (← requiredField "message_type" members)
      let topic ← topicText (← requiredField "topic" members)
      if let some spec ← field "topic_spec" members then
        topicSpec spec
      return { messageType := identifier.value, topic := topic }
  | .array [messageType, topic] => do
      let identifier ← SqlIdentifier.deserialize messageType
      let topic ← topicText topic
      return { messageType := identifier.value, topic := topic }
  | .array [messageType, topic, spec] => do
      let identifier ← SqlIdentifier.deserialize messageType
      let topic ← topicText topic
      topicSpec spec
      return { messageType := identifier.value, topic := topic }
  | _ => .error "invalid type: expected struct MessageDescriptor"

end Deserialize

end MessageDescriptor

/-- The public ways to an identifier. -/
inductive Construction
  | new (value : String)
  | tryFrom (value : String)
  | fromStr (value : String)
  | descriptor (messageType topic : String)
  | deserialize (json : Json)
  | deserializeDescriptor (json : Json)

namespace Construction

/-- Whether the construction goes through `validate_identifier`. -/
def validates : Construction → Bool
  | .new _ | .tryFrom _ | .fromStr _ | .descriptor _ _ => true
  | .deserialize _ | .deserializeDescriptor _ => false

/-- Which identifier a construction yields, if it yields one. -/
def Produces (topicSpec : Json → Except String Unit) (identifier : SqlIdentifier) :
    Construction → Prop
  | .new value => SqlIdentifier.new value = .ok identifier
  | .tryFrom value => SqlIdentifier.tryFrom value = .ok identifier
  | .fromStr value => SqlIdentifier.fromStr value = .ok identifier
  | .descriptor messageType topic =>
      ∃ descriptor, MessageDescriptor.new messageType topic = .ok descriptor ∧
        descriptor.typeIdentifier = identifier
  | .deserialize json => SqlIdentifier.deserialize json = .ok identifier
  | .deserializeDescriptor json =>
      ∃ descriptor, MessageDescriptor.deserialize topicSpec json = .ok descriptor ∧
        descriptor.typeIdentifier = identifier

theorem safeText_of_validates {topicSpec : Json → Except String Unit}
    {construction : Construction} {identifier : SqlIdentifier}
    (hvalidates : construction.validates = true)
    (h : construction.Produces topicSpec identifier) : SafeText identifier.value := by
  cases construction with
  | new value | tryFrom value | fromStr value =>
      rcases SqlIdentifier.new_eq_ok.1 h with ⟨rfl, hsafe, _⟩
      exact hsafe
  | descriptor messageType topic =>
      rcases h with ⟨descriptor, hnew, rfl⟩
      unfold MessageDescriptor.new at hnew
      split at hnew
      · cases hnew
      · rcases bind_eq_ok.1 hnew with ⟨identifier, hidentifier, hnew⟩
        cases pure_eq_ok.1 hnew
        rcases SqlIdentifier.new_eq_ok.1 hidentifier with ⟨rfl, hsafe, _⟩
        exact hsafe
  | deserialize json | deserializeDescriptor json =>
      cases hvalidates

end Construction

end Kafkaman
