import Kafkaman.Core.Identifier

/-!
# Schema.Tables — table and index names, and what becomes of them inside a statement

Every relation is named after its message type.  Tables go through the checked constructor, so a
descriptor with an unchecked type cannot name one; the schema is used as it comes.  Index and
sequence names are cut to the identifier limit with a hash that keeps long tables apart.

* `TableKind.relation` — the three table constructors;
* `boundedIndexName_eq_ok` — an index name is always an identifier;
* `Interpolates` — what the generated SQL relies on, and when it holds.
-/

namespace Kafkaman
namespace Schema

open Lib Lib.QuotedIdentifier
open Lib.Utf8 (byteLen byteLen_cons byteLen_append isAsciiLowercase isAsciiDigit)

/-! ## Tables -/

/-- A named table of one message type; the received one also carries its retry policy. -/
structure Relation where
  schema : SqlIdentifier
  table : SqlIdentifier
  descriptor : MessageDescriptor
  deriving DecidableEq

/-- `qualified_name`. -/
def qualifiedName (schema table : SqlIdentifier) : String :=
  schema.quoted ++ "." ++ table.quoted

def Relation.qualifiedName (relation : Relation) : String :=
  Schema.qualifiedName relation.schema relation.table

/-- What the three table constructors share. -/
def Relation.new (stem : String) (schema : SqlIdentifier) (descriptor : MessageDescriptor) :
    Except CoreError Relation := do
  let table ← SqlIdentifier.new (stem ++ descriptor.messageType)
  return { schema := schema, table := table, descriptor := descriptor }

def OutboxTable.new (schema : SqlIdentifier) (descriptor : MessageDescriptor) :
    Except CoreError Relation :=
  Relation.new "outbox_" schema descriptor

def ReceivedTable.new (schema : SqlIdentifier) (descriptor : MessageDescriptor) :
    Except CoreError Relation :=
  Relation.new "received_" schema descriptor

def CacheTable.new (schema : SqlIdentifier) (descriptor : MessageDescriptor) :
    Except CoreError Relation :=
  Relation.new "cache_" schema descriptor

inductive TableKind
  | outbox
  | received
  | cache
  deriving DecidableEq, Repr

def TableKind.relation : TableKind → SqlIdentifier → MessageDescriptor → Except CoreError Relation
  | .outbox => OutboxTable.new
  | .received => ReceivedTable.new
  | .cache => CacheTable.new

theorem Relation.new_eq_ok {stem : String} {schema : SqlIdentifier}
    {descriptor : MessageDescriptor} {relation : Relation} :
    Relation.new stem schema descriptor = .ok relation ↔
      SafeText (stem ++ descriptor.messageType) ∧
        stem ++ descriptor.messageType ∉ SqlIdentifier.reservedWords ∧
        relation =
          { schema := schema
            table := ⟨stem ++ descriptor.messageType⟩
            descriptor := descriptor } := by
  simp only [Relation.new, bind_eq_ok, pure_eq_ok, SqlIdentifier.new_eq_ok]
  constructor
  · rintro ⟨table, ⟨rfl, hsafe, hword⟩, rfl⟩
    exact ⟨hsafe, hword, rfl⟩
  · rintro ⟨hsafe, hword, rfl⟩
    exact ⟨_, ⟨rfl, hsafe, hword⟩, rfl⟩

theorem TableKind.relation_ok {kind : TableKind} {schema : SqlIdentifier}
    {descriptor : MessageDescriptor} {relation : Relation}
    (h : kind.relation schema descriptor = .ok relation) :
    relation.schema = schema ∧ SafeText relation.table.value := by
  cases kind with
  | outbox | received | cache =>
      rcases Relation.new_eq_ok.1 h with ⟨hsafe, _, rfl⟩
      exact ⟨rfl, hsafe⟩

/-! ## Index names -/

def fnvOffsetBasis : UInt64 := 0xcbf29ce484222325

def fnvPrime : UInt64 := 0x00000100000001b3

/-- FNV-1a over `bytes`, continuing from `hash`. -/
def fnv1a (hash : UInt64) (bytes : List UInt8) : UInt64 :=
  bytes.foldl (fun hash byte => (hash ^^^ byte.toUInt64) * fnvPrime) hash

/-- `advisory_lock_key`, before it is reread as a signed integer. -/
def advisoryLockKey (schema : String) : UInt64 :=
  fnv1a fnvOffsetBasis schema.toUTF8.toList

/-- Eight lowercase hexadecimal digits. -/
def hex8 (n : UInt32) : List Char :=
  (List.range 8).map fun i => Nat.digitChar (n.toNat / 16 ^ (7 - i) % 16)

/-- What stands between `idx_` and the suffix.  A table name is ASCII, so bytes are characters. -/
def indexMiddle (base : String) (limit : Nat) : String :=
  if strLen base ≤ limit then
    base
  else
    String.ofList (base.toList.take (limit - 8 - 1)) ++ "_" ++
      String.ofList (hex8 (advisoryLockKey base).toUInt32)

/-- `bounded_index_name`; an error is the source's `unreachable!`. -/
def boundedIndexName (table : SqlIdentifier) (suffix : String) : Except CoreError SqlIdentifier :=
  SqlIdentifier.new
    ("idx_" ++ indexMiddle table.value (SqlIdentifier.maxLen - 4 - strLen suffix) ++ suffix)

theorem strLen_append (s t : String) : strLen (s ++ t) = strLen s + strLen t := by
  rw [strLen, String.toList_append, byteLen_append]
  rfl

theorem utf8Size_of_isIdentifierChar {c : Char} (h : isIdentifierChar c = true) :
    c.utf8Size = 1 := by
  have hval : c.val ≤ 0x7f := by
    simp only [isIdentifierChar, isAsciiLowercase, isAsciiDigit, Bool.or_eq_true,
      Bool.and_eq_true, decide_eq_true_eq] at h
    rcases h with (⟨_, h⟩ | ⟨_, h⟩) | rfl
    · exact UInt32.le_trans h (by decide)
    · exact UInt32.le_trans h (by decide)
    · decide
  simp [Char.utf8Size, hval]

theorem byteLen_of_identifierChars {text : List Char}
    (h : ∀ c ∈ text, isIdentifierChar c = true) : byteLen text = text.length := by
  induction text with
  | nil =>
      rfl
  | cons c rest ih =>
      rw [List.forall_mem_cons] at h
      calc
        byteLen (c :: rest) = 1 + rest.length := by
          rw [byteLen_cons, utf8Size_of_isIdentifierChar h.1, ih h.2]
        _ = (c :: rest).length := Nat.add_comm _ _

theorem isIdentifierChar_hex8 (n : UInt32) : ∀ c ∈ hex8 n, isIdentifierChar c = true := by
  have hdigits : ∀ d < 16, isIdentifierChar (Nat.digitChar d) = true := by
    decide
  intro c hc
  rcases List.mem_map.1 hc with ⟨i, _, rfl⟩
  exact hdigits _ (Nat.mod_lt _ (by decide))

theorem isIdentifierChar_indexMiddle {base : String} (limit : Nat)
    (hbase : ∀ c ∈ base.toList, isIdentifierChar c = true) :
    ∀ c ∈ (indexMiddle base limit).toList, isIdentifierChar c = true := by
  unfold indexMiddle
  split
  · exact hbase
  · intro c hc
    simp only [String.toList_append, String.toList_ofList, List.mem_append] at hc
    rcases hc with (hc | hc) | hc
    · exact hbase c (List.mem_of_mem_take hc)
    · have heq : c = '_' := by simpa using hc
      rw [heq]
      decide
    · exact isIdentifierChar_hex8 _ c hc

theorem strLen_indexMiddle_le (base : String) {limit : Nat} (hlimit : 9 ≤ limit)
    (hbase : ∀ c ∈ base.toList, isIdentifierChar c = true) :
    strLen (indexMiddle base limit) ≤ limit := by
  have hall := isIdentifierChar_indexMiddle limit hbase
  unfold indexMiddle at hall ⊢
  split
  · assumption
  · rename_i hlong
    rw [if_neg hlong] at hall
    rw [strLen, byteLen_of_identifierChars hall]
    simp only [String.toList_append, String.toList_ofList, List.length_append, List.length_take,
      hex8, List.length_map, List.length_range]
    have hone : "_".toList.length = 1 := rfl
    omega

theorem not_reserved_of_idx {name : String} (h : "idx_".toList <+: name.toList) :
    name ∉ SqlIdentifier.reservedWords := by
  have hwords : ∀ word ∈ SqlIdentifier.reservedWords, ¬ "idx_".toList <+: word.toList := by
    decide +kernel
  intro hmem
  exact hwords name hmem h

/-- An index name is always an identifier, so the source's `unreachable!` is. -/
theorem boundedIndexName_eq_ok {table : SqlIdentifier} {suffix : String}
    (htable : SafeText table.value) (hlen : strLen suffix ≤ 50)
    (hsuffix : ∀ c ∈ suffix.toList, isIdentifierChar c = true) :
    boundedIndexName table suffix =
      .ok ⟨"idx_" ++ indexMiddle table.value (SqlIdentifier.maxLen - 4 - strLen suffix) ++ suffix⟩ := by
  -- The shape comes from the parts and their lengths; no reserved word starts with `idx_`.
  refine SqlIdentifier.new_eq_ok.2 ⟨rfl, ?_, ?_⟩
  · have hlimit : 9 ≤ SqlIdentifier.maxLen - 4 - strLen suffix := by
      simp only [SqlIdentifier.maxLen]
      omega
    have hmiddle := strLen_indexMiddle_le table.value hlimit htable.alphabet
    have hidx : strLen "idx_" = 4 := rfl
    have hmax : SqlIdentifier.maxLen = 63 := rfl
    have htext : ("idx_" ++ indexMiddle table.value (SqlIdentifier.maxLen - 4 - strLen suffix) ++
        suffix).toList = 'i' :: ("dx_".toList ++
          (indexMiddle table.value (SqlIdentifier.maxLen - 4 - strLen suffix)).toList ++
          suffix.toList) := by
      simp [String.toList_append]
    refine (safeText_cons_iff htext).2 ⟨?_, by decide, ?_⟩
    · rw [strLen_append, strLen_append]
      omega
    · have hidxTail : "dx_".toList.all isIdentifierChar = true := by decide +kernel
      simp only [List.all_append, Bool.and_eq_true, List.all_eq_true] at hidxTail ⊢
      exact ⟨⟨hidxTail, isIdentifierChar_indexMiddle _ htable.alphabet⟩, hsuffix⟩
  · apply not_reserved_of_idx
    rw [String.toList_append, String.toList_append, List.append_assoc]
    exact List.prefix_append _ _

/-! ## Interpolation -/

/-- What generated SQL relies on about an identifier, wherever it is interpolated. -/
structure Interpolates (identifier : SqlIdentifier) : Prop where
  shape : SafeText identifier.value
  quoted : read SqlIdentifier.maxLen identifier.quoted.toList =
    some (identifier.value.toList, [])
  asSchema : ∀ (kind : TableKind) (descriptor : MessageDescriptor) (relation : Relation),
    kind.relation identifier descriptor = .ok relation →
      readQualified SqlIdentifier.maxLen relation.qualifiedName.toList =
        some ((identifier.value.toList, relation.table.value.toList), [])
  asMessageType : ∀ (kind : TableKind) (schema : SqlIdentifier) (topic : String)
    (relation : Relation), SafeText schema.value →
      kind.relation schema { messageType := identifier.value, topic := topic } = .ok relation →
      SafeText relation.table.value ∧
        readQualified SqlIdentifier.maxLen relation.qualifiedName.toList =
          some ((schema.value.toList, relation.table.value.toList), [])

theorem read_quoted {identifier : SqlIdentifier} (h : SafeText identifier.value) :
    read SqlIdentifier.maxLen identifier.quoted.toList =
      some (identifier.value.toList, []) := by
  have hread := read_quote h.plain [] (by simp)
  rw [List.append_nil] at hread
  rw [SqlIdentifier.toList_quoted]
  exact hread

theorem readQualified_qualifiedName {schema table : SqlIdentifier}
    (hschema : SafeText schema.value) (htable : SafeText table.value) :
    readQualified SqlIdentifier.maxLen (qualifiedName schema table).toList =
      some ((schema.value.toList, table.value.toList), []) := by
  have htext : (qualifiedName schema table).toList =
      quote schema.value.toList ++ '.' :: quote table.value.toList := by
    simp [qualifiedName, SqlIdentifier.toList_quoted]
  rw [htext]
  exact readQualified_quote hschema.plain htable.plain

theorem SafeText.interpolates {identifier : SqlIdentifier} (h : SafeText identifier.value) :
    Interpolates identifier := by
  refine
    { shape := h
      quoted := read_quoted h
      asSchema := ?_
      asMessageType := ?_ }
  · intro kind descriptor relation hrelation
    rcases TableKind.relation_ok hrelation with ⟨rfl, htable⟩
    exact readQualified_qualifiedName h htable
  · intro kind schema topic relation hschema hrelation
    rcases TableKind.relation_ok hrelation with ⟨rfl, htable⟩
    exact ⟨htable, readQualified_qualifiedName hschema htable⟩

/-- An identifier is safe to interpolate exactly when it went through the checks, or its text would
have passed all of them but the word list. -/
theorem identifier_interpolates_iff (topicSpec : Json → Except String Unit)
    (construction : Construction) (identifier : SqlIdentifier)
    (h : construction.Produces topicSpec identifier) :
    Interpolates identifier ↔
      construction.validates = true ∨ PassesShapeChecks identifier.value := by
  constructor
  · intro hinterpolates
    exact Or.inr (safeText_iff.1 hinterpolates.shape)
  · rintro (hvalidates | hshape)
    · exact SafeText.interpolates (Construction.safeText_of_validates hvalidates h)
    · exact SafeText.interpolates (safeText_iff.2 hshape)

theorem identifier_interpolates_iff_order :
    SqlIdentifier.new "order_snapshot" = .ok ⟨"order_snapshot"⟩ ∧
      Interpolates ⟨"order_snapshot"⟩ := by
  have hnew : SqlIdentifier.new "order_snapshot" = .ok ⟨"order_snapshot"⟩ := by
    decide +kernel
  exact ⟨hnew, (identifier_interpolates_iff (fun _ => .ok ()) (.new "order_snapshot") _ hnew).2
    (Or.inl rfl)⟩

/-- A descriptor read from JSON may carry a quote in its type, and the rest of the text then lies
outside the identifier. -/
theorem deserialized_identifier_escapes :
    Construction.Produces (fun _ => .ok ()) ⟨"t\"; drop table x --"⟩
        (.deserializeDescriptor (.object
          [("message_type", .string "t\"; drop table x --"), ("topic", .string "t")])) ∧
      ¬ Interpolates ⟨"t\"; drop table x --"⟩ ∧
      read SqlIdentifier.maxLen (SqlIdentifier.quoted ⟨"t\"; drop table x --"⟩).toList =
        some ("t".toList, "; drop table x --\"".toList) := by
  refine ⟨⟨{ messageType := "t\"; drop table x --", topic := "t" }, rfl, rfl⟩, ?_, ?_⟩
  · intro h
    exact absurd (h.shape.alphabet '"' (by decide +kernel)) not_isIdentifierChar_quote
  · decide +kernel

end Schema
end Kafkaman
