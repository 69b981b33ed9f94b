import Kafkaman.Config.Duration
import Kafkaman.Schema.Tables

/-!
# Schema.IndexNames — index names, with everything that could go wrong

`Schema.Tables` builds index names with subtraction on natural numbers and takes characters where the
source slices bytes.  Here the arithmetic is that of `usize`, a slice has to end on a character
boundary inside the text, and the `unreachable!` at the end is a branch like any other.

* `Checked.boundedIndexName` — the source, with its three ways to panic;
* `Checked.boundedIndexName_eq` — on tables and suffixes as they occur it is `boundedIndexName`;
* `IndexNameFor` — what an index name has to be.
-/

namespace Kafkaman
namespace Schema

open Lib
open Lib.Utf8 (byteLen isAsciiLowercase)
open Config (splitAt splitAt_byteLen)

namespace Checked

inductive Panic
  | subtractOverflow
  | sliceOutOfRange
  | unreachable
  deriving DecidableEq, Repr

/-- `-` on `usize`. -/
def sub (a b : Nat) : Except Panic Nat :=
  if b ≤ a then .ok (a - b) else .error .subtractOverflow

/-- `&text[..keep]`, in bytes. -/
def sliceTo (text : String) (keep : Nat) : Except Panic String :=
  match splitAt text.toList keep with
  | some parts => .ok (String.ofList parts.1)
  | none => .error .sliceOutOfRange

/-- What stands between `idx_` and the suffix. -/
def indexMiddle (base : String) (middleLimit : Nat) : Except Panic String :=
  if strLen base ≤ middleLimit then
    .ok base
  else do
    let hash := String.ofList (hex8 (advisoryLockKey base).toUInt32)
    let rest ← sub middleLimit (strLen hash)
    let keep ← sub rest 1
    let front ← sliceTo base keep
    return front ++ "_" ++ hash

/-- `bounded_index_name`. -/
def boundedIndexName (table : SqlIdentifier) (suffix : String) : Except Panic SqlIdentifier := do
  let rest ← sub SqlIdentifier.maxLen (strLen "idx_")
  let middleLimit ← sub rest (strLen suffix)
  let middle ← indexMiddle table.value middleLimit
  match SqlIdentifier.new ("idx_" ++ middle ++ suffix) with
  | .ok name => .ok name
  | .error _ => .error .unreachable

/-! ## No panic -/

theorem sub_eq_ok {a b : Nat} (h : b ≤ a) : sub a b = .ok (a - b) :=
  if_pos h

theorem sliceTo_eq_ok {text : String} {keep : Nat}
    (htext : ∀ c ∈ text.toList, isIdentifierChar c = true) (hkeep : keep ≤ strLen text) :
    sliceTo text keep = .ok (String.ofList (text.toList.take keep)) := by
  have hlength : keep ≤ text.toList.length := by
    rwa [strLen, byteLen_of_identifierChars htext] at hkeep
  have hfront : byteLen (text.toList.take keep) = keep := by
    rw [byteLen_of_identifierChars fun c hc => htext c (List.mem_of_mem_take hc),
      List.length_take, Nat.min_eq_left hlength]
  have hsplit := splitAt_byteLen (text.toList.take keep) (text.toList.drop keep)
  rw [List.take_append_drop, hfront] at hsplit
  rw [sliceTo, hsplit]

theorem strLen_hex8 (n : UInt32) : strLen (String.ofList (hex8 n)) = 8 := by
  rw [strLen, String.toList_ofList, byteLen_of_identifierChars (isIdentifierChar_hex8 n), hex8,
    List.length_map, List.length_range]

theorem indexMiddle_eq {base : String} {limit : Nat} (hlimit : 9 ≤ limit)
    (hbase : ∀ c ∈ base.toList, isIdentifierChar c = true) :
    indexMiddle base limit = .ok (Schema.indexMiddle base limit) := by
  unfold indexMiddle Schema.indexMiddle
  split
  · rfl
  · rename_i hlong
    -- The name is longer than the limit, so it is longer than what is kept of it.
    have hslice : sliceTo base (limit - 8 - 1) =
        .ok (String.ofList (base.toList.take (limit - 8 - 1))) :=
      sliceTo_eq_ok hbase (by omega)
    refine bind_eq_ok.2 ⟨limit - 8, ?_, ?_⟩
    · rw [strLen_hex8]
      exact sub_eq_ok (by omega)
    · refine bind_eq_ok.2 ⟨limit - 8 - 1, sub_eq_ok (by omega), ?_⟩
      exact bind_eq_ok.2 ⟨_, hslice, rfl⟩

theorem boundedIndexName_eq {table : SqlIdentifier} {suffix : String}
    (htable : SafeText table.value) (hlen : strLen suffix ≤ 50)
    (hsuffix : ∀ c ∈ suffix.toList, isIdentifierChar c = true) :
    boundedIndexName table suffix =
      .ok ⟨"idx_" ++
        Schema.indexMiddle table.value (SqlIdentifier.maxLen - 4 - strLen suffix) ++ suffix⟩ := by
  have hmax : SqlIdentifier.maxLen = 63 := rfl
  have hidx : strLen "idx_" = 4 := rfl
  have hname := boundedIndexName_eq_ok htable hlen hsuffix
  rw [Schema.boundedIndexName] at hname
  unfold boundedIndexName
  rw [hidx]
  refine bind_eq_ok.2 ⟨SqlIdentifier.maxLen - 4, sub_eq_ok (by omega), ?_⟩
  refine bind_eq_ok.2 ⟨SqlIdentifier.maxLen - 4 - strLen suffix, sub_eq_ok (by omega), ?_⟩
  refine bind_eq_ok.2 ⟨_, indexMiddle_eq (by omega) htable.alphabet, ?_⟩
  rw [hname]

end Checked

/-! ## The names -/

/-- What an index name has to be. -/
structure IndexNameFor (table suffix : String) (name : SqlIdentifier) : Prop where
  valid : SqlIdentifier.new name.value = .ok name
  short : strLen name.value ≤ SqlIdentifier.maxLen
  starts : "idx_".toList <+: name.value.toList
  ends : suffix.toList <:+ name.value.toList
  whole : strLen "idx_" + strLen table + strLen suffix ≤ SqlIdentifier.maxLen →
    table.toList <:+: name.value.toList

theorem isIdentifierChar_of_suffixChar {c : Char} (h : isAsciiLowercase c = true ∨ c = '_') :
    isIdentifierChar c = true := by
  rcases h with h | rfl
  · exact isIdentifierChar_of_isAsciiLowercase h
  · decide

/-- Index naming is total.  For every valid table and every suffix of lowercase letters and
underscores that leaves ten bytes for the table, nothing underflows, the slice is in range and the
last branch is not reached; and the name is an index name for the two. -/
theorem index_naming_total (table : SqlIdentifier) (suffix : String)
    (htable : SqlIdentifier.new table.value = .ok table)
    (hsuffix : ∀ c ∈ suffix.toList, isAsciiLowercase c = true ∨ c = '_')
    (hlen : strLen suffix ≤ 49) :
    ∃ name, Checked.boundedIndexName table suffix = .ok name ∧
      IndexNameFor table.value suffix name := by
  have hsafe : SafeText table.value := (SqlIdentifier.new_eq_ok.1 htable).2.1
  have halphabet : ∀ c ∈ suffix.toList, isIdentifierChar c = true :=
    fun c hc => isIdentifierChar_of_suffixChar (hsuffix c hc)
  have hname := boundedIndexName_eq_ok hsafe (Nat.le_succ_of_le hlen) halphabet
  rcases SqlIdentifier.new_eq_ok.1 hname with ⟨-, hshape, -⟩
  refine ⟨_, Checked.boundedIndexName_eq hsafe (Nat.le_succ_of_le hlen) halphabet, ?_⟩
  refine
    { valid := hname
      short := hshape.short
      starts := ?_
      ends := ?_
      whole := ?_ }
  · rw [String.toList_append, String.toList_append, List.append_assoc]
    exact List.prefix_append _ _
  · rw [String.toList_append]
    exact List.suffix_append _ _
  · intro hfits
    have hidx : strLen "idx_" = 4 := rfl
    -- The table's name is hashed only where it does not fit.
    have hmiddle : strLen table.value ≤ SqlIdentifier.maxLen - 4 - strLen suffix := by omega
    rw [indexMiddle, if_pos hmiddle, String.toList_append, String.toList_append]
    exact List.infix_append _ _ _

/-- The longest table and the longest suffix. -/
theorem index_naming_total_longest :
    ∃ name, Checked.boundedIndexName ⟨String.ofList (List.replicate 63 'a')⟩
        (String.ofList (List.replicate 49 '_')) = .ok name ∧
      IndexNameFor (String.ofList (List.replicate 63 'a'))
        (String.ofList (List.replicate 49 '_')) name := by
  refine index_naming_total _ _ (by decide +kernel) ?_ (by decide +kernel)
  intro c hc
  rw [String.toList_ofList, List.mem_replicate] at hc
  exact Or.inr hc.2

end Schema
end Kafkaman
