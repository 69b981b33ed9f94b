import Kafkaman.Core.Identifier
import Kafkaman.Core.Lifecycle
import Kafkaman.Lib.Fallible
import Kafkaman.Lib.SeparatedList
import Mathlib.Data.Nat.Digits.Lemmas

/-!
# Config.Duration — durations as they are written in a configuration

A duration is an unsigned integer and a unit.  The amount is read into 128 bits, multiplied by the
unit's milliseconds, and cut down to the 64 bits `Duration::from_millis` takes; each of the three
steps can fail and none of them wraps.

* `parseU128_eq` — reading digits with checked arithmetic, for any number of them;
* `parseDuration_returns` — nothing panics;
* `parseDuration_eq_ok` — the texts that are durations, and what they come to.
-/

namespace Kafkaman
namespace Config

open Lib
open Lib.SeparatedList (trim)
open Lib.Utf8 (byteLen byteLen_cons isAsciiDigit)

/-! ## Checked arithmetic -/

def u128Bound : Nat := 2 ^ 128

/-- The result of a checked operation on a type of this many values. -/
def checked (bound n : Nat) : Option Nat :=
  if n < bound then some n else none

theorem checked_eq_some {bound n m : Nat} : checked bound n = some m ↔ n < bound ∧ n = m := by
  unfold checked
  split
  · rename_i h
    simp [h]
  · rename_i h
    simp [h]

def digitValue (c : Char) : Nat :=
  c.toNat - '0'.toNat

/-- One more digit: `checked_mul` by the radix, then `checked_add`. -/
def pushDigit (amount : Nat) (c : Char) : Option Nat :=
  (checked u128Bound (10 * amount)).bind fun tens => checked u128Bound (tens + digitValue c)

/-- `str::parse::<u128>` on ASCII digits. -/
def parseU128 : List Char → Option Nat
  | [] => none
  | digits => digits.foldlM pushDigit 0

/-! ## The parser -/

/-- `UNITS`: each unit and how many milliseconds it is worth. -/
def units : List (String × Nat) :=
  [("ms", 1), ("s", 1000), ("m", 60000), ("h", 3600000), ("d", 86400000)]

def nanosPerMilli : Nat := 1000000

/-- `Duration::from_millis`. -/
def fromMillis (millis : Nat) : Nanos :=
  millis * nanosPerMilli

/-- `str::find`: the byte offset of the first character that is not a digit. -/
def findNonDigit (text : List Char) : Option Nat :=
  match text.dropWhile isAsciiDigit with
  | [] => none
  | _ :: _ => some (byteLen (text.takeWhile isAsciiDigit))

/-- `str::split_at`; `none` where it panics, off a character boundary or past the end. -/
def splitAt : List Char → Nat → Option (List Char × List Char)
  | text, 0 => some ([], text)
  | [], _ + 1 => none
  | c :: text, mid + 1 =>
      if c.utf8Size ≤ mid + 1 then
        (splitAt text (mid + 1 - c.utf8Size)).map fun parts => (c :: parts.1, parts.2)
      else
        none

/-- What is made of the two parts. -/
def parseParts (number unit : List Char) : Except String Nanos :=
  if number.isEmpty then
    .error "duration must start with an unsigned integer, e.g. `250ms` or `30s`"
  else do
    let amount ← okOr (parseU128 number) "duration amount is too large"
    let millisPerUnit ← okOr (units.lookup (String.ofList unit))
      "duration unit must be one of ms, s, m, h, d"
    let millis ← okOr (checked u128Bound (amount * millisPerUnit)) "duration overflows milliseconds"
    let millis ← okOr (checked (u64Max + 1) millis) "duration overflows Duration"
    return fromMillis millis

/-- `parse_duration`; `none` if it panics. -/
def parseDuration (input : String) : Option (Except String Nanos) :=
  let trimmed := trim isWhitespace input.toList
  if trimmed.isEmpty then
    some (.error "duration must not be empty")
  else
    match findNonDigit trimmed with
    | none => some (.error "duration must include a unit (ms, s, m, h, d)")
    | some mid => (splitAt trimmed mid).map fun parts => parseParts parts.1 parts.2

/-! ## Digits -/

/-- The number that digits denote, the first one being the most significant. -/
def decimal (digits : List Char) : Nat :=
  Nat.ofDigits 10 (digits.reverse.map digitValue)

theorem decimal_nil : decimal [] = 0 := rfl

theorem decimal_append_singleton (digits : List Char) (c : Char) :
    decimal (digits ++ [c]) = 10 * decimal digits + digitValue c := by
  simp only [decimal, List.reverse_append, List.reverse_singleton, List.singleton_append,
    List.map_cons, Nat.ofDigits_cons]
  omega

theorem pushDigit_eq_some {amount n : Nat} {c : Char} :
    pushDigit amount c = some n ↔
      10 * amount + digitValue c < u128Bound ∧ 10 * amount + digitValue c = n := by
  unfold pushDigit
  rw [Option.bind_eq_some_iff]
  constructor
  · rintro ⟨tens, htens, hsum⟩
    rcases checked_eq_some.1 htens with ⟨-, rfl⟩
    exact checked_eq_some.1 hsum
  · rintro ⟨hlt, rfl⟩
    exact ⟨10 * amount, checked_eq_some.2 ⟨by omega, rfl⟩, checked_eq_some.2 ⟨hlt, rfl⟩⟩

/-- Digit by digit: what overflows on the way also overflows at the end. -/
theorem foldlM_pushDigit_eq_some {digits : List Char} {n : Nat} :
    digits.foldlM pushDigit 0 = some n ↔ decimal digits < u128Bound ∧ decimal digits = n := by
  induction digits using List.reverseRecOn generalizing n with
  | nil =>
      rw [decimal_nil, List.foldlM_nil]
      simp [u128Bound, Option.pure_def]
  | append_singleton digits c ih =>
      rw [List.foldlM_append, decimal_append_singleton]
      simp only [List.foldlM_cons, List.foldlM_nil, bind_pure, Option.bind_eq_bind,
        Option.bind_eq_some_iff, ih]
      constructor
      -- The last digit decides: `pushDigit` refuses exactly what does not fit.
      · rintro ⟨amount, ⟨-, rfl⟩, hpush⟩
        exact pushDigit_eq_some.1 hpush
      · rintro ⟨hlt, rfl⟩
        exact ⟨decimal digits, ⟨by omega, rfl⟩, pushDigit_eq_some.2 ⟨hlt, rfl⟩⟩

theorem parseU128_eq {digits : List Char} (hne : digits ≠ []) {n : Nat} :
    parseU128 digits = some n ↔ decimal digits < u128Bound ∧ decimal digits = n := by
  cases digits with
  | nil =>
      exact absurd rfl hne
  | cons c digits =>
      exact foldlM_pushDigit_eq_some

/-! ## The split -/

theorem splitAt_byteLen (front back : List Char) :
    splitAt (front ++ back) (byteLen front) = some (front, back) := by
  induction front with
  | nil =>
      cases back <;> rfl
  | cons c front ih =>
      -- every character takes a byte, so the offset is not yet reached
      have hpos := c.utf8Size_pos
      rcases hlen : byteLen (c :: front) with _ | mid
      · rw [byteLen_cons] at hlen
        omega
      · rw [List.cons_append, splitAt, if_pos (by rw [← hlen, byteLen_cons]; omega), ← hlen,
          byteLen_cons, Nat.add_sub_cancel_left, ih]
        rfl

theorem splitAt_findNonDigit {text : List Char} {mid : Nat} (h : findNonDigit text = some mid) :
    splitAt text mid = some (text.takeWhile isAsciiDigit, text.dropWhile isAsciiDigit) := by
  have hmid : byteLen (text.takeWhile isAsciiDigit) = mid := by
    unfold findNonDigit at h
    split at h
    · cases h
    · exact Option.some.inj h
  have hsplit := splitAt_byteLen (text.takeWhile isAsciiDigit) (text.dropWhile isAsciiDigit)
  rwa [List.takeWhile_append_dropWhile, hmid] at hsplit

theorem findNonDigit_eq_none {text : List Char} :
    findNonDigit text = none ↔ text.dropWhile isAsciiDigit = [] := by
  unfold findNonDigit
  split
  · rename_i h
    exact iff_of_true rfl h
  · rename_i h
    exact iff_of_false (fun hnone => by cases hnone) fun hnil => by rw [hnil] at h; cases h

/-- Nothing panics: every input gives a duration or an error. -/
theorem parseDuration_returns (input : String) : ∃ result, parseDuration input = some result := by
  unfold parseDuration
  simp only
  split
  · exact ⟨_, rfl⟩
  · split
    · exact ⟨_, rfl⟩
    · rename_i hmid
      rw [splitAt_findNonDigit hmid]
      exact ⟨_, rfl⟩

/-! ## Texts that are durations -/

theorem units_head {unit : List Char} {worth : Nat} (h : (String.ofList unit, worth) ∈ units) :
    ∃ c rest, unit = c :: rest ∧ isAsciiDigit c = false := by
  have hunits : ∀ entry ∈ units, entry.1.toList.head?.any (fun c => !isAsciiDigit c) = true := by
    decide
  have hhead := hunits _ h
  rw [String.toList_ofList] at hhead
  cases unit with
  | nil =>
      cases hhead
  | cons c rest =>
      exact ⟨c, rest, rfl, by simpa using hhead⟩

theorem lookup_units {unit : String} {worth : Nat} :
    units.lookup unit = some worth ↔ (unit, worth) ∈ units := by
  constructor
  · intro h
    rcases List.lookup_eq_some_iff.1 h with ⟨before, rest, hsplit, -⟩
    rw [hsplit]
    exact List.mem_append_right _ List.mem_cons_self
  · intro h
    have hunits : ∀ entry ∈ units, units.lookup entry.1 = some entry.2 := by decide
    exact hunits _ h

theorem units_pos {unit : String} {worth : Nat} (h : (unit, worth) ∈ units) : 0 < worth := by
  have hunits : ∀ entry ∈ units, 0 < entry.2 := by decide
  exact hunits _ h

theorem span_digits {digits unit : List Char} {worth : Nat}
    (hdigits : ∀ c ∈ digits, isAsciiDigit c = true)
    (hunit : (String.ofList unit, worth) ∈ units) :
    (digits ++ unit).takeWhile isAsciiDigit = digits ∧
      (digits ++ unit).dropWhile isAsciiDigit = unit := by
  rcases units_head hunit with ⟨c, rest, rfl, hc⟩
  constructor
  · rw [List.takeWhile_append_of_pos hdigits, List.takeWhile_cons, hc]
    exact List.append_nil digits
  · rw [List.dropWhile_append_of_pos hdigits, List.dropWhile_cons, hc]
    rfl

theorem parseParts_eq_ok {number unit : List Char} {d : Nanos} :
    parseParts number unit = .ok d ↔
      number ≠ [] ∧ ∃ worth, (String.ofList unit, worth) ∈ units ∧
        decimal number * worth ≤ 2 ^ 64 - 1 ∧ d = fromMillis (decimal number * worth) := by
  unfold parseParts
  by_cases hne : number = []
  · rw [hne]
    exact iff_of_false (fun h => by cases h) fun h => h.1 rfl
  · rw [if_neg (by simpa using hne)]
    simp only [bind_eq_ok, okOr_eq_ok, pure_eq_ok, checked_eq_some, lookup_units, parseU128_eq hne]
    constructor
    · rintro ⟨amount, ⟨-, rfl⟩, worth, hworth, millis, ⟨-, rfl⟩, millis, ⟨hfits, rfl⟩, rfl⟩
      exact ⟨hne, worth, hworth, Nat.le_sub_one_of_lt hfits, rfl⟩
    · rintro ⟨-, worth, hworth, hfits, rfl⟩
      -- the amount is no larger than the product, so the wider type holds both
      have hamount : decimal number ≤ decimal number * worth :=
        Nat.le_mul_of_pos_right _ (units_pos hworth)
      have hwide : u64Max + 1 ≤ u128Bound := by decide
      have hproduct : decimal number * worth < u64Max + 1 := Nat.lt_succ_of_le hfits
      exact ⟨_, ⟨by omega, rfl⟩, worth, hworth, _, ⟨by omega, rfl⟩, _, ⟨hproduct, rfl⟩, rfl⟩

theorem parseDuration_eq_ok {s : String} {d : Nanos} :
    parseDuration s = some (.ok d) ↔
      ∃ (digits unit : List Char) (worth : Nat),
        trim isWhitespace s.toList = digits ++ unit ∧ digits ≠ [] ∧
        (∀ c ∈ digits, isAsciiDigit c = true) ∧ (String.ofList unit, worth) ∈ units ∧
        decimal digits * worth ≤ 2 ^ 64 - 1 ∧ d = fromMillis (decimal digits * worth) := by
  unfold parseDuration
  generalize trim isWhitespace s.toList = trimmed
  constructor
  · intro h
    simp only at h
    split at h
    · cases h
    · split at h
      · cases h
      -- The text is cut in front of its first character that is no digit.
      · rename_i hmid
        rw [splitAt_findNonDigit hmid, Option.map_some] at h
        rcases parseParts_eq_ok.1 (Option.some.inj h) with ⟨hne, worth, hworth, hfits, hd⟩
        exact ⟨_, _, worth, List.takeWhile_append_dropWhile.symm, hne,
          fun c hc => List.mem_takeWhile_imp hc, hworth, hfits, hd⟩
  · rintro ⟨digits, unit, worth, rfl, hne, hdigits, hunit, hfits, rfl⟩
    -- No unit starts with a digit, so the cut falls between the two parts.
    rcases span_digits hdigits hunit with ⟨htake, hdrop⟩
    rcases units_head hunit with ⟨c, rest, hcons, -⟩
    simp only
    rw [if_neg (by simp [hne])]
    split
    · rename_i hnone
      rw [findNonDigit_eq_none, hdrop, hcons] at hnone
      cases hnone
    · rename_i mid hmid
      rw [splitAt_findNonDigit hmid, htake, hdrop, Option.map_some]
      exact congrArg some (parseParts_eq_ok.2 ⟨hne, worth, hunit, hfits, rfl⟩)

theorem mem_units {unit : String} {worth : Nat} :
    (unit, worth) ∈ units ↔ unit = "ms" ∧ worth = 1 ∨ unit = "s" ∧ worth = 1000 ∨
      unit = "m" ∧ worth = 60000 ∨ unit = "h" ∧ worth = 3600000 ∨
      unit = "d" ∧ worth = 86400000 := by
  simp [units]

theorem isAsciiDigit_iff {c : Char} : isAsciiDigit c = true ↔ '0' ≤ c ∧ c ≤ '9' := by
  simp [isAsciiDigit]

/-- No input panics, and a text is a duration exactly when it is, without the blanks around it, a
number and a unit whose product is a number of milliseconds in 64 bits.  The number may have any
number of digits; the duration is in nanoseconds. -/
theorem parseDuration_exact (s : String) :
    (∃ result, parseDuration s = some result) ∧
    ∀ d : Nanos, parseDuration s = some (.ok d) ↔
      ∃ (digits : List Char) (unit : String) (worth : Nat),
        trim isWhitespace s.toList = digits ++ unit.toList ∧ digits ≠ [] ∧
        (∀ c ∈ digits, '0' ≤ c ∧ c ≤ '9') ∧
        (unit = "ms" ∧ worth = 1 ∨ unit = "s" ∧ worth = 1000 ∨ unit = "m" ∧ worth = 60000 ∨
          unit = "h" ∧ worth = 3600000 ∨ unit = "d" ∧ worth = 86400000) ∧
        Nat.ofDigits 10 (digits.reverse.map fun c => c.toNat - 48) * worth ≤ 2 ^ 64 - 1 ∧
        d = Nat.ofDigits 10 (digits.reverse.map fun c => c.toNat - 48) * worth * 1000000 := by
  refine ⟨parseDuration_returns s, fun d => parseDuration_eq_ok.trans ?_⟩
  simp only [← mem_units, ← isAsciiDigit_iff]
  constructor
  · rintro ⟨digits, unit, worth, htext, hrest⟩
    exact ⟨digits, String.ofList unit, worth, by rw [htext, String.toList_ofList], hrest⟩
  · rintro ⟨digits, unit, worth, htext, hne, hdigits, hunit, hrest⟩
    exact ⟨digits, unit.toList, worth, htext, hne, hdigits, by rwa [String.ofList_toList], hrest⟩

/-- Ninety seconds with blanks around them, and five days behind more zeros than 128 bits have
digits. -/
theorem parseDuration_exact_ninety :
    parseDuration " 90s\t" = some (.ok 90000000000) ∧
      parseDuration (String.ofList (List.replicate 45 '0' ++ ['5', 'd'])) =
        some (.ok 432000000000000) := by
  constructor
  · refine ((parseDuration_exact _).2 _).2 ⟨['9', '0'], "s", 1000, ?_, ?_, by simp, by simp, ?_, ?_⟩ <;>
      decide +kernel
  · refine ((parseDuration_exact _).2 _).2
      ⟨List.replicate 45 '0' ++ ['5'], "d", 86400000, ?_, ?_, by simp, by simp, ?_, ?_⟩ <;>
      decide +kernel

end Config
end Kafkaman
