import Kafkaman.Broker.Decode
import Kafkaman.Core.Canonical
import Mathlib.Data.List.DropRight

/-!
# Broker.Spelling — a codec that spells as the libraries do

The runs on fixed inputs go through this one: hyphenated UUIDs, RFC 3339 times in UTC, compact JSON.
It writes what `uuid`, `time` and `serde_json` write; it reads less than they do, but all of what it
wrote.

* `parseUuid_uuidText`, `parseRfc3339_format` — identifiers and times are read back;
* `exists_format` — every time of a four-digit year has a text;
* `stringFromSlice_jsonText` — so is a string, from its bytes.
-/

namespace Kafkaman
namespace Broker
namespace Spelling

open Lib IdempotencyKey

/-! ## Digits -/

/-- The last digits of a number, as many as asked for. -/
def digits (base : Nat) : Nat → Nat → List Char
  | 0, _ => []
  | width + 1, n => digits base width (n / base) ++ [hexDigit (UInt8.ofNat (n % base))]

def pushDigit (base n : Nat) (c : Char) : Option Nat :=
  (decodeHexNibble c).bind fun d => if d.toNat < base then some (base * n + d.toNat) else none

def number (base : Nat) (text : List Char) : Option Nat :=
  text.foldlM (pushDigit base) 0

theorem decode_hexDigit : ∀ n < 16, decodeHexNibble (hexDigit (UInt8.ofNat n)) = some (UInt8.ofNat n) := by
  decide

theorem pushDigit_hexDigit {base n d : Nat} (hbase : base ≤ 16) (hd : d < base) :
    pushDigit base n (hexDigit (UInt8.ofNat d)) = some (base * n + d) := by
  have hvalue : (UInt8.ofNat d).toNat = d := by
    rw [UInt8.toNat_ofNat']
    omega
  rw [pushDigit, decode_hexDigit d (by omega), Option.bind_some, hvalue, if_pos hd]

theorem number_digits {base : Nat} (hpos : 0 < base) (hbase : base ≤ 16) (width n : Nat) :
    number base (digits base width n) = some (n % base ^ width) := by
  induction width generalizing n with
  | zero =>
      rw [Nat.pow_zero, Nat.mod_one]
      rfl
  | succ width ih =>
      rw [number, digits, List.foldlM_append]
      change (number base (digits base width (n / base))).bind _ = _
      rw [ih, Option.bind_some, List.foldlM_cons, pushDigit_hexDigit hbase (Nat.mod_lt n hpos),
        Nat.pow_succ', Nat.mod_mul, Nat.add_comm]
      rfl

theorem number_digits_of_lt {base width n : Nat} (hpos : 0 < base) (hbase : base ≤ 16)
    (h : n < base ^ width) : number base (digits base width n) = some n := by
  rw [number_digits hpos hbase, Nat.mod_eq_of_lt h]

theorem hexDigit_plain : ∀ n < 16, hexDigit (UInt8.ofNat n) ≠ '-' ∧ hexDigit (UInt8.ofNat n) ≠ '[' := by
  decide

theorem digits_plain {base width n : Nat} (hpos : 0 < base) (hbase : base ≤ 16) :
    ∀ c ∈ digits base width n, c ≠ '-' ∧ c ≠ '[' := by
  induction width generalizing n with
  | zero =>
      exact fun c hc => absurd hc List.not_mem_nil
  | succ width ih =>
      intro c hc
      rcases List.mem_append.1 hc with hc | hc
      · exact ih c hc
      · rw [List.mem_singleton.1 hc]
        exact hexDigit_plain _ (by have := Nat.mod_lt n hpos; omega)

theorem length_digits (base width n : Nat) : (digits base width n).length = width := by
  induction width generalizing n with
  | zero =>
      rfl
  | succ width ih =>
      rw [digits, List.length_append, ih, List.length_singleton]

/-! ## UUIDs -/

/-- A text in groups of the given lengths, with hyphens between them. -/
def grouped : List Nat → List Char → List Char
  | [], text => text
  | width :: widths, text => text.take width ++ '-' :: grouped widths (text.drop width)

theorem filter_grouped (widths : List Nat) (text : List Char) :
    (grouped widths text).filter (· ≠ '-') = text.filter (· ≠ '-') := by
  induction widths generalizing text with
  | nil =>
      rfl
  | cons width widths ih =>
      rw [grouped, List.filter_append, List.filter_cons_of_neg (by decide), ih,
        ← List.filter_append, List.take_append_drop]

/-- The hyphenated form. -/
def uuidText (u : Uuid) : String :=
  String.ofList (grouped [8, 4, 4, 4] (digits 16 32 u.toNat))

def parseUuid (text : String) : Except String Uuid :=
  let hex := text.toList.filter (· ≠ '-')
  match number 16 hex with
  | some n => if hex.length = 32 then .ok (BitVec.ofNat 128 n) else .error "invalid length"
  | none => .error "invalid character"

theorem parseUuid_uuidText (u : Uuid) : parseUuid (uuidText u) = .ok u := by
  have hhex : (uuidText u).toList.filter (· ≠ '-') = digits 16 32 u.toNat := by
    rw [uuidText, String.toList_ofList, filter_grouped, List.filter_eq_self]
    exact fun c hc => decide_eq_true (digits_plain (by decide) (by decide) c hc).1
  unfold parseUuid
  simp only [hhex]
  rw [number_digits_of_lt (by decide) (by decide) (lt_of_lt_of_le u.isLt (by decide))]
  simp [length_digits]

/-! ## Times -/

/-- A day counted in years and months from March, so that the leap day is the last of its year. -/
structure MarchDate where
  year : Int
  /-- From 0 for March. -/
  month : Int
  day : Int

/-- Cycles of 400, 100, 4 and 1 years; day 0 is the first of March of year 0. -/
def MarchDate.ofDays (days : Int) : MarchDate :=
  let century := min (days % 146097 / 36524) 3
  let inCentury := days % 146097 - 36524 * century
  let one := min (inCentury % 1461 / 365) 3
  let inYear := inCentury % 1461 - 365 * one
  let month := (5 * inYear + 2) / 153
  { year := 400 * (days / 146097) + 100 * century + 4 * (inCentury / 1461) + one
    month := month
    day := inYear - (153 * month + 2) / 5 + 1 }

def MarchDate.days (date : MarchDate) : Int :=
  146097 * (date.year / 400) + 36524 * (date.year % 400 / 100) + 1461 * (date.year % 100 / 4) +
    365 * (date.year % 4) + (153 * date.month + 2) / 5 + date.day - 1

theorem cycles_of_year {century four one year : Int} (cycle : Int) (hcentury : 0 ≤ century ∧ century ≤ 3)
    (hfour : 0 ≤ four ∧ four ≤ 24) (hone : 0 ≤ one ∧ one ≤ 3)
    (hyear : year = 400 * cycle + 100 * century + 4 * four + one) :
    year / 400 = cycle ∧ year % 400 / 100 = century ∧ year % 100 / 4 = four ∧ year % 4 = one := by
  have hcycle : year / 400 = cycle := by omega
  have hcentury : year % 400 / 100 = century := by omega
  have hfour : year % 100 / 4 = four := by omega
  exact ⟨hcycle, hcentury, hfour, by omega⟩

theorem MarchDate.days_ofDays (days : Int) : (ofDays days).days = days := by
  simp only [ofDays, MarchDate.days]
  generalize hcentury : min (days % 146097 / 36524) 3 = century
  generalize hin : days % 146097 - 36524 * century = inCentury
  generalize hone : min (inCentury % 1461 / 365) 3 = one
  have hfour : 0 ≤ inCentury / 1461 ∧ inCentury / 1461 ≤ 24 := by omega
  have hcycles := cycles_of_year (days / 146097) (show 0 ≤ century ∧ century ≤ 3 by omega) hfour
    (show 0 ≤ one ∧ one ≤ 3 by omega) rfl
  rw [hcycles.1, hcycles.2.1, hcycles.2.2.1, hcycles.2.2.2]
  omega

theorem MarchDate.bounds_ofDays (days : Int) :
    0 ≤ (ofDays days).month ∧ (ofDays days).month ≤ 11 ∧ 1 ≤ (ofDays days).day ∧
      (ofDays days).day ≤ 31 := by
  simp only [ofDays]
  omega

/-- The year and the month of the calendar. -/
def MarchDate.civil (date : MarchDate) : Int × Int :=
  if date.month < 10 then (date.year, date.month + 3) else (date.year + 1, date.month - 9)

def MarchDate.ofCivil (year month day : Int) : MarchDate :=
  if 2 < month then ⟨year, month - 3, day⟩ else ⟨year - 1, month + 9, day⟩

theorem MarchDate.ofCivil_civil {date : MarchDate} (h : 0 ≤ date.month ∧ date.month ≤ 11) :
    ofCivil date.civil.1 date.civil.2 date.day = date := by
  rcases date with ⟨year, month, day⟩
  simp only at h
  by_cases hmonth : month < 10
  · simp only [civil, ofCivil, if_pos hmonth, if_pos (show 2 < month + 3 by omega), Int.add_sub_cancel]
  · simp only [civil, ofCivil, if_neg hmonth, if_neg (show ¬ 2 < month - 9 by omega),
      Int.add_sub_cancel, Int.sub_add_cancel]

theorem MarchDate.month_of_neg {days : Int} (h : -60 ≤ days) (hneg : days < 0) :
    10 ≤ (ofDays days).month := by
  have hcentury : min (days % 146097 / 36524) 3 = 3 := by omega
  have hone : min ((days % 146097 - 36524 * 3) % 1461 / 365) 3 = 3 := by omega
  simp only [ofDays, hcentury, hone]
  omega

theorem MarchDate.civil_bounds {days : Int} (h : -60 ≤ days ∧ days < 3652365) :
    0 ≤ (ofDays days).civil.1 ∧ (ofDays days).civil.1 ≤ 9999 := by
  have hneg := @month_of_neg days h.1
  simp only [civil]
  split <;> simp only [ofDays] at * <;> omega

theorem MarchDate.month_bounds (days : Int) :
    1 ≤ (ofDays days).civil.2 ∧ (ofDays days).civil.2 ≤ 12 := by
  have h := bounds_ofDays days
  simp only [civil]
  split <;> simp only <;> omega

/-- The digits of a fraction, without the zeros at their end. -/
def fraction (micros : Nat) : List Char :=
  if micros = 0 then [] else '.' :: (digits 10 6 micros).rdropWhile (· = '0')

/-- `OffsetDateTime::format` with `Rfc3339`, in UTC. -/
def formatRfc3339 (t : Int) : Except String String :=
  let date := MarchDate.ofDays (t / 86400000000 + 719468)
  let time := (t % 86400000000).toNat
  if 0 ≤ date.civil.1 ∧ date.civil.1 ≤ 9999 then
    .ok (String.ofList (digits 10 4 date.civil.1.toNat ++ '-' :: digits 10 2 date.civil.2.toNat ++
      '-' :: digits 10 2 date.day.toNat ++ 'T' :: digits 10 2 (time / 3600000000) ++
      ':' :: digits 10 2 (time / 60000000 % 60) ++ ':' :: digits 10 2 (time / 1000000 % 60) ++
      fraction (time % 1000000) ++ ['Z']))
  else
    .error "The year component cannot be formatted into the requested format."

/-- What an offset takes off a local time, in minutes. -/
def offset : List Char → Option Int
  | ['Z'] => some 0
  | [sign, h, h', ':', m, m'] => do
      let hours ← number 10 [h, h']
      let minutes ← number 10 [m, m']
      if sign = '+' then some (hours * 60 + minutes : Nat)
      else if sign = '-' then some (-(hours * 60 + minutes : Nat))
      else none
  | _ => none

/-- A fraction in microseconds, and what follows it. -/
def readFraction : List Char → Option Nat × List Char
  | '.' :: rest =>
      (number 10 ((rest.takeWhile Utf8.isAsciiDigit ++ List.replicate 6 '0').take 6),
        rest.dropWhile Utf8.isAsciiDigit)
  | rest => (some 0, rest)

def readRfc3339 : List Char → Option Int
  | y1 :: y2 :: y3 :: y4 :: '-' :: m :: m' :: '-' :: d :: d' :: 'T' :: h :: h' :: ':' :: n :: n' ::
      ':' :: s :: s' :: rest => do
      let year ← number 10 [y1, y2, y3, y4]
      let month ← number 10 [m, m']
      let day ← number 10 [d, d']
      let hour ← number 10 [h, h']
      let minute ← number 10 [n, n']
      let second ← number 10 [s, s']
      let micros ← (readFraction rest).1
      let shift ← offset (readFraction rest).2
      return ((MarchDate.ofCivil year month day).days - 719468) * 86400000000 +
        ((hour * 60 + minute - shift) * 60 + second) * 1000000 + micros
  | _ => none

/-- `OffsetDateTime::parse` with `Rfc3339`, as an instant. -/
def parseRfc3339 (text : String) : Except String Int :=
  match readRfc3339 text.toList with
  | some t => .ok t
  | none => .error "the 'component' component could not be parsed"

theorem exists_zeros (text : List Char) :
    ∃ count, text = text.rdropWhile (· = '0') ++ List.replicate count '0' := by
  induction text using List.reverseRecOn with
  | nil =>
      exact ⟨0, rfl⟩
  | append_singleton text c ih =>
      by_cases hc : c = '0'
      · rcases ih with ⟨count, hcount⟩
        refine ⟨count + 1, ?_⟩
        rw [List.rdropWhile_concat_pos _ _ _ (by simpa using hc), List.replicate_succ',
          ← List.append_assoc, ← hcount, hc]
      · refine ⟨0, ?_⟩
        rw [List.rdropWhile_concat_neg _ _ _ (by simpa using hc), List.replicate_zero,
          List.append_nil]

theorem isAsciiDigit_hexDigit : ∀ n < 10, Utf8.isAsciiDigit (hexDigit (UInt8.ofNat n)) = true := by
  decide

theorem isAsciiDigit_digits {width n : Nat} :
    ∀ c ∈ digits 10 width n, Utf8.isAsciiDigit c = true := by
  induction width generalizing n with
  | zero =>
      exact fun c hc => absurd hc List.not_mem_nil
  | succ width ih =>
      intro c hc
      rcases List.mem_append.1 hc with hc | hc
      · exact ih c hc
      · rw [List.mem_singleton.1 hc]
        exact isAsciiDigit_hexDigit _ (Nat.mod_lt n (by decide))

theorem readFraction_fraction {micros : Nat} (h : micros < 10 ^ 6) :
    readFraction (fraction micros ++ ['Z']) = (some micros, ['Z']) := by
  unfold fraction
  split
  · rename_i hzero
    rw [hzero]
    rfl
  · obtain ⟨count, hcount⟩ := exists_zeros (digits 10 6 micros)
    generalize hkept : (digits 10 6 micros).rdropWhile (· = '0') = kept at hcount
    have hlength : kept.length + count = 6 := by
      have hall := congrArg List.length hcount
      rwa [length_digits, List.length_append, List.length_replicate, eq_comm] at hall
    have hdigit : ∀ c ∈ kept, Utf8.isAsciiDigit c = true := fun c hc =>
      isAsciiDigit_digits c (hcount ▸ List.mem_append_left _ hc)
    have hpadded : (kept ++ List.replicate 6 '0').take 6 = digits 10 6 micros := by
      rw [hcount, List.take_append, List.take_of_length_le (by omega), List.take_replicate]
      congr 2
      omega
    rw [List.cons_append, readFraction, List.takeWhile_append_of_pos hdigit,
      List.dropWhile_append_of_pos hdigit]
    change (number 10 ((kept ++ [] ++ _).take 6), ['Z']) = _
    rw [List.append_nil, hpadded, number_digits_of_lt (by decide) (by decide) h]

theorem digits_two (n : Nat) : ∃ a b, digits 10 2 n = [a, b] :=
  ⟨_, _, rfl⟩

theorem readRfc3339_fields (year month day hour minute second micros : Nat) (hyear : year < 10 ^ 4)
    (hmonth : month < 10 ^ 2) (hday : day < 10 ^ 2) (hhour : hour < 10 ^ 2)
    (hminute : minute < 10 ^ 2) (hsecond : second < 10 ^ 2) (hmicros : micros < 10 ^ 6) :
    readRfc3339 (digits 10 4 year ++ '-' :: digits 10 2 month ++ '-' :: digits 10 2 day ++
        'T' :: digits 10 2 hour ++ ':' :: digits 10 2 minute ++ ':' :: digits 10 2 second ++
        fraction micros ++ ['Z']) =
      some (((MarchDate.ofCivil year month day).days - 719468) * 86400000000 +
        ((hour * 60 + minute) * 60 + second) * 1000000 + micros) := by
  have hread : ∀ {width n : Nat}, n < 10 ^ width → number 10 (digits 10 width n) = some n :=
    fun h => number_digits_of_lt (by decide) (by decide) h
  replace hyear := hread hyear
  replace hmonth := hread hmonth
  replace hday := hread hday
  replace hhour := hread hhour
  replace hminute := hread hminute
  replace hsecond := hread hsecond
  obtain ⟨y1, y2, y3, y4, hy⟩ : ∃ y1 y2 y3 y4, digits 10 4 year = [y1, y2, y3, y4] :=
    ⟨_, _, _, _, rfl⟩
  obtain ⟨m, m', hm⟩ := digits_two month
  obtain ⟨d, d', hd⟩ := digits_two day
  obtain ⟨h, h', hh⟩ := digits_two hour
  obtain ⟨n, n', hn⟩ := digits_two minute
  obtain ⟨s, s', hs⟩ := digits_two second
  rw [hy] at hyear ⊢
  rw [hm] at hmonth ⊢
  rw [hd] at hday ⊢
  rw [hh] at hhour ⊢
  rw [hn] at hminute ⊢
  rw [hs] at hsecond ⊢
  simp only [List.cons_append, List.nil_append, readRfc3339, hyear, hmonth, hday,
    hhour, hminute, hsecond, readFraction_fraction hmicros, Option.bind_eq_bind, Option.bind_some]
  simp [offset]

theorem parseRfc3339_format {t : Int} {text : String} (h : formatRfc3339 t = .ok text) :
    parseRfc3339 text = .ok t ∧ '[' ∉ text.toList := by
  simp only [formatRfc3339] at h
  split at h
  · rename_i hyear
    have hdate := MarchDate.bounds_ofDays (t / 86400000000 + 719468)
    have hmonth := MarchDate.month_bounds (t / 86400000000 + 719468)
    have hdays := MarchDate.days_ofDays (t / 86400000000 + 719468)
    generalize MarchDate.ofDays (t / 86400000000 + 719468) = date at h hyear hdate hmonth hdays
    have hcivil := MarchDate.ofCivil_civil ⟨hdate.1, hdate.2.1⟩
    generalize htime : (t % 86400000000).toNat = time at h
    have hfields := readRfc3339_fields date.civil.1.toNat date.civil.2.toNat date.day.toNat
      (time / 3600000000) (time / 60000000 % 60) (time / 1000000 % 60) (time % 1000000) (by omega)
      (by omega) (by omega) (by omega) (by omega) (by omega) (by omega)
    rw [Int.toNat_of_nonneg hyear.1, Int.toNat_of_nonneg (by omega), Int.toNat_of_nonneg (by omega),
      hcivil, hdays] at hfields
    cases h
    constructor
    · rw [parseRfc3339, String.toList_ofList, hfields]
      simp only
      congr 1
      omega
    · rw [String.toList_ofList]
      have hplain : ∀ width n, '[' ∉ digits 10 width n := fun width n hc =>
        (digits_plain (by decide) (by decide) _ hc).2 rfl
      have hfraction : '[' ∉ fraction (time % 1000000) := by
        unfold fraction
        split
        · exact List.not_mem_nil
        · intro hc
          rcases List.mem_cons.1 hc with hc | hc
          · exact absurd hc (by decide)
          · exact hplain _ _ ((List.rdropWhile_prefix _ _).subset hc)
      simp [hplain, hfraction]
  · cases h

theorem exists_format {t : Int} (h : -62167219200000000 ≤ t ∧ t < 253402300800000000) :
    ∃ text, formatRfc3339 t = .ok text := by
  have hdays : -60 ≤ t / 86400000000 + 719468 ∧ t / 86400000000 + 719468 < 3652365 := by omega
  have hyear := MarchDate.civil_bounds hdays
  exact ⟨_, if_pos hyear⟩

/-! ## JSON -/

/-- The content of a JSON string whose closing quotation mark ends the text. -/
def readString : Nat → List Char → Option (List Char)
  | 0, _ => none
  | fuel + 1, text =>
      if text = ['"'] then some []
      else (readChar text).bind fun read => (readString fuel read.2).map (read.1 :: ·)

/-- A JSON text that is a string. -/
def parseString (text : List Char) : Option String :=
  match text with
  | '"' :: rest => (readString rest.length rest).map String.ofList
  | _ => none

/-- `serde_json::from_str`, for texts that are neither numbers nor arrays nor objects. -/
def parseJson (text : String) : Option Json :=
  if text = "null" then some .null
  else if text = "true" then some (.bool true)
  else if text = "false" then some (.bool false)
  else (parseString text.toList).map .string

/-- `serde_json::from_slice::<String>`. -/
def stringFromSlice (bytes : Bytes) : Except String String :=
  match (Utf8.fromUtf8 bytes).bind fun text => parseString text.toList with
  | some s => .ok s
  | none => .error "invalid type, expected a string"

def jsonText (value : Json) : String :=
  String.ofList (writeCanonicalJson serdeJson value)

theorem readString_escape {chars : List Char} {fuel : Nat} (h : chars.length < fuel) :
    readString fuel (chars.flatMap serdeJson.escape ++ ['"']) = some chars := by
  induction chars generalizing fuel with
  | nil =>
      cases fuel with
      | zero =>
          exact absurd h (Nat.lt_irrefl 0)
      | succ fuel =>
          rfl
  | cons c chars ih =>
      cases fuel with
      | zero =>
          exact absurd h (Nat.not_lt_zero _)
      | succ fuel =>
          have hread := serdeJson_lawful.escape_reads c (chars.flatMap serdeJson.escape ++ ['"'])
          rw [List.flatMap_cons, List.append_assoc, readString, if_neg, hread, Option.bind_some,
            ih (Nat.lt_of_succ_lt_succ h)]
          · rfl
          · intro hquote
            rw [hquote] at hread
            cases hread

theorem length_le_flatMap_escape (chars : List Char) :
    chars.length ≤ (chars.flatMap serdeJson.escape).length := by
  induction chars with
  | nil =>
      exact Nat.le_refl 0
  | cons c chars ih =>
      have hpos : 0 < (serdeJson.escape c).length := by
        refine List.length_pos_of_ne_nil fun hnil => ?_
        have hread := serdeJson_lawful.escape_reads c []
        rw [hnil] at hread
        cases hread
      rw [List.flatMap_cons, List.length_append, List.length_cons]
      omega

theorem parseString_writeString (s : String) :
    parseString (writeString serdeJson s) = some s := by
  have hlength : s.toList.length < (s.toList.flatMap serdeJson.escape ++ ['"']).length := by
    rw [List.length_append, List.length_singleton, Nat.lt_succ_iff]
    exact length_le_flatMap_escape s.toList
  rw [writeString, List.cons_append, parseString, readString_escape hlength, Option.map_some,
    String.ofList_toList]

/-- A string is read back from its bytes. -/
theorem stringFromSlice_jsonText (s : String) :
    stringFromSlice (Utf8.textBytes (jsonText (.string s))) = .ok s := by
  rw [stringFromSlice, Utf8.textBytes, Utf8.fromUtf8_utf8, Option.bind_some, jsonText, String.toList_ofList,
    writeCanonicalJson, parseString_writeString]

def codec : Codec :=
  { uuidText := uuidText
    parseUuid := parseUuid
    formatRfc3339 := formatRfc3339
    parseRfc3339 := parseRfc3339
    jsonText := jsonText
    parseJson := parseJson
    jsonBytes := fun value => .ok (Utf8.textBytes (jsonText value)) }

theorem codec_lawful : codec.Lawful :=
  { parseUuid_uuidText := by
      intro u
      simp only [codec]
      exact parseUuid_uuidText u
    parseRfc3339_format := by
      intro t text h
      simp only [codec] at h ⊢
      exact parseRfc3339_format h }

/-- Texts of one entity. -/
def textMessage : ConsumedMessage String :=
  { partitionKey := fun _ => .returned none
    entityKey := fun _ => .returned "a"
    toValue := fun text => .returned (.ok (.string text))
    fromSlice := fun bytes => .returned (stringFromSlice bytes) }

end Spelling
end Broker
end Kafkaman
