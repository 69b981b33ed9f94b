import Mathlib.Algebra.GroupWithZero.Nat
import Mathlib.Data.List.Basic

/-!
# Lib.Utf8 — the bytes of a text

Texts are lists of characters here and byte strings where they are hashed, stored or compared.
`utf8` takes the one to the other.  A character is one byte below 128 or several bytes from 128 on,
so a test that looks for ASCII bytes can be made on either side.

* `utf8_injective` — a text is determined by its bytes;
* `toList_toUTF8` — the bytes of a `String` are those of its characters;
* `lt_of_mem_utf8` — the eight bytes that no text has;
* `fromUtf8`, `fromUtf8Lossy` — back to texts, with and without an error for what is no character;
* `map_lower_utf8` — lowering the letters commutes with the encoding;
* `utf8_isPrefix_iff` — an ASCII text starts another one byte by byte if it does so letter by letter.
-/

namespace Kafkaman
namespace Lib
namespace Utf8

def utf8 (chars : List Char) : List UInt8 :=
  chars.flatMap String.utf8EncodeChar

/-- `str::as_bytes`. -/
def textBytes (text : String) : List UInt8 :=
  utf8 text.toList

@[simp] theorem utf8_nil : utf8 [] = [] := rfl

theorem utf8_cons (c : Char) (chars : List Char) :
    utf8 (c :: chars) = String.utf8EncodeChar c ++ utf8 chars := rfl

@[simp] theorem utf8_append (chars chars' : List Char) :
    utf8 (chars ++ chars') = utf8 chars ++ utf8 chars' :=
  List.flatMap_append

theorem utf8_injective : Function.Injective utf8 := by
  intro chars chars' h
  have htext : String.ofList chars = String.ofList chars' := by
    rw [← String.toByteArray_inj]
    simpa [List.utf8Encode, utf8] using h
  exact String.ofList_injective htext

/-- `str::len`. -/
def byteLen (chars : List Char) : Nat :=
  (chars.map Char.utf8Size).sum

theorem byteLen_cons (c : Char) (chars : List Char) :
    byteLen (c :: chars) = c.utf8Size + byteLen chars := rfl

theorem byteLen_append (s t : List Char) : byteLen (s ++ t) = byteLen s + byteLen t := by
  rw [byteLen, List.map_append, List.sum_append_nat]
  rfl

/-! ## Byte arrays -/

theorem loop_toList (bytes : ByteArray) {rest : List UInt8} (i : Nat) (copied : List UInt8)
    (hrest : bytes.data.toList.drop i = rest) :
    ByteArray.toList.loop bytes i copied = copied.reverse ++ rest := by
  induction rest generalizing i copied with
  | nil =>
      have hle : bytes.size ≤ i := by simpa using hrest
      rw [ByteArray.toList.loop, if_neg (Nat.not_lt.2 hle), List.append_nil]
  | cons byte rest ih =>
      have hhead : bytes.data[i]? = some byte := by
        rw [← Array.getElem?_toList, ← List.head?_drop, hrest]
        rfl
      have hlt : i < bytes.size := (Array.getElem?_eq_some_iff.1 hhead).1
      have hget : bytes.get! i = byte := by
        rw [ByteArray.get!, getElem!_def, hhead]
      have htail : bytes.data.toList.drop (i + 1) = rest := by
        rw [← List.tail_drop, hrest]
        rfl
      rw [ByteArray.toList.loop, if_pos hlt, hget, ih (i + 1) (byte :: copied) htail,
        List.reverse_cons, List.append_assoc]
      rfl

theorem toList_toUTF8 (text : String) : text.toUTF8.toList = utf8 text.toList := by
  have hbytes : text.toUTF8 = (utf8 text.toList).toByteArray := by
    conv_lhs => rw [← String.ofList_toList (s := text)]
    rfl
  have hdata : (utf8 text.toList).toByteArray.data.toList.drop 0 = utf8 text.toList := by
    simp
  rw [hbytes]
  exact loop_toList _ 0 [] hdata

/-! ## ASCII -/

/-- One of the characters that are one byte. -/
def IsAscii (c : Char) : Prop :=
  c.toNat < 128

instance (c : Char) : Decidable (IsAscii c) :=
  inferInstanceAs (Decidable (c.toNat < 128))

/-- `char::is_ascii_lowercase`. -/
def isAsciiLowercase (c : Char) : Bool :=
  'a' ≤ c && c ≤ 'z'

/-- `char::is_ascii_digit`. -/
def isAsciiDigit (c : Char) : Bool :=
  '0' ≤ c && c ≤ '9'

theorem encode_ascii {c : Char} (h : IsAscii c) :
    String.utf8EncodeChar c = [UInt8.ofNat c.toNat] := by
  have hle : c.val.toNat ≤ 127 := Nat.le_of_lt_succ h
  unfold String.utf8EncodeChar
  simp only [if_pos hle]
  rfl

theorem toNat_ofNat_ascii {c : Char} (h : IsAscii c) : (UInt8.ofNat c.toNat).toNat = c.toNat := by
  have hlt : c.toNat < 128 := h
  rw [UInt8.toNat_ofNat']
  omega

/-- The bytes of another character: the top bit is set, and not all of the first five are. -/
theorem mem_encode_bounds {c : Char} (h : ¬ IsAscii c) {byte : UInt8}
    (hbyte : byte ∈ String.utf8EncodeChar c) : 128 ≤ byte.toNat ∧ byte.toNat < 248 := by
  have hgt : ¬ c.val.toNat ≤ 127 := fun hle => h (Nat.lt_succ_of_le hle)
  unfold String.utf8EncodeChar at hbyte
  simp only [if_neg hgt] at hbyte
  split at hbyte
  · simp only [List.mem_cons, List.not_mem_nil, or_false] at hbyte
    rcases hbyte with rfl | rfl <;> rw [UInt8.toNat_ofNat'] <;> omega
  · split at hbyte
    · simp only [List.mem_cons, List.not_mem_nil, or_false] at hbyte
      rcases hbyte with rfl | rfl | rfl <;> rw [UInt8.toNat_ofNat'] <;> omega
    · simp only [List.mem_cons, List.not_mem_nil, or_false] at hbyte
      rcases hbyte with rfl | rfl | rfl | rfl <;> rw [UInt8.toNat_ofNat'] <;> omega

theorem le_of_mem_encode {c : Char} (h : ¬ IsAscii c) {byte : UInt8}
    (hbyte : byte ∈ String.utf8EncodeChar c) : 128 ≤ byte.toNat :=
  (mem_encode_bounds h hbyte).1

/-- The bytes from 248 on are in no text. -/
theorem lt_of_mem_utf8 {chars : List Char} {byte : UInt8} (hbyte : byte ∈ utf8 chars) :
    byte.toNat < 248 := by
  rcases List.mem_flatMap.1 hbyte with ⟨c, -, hmem⟩
  by_cases hc : IsAscii c
  · have hlt : c.toNat < 128 := hc
    rw [encode_ascii hc, List.mem_singleton] at hmem
    rw [hmem, toNat_ofNat_ascii hc]
    omega
  · exact (mem_encode_bounds hc hmem).2

/-- A text that starts with ASCII characters does so byte by byte. -/
theorem utf8_isPrefix_iff {front chars : List Char} (hfront : ∀ c ∈ front, IsAscii c) :
    utf8 front <+: utf8 chars ↔ front <+: chars := by
  induction front generalizing chars with
  | nil =>
      simp
  | cons c front ih =>
      have hc : IsAscii c := hfront c List.mem_cons_self
      have hrest := fun c' h => hfront c' (List.mem_cons_of_mem _ h)
      cases chars with
      | nil =>
          rw [utf8_cons, encode_ascii hc]
          simp
      | cons d chars =>
          rw [utf8_cons, utf8_cons, encode_ascii hc, List.cons_prefix_cons]
          by_cases hd : IsAscii d
          · rw [encode_ascii hd, List.singleton_append, List.singleton_append,
              List.cons_prefix_cons, ih hrest]
            have hsame : UInt8.ofNat c.toNat = UInt8.ofNat d.toNat ↔ c = d := by
              rw [← UInt8.toNat_inj, toNat_ofNat_ascii hc, toNat_ofNat_ascii hd, Char.toNat_inj]
            rw [hsame]
          · -- the first byte of `d` is not an ASCII byte, so `d` is not `c`
            refine iff_of_false ?_ ?_
            · intro h
              have hmem : UInt8.ofNat c.toNat ∈ String.utf8EncodeChar d := by
                cases hbytes : String.utf8EncodeChar d with
                | nil =>
                    exact absurd hbytes String.utf8EncodeChar_ne_nil
                | cons byte bytes =>
                    rw [hbytes, List.singleton_append, List.cons_append,
                      List.cons_prefix_cons] at h
                    rw [h.1]
                    exact List.mem_cons_self
              have hle := le_of_mem_encode hd hmem
              rw [toNat_ofNat_ascii hc] at hle
              exact absurd hc (Nat.not_lt.2 hle)
            · rintro ⟨rfl, -⟩
              exact hd hc

/-! ## Decoding -/

/-- A character of which some bytes have been read: its bits so far, the bytes it still needs, and
the bounds of the next one. -/
structure Unfinished where
  bits : Nat
  owed : Nat
  low : Nat
  high : Nat
  deriving DecidableEq

/-- A byte between two characters: what it completes, and what it begins.  Where the bounds are
narrower than a continuation byte's, they keep out overlong forms, surrogates and what is above the
last character. -/
def start (byte : Nat) : List (Option Char) × Option Unfinished :=
  if byte < 0x80 then ([some (Char.ofNat byte)], none)
  else if byte < 0xC2 then ([none], none)
  else if byte < 0xE0 then ([], some ⟨byte - 0xC0, 1, 0x80, 0xBF⟩)
  else if byte < 0xF0 then
    ([], some ⟨byte - 0xE0, 2, if byte = 0xE0 then 0xA0 else 0x80, if byte = 0xED then 0x9F else 0xBF⟩)
  else if byte < 0xF5 then
    ([], some ⟨byte - 0xF0, 3, if byte = 0xF0 then 0x90 else 0x80, if byte = 0xF4 then 0x8F else 0xBF⟩)
  else ([none], none)

/-- One byte more.  A byte that does not continue the character begins the next one. -/
def feed : Option Unfinished → Nat → List (Option Char) × Option Unfinished
  | none, byte => start byte
  | some u, byte =>
      if u.low ≤ byte ∧ byte ≤ u.high then
        let bits := u.bits * 64 + (byte - 0x80)
        if u.owed = 1 then ([some (Char.ofNat bits)], none)
        else ([], some ⟨bits, u.owed - 1, 0x80, 0xBF⟩)
      else
        (none :: (start byte).1, (start byte).2)

/-- The characters of a byte string, with `none` for each longest part that is no character. -/
def decodeFrom : Option Unfinished → List UInt8 → List (Option Char)
  | none, [] => []
  | some _, [] => [none]
  | state, byte :: rest => (feed state byte.toNat).1 ++ decodeFrom (feed state byte.toNat).2 rest

/-- `String::from_utf8`. -/
def fromUtf8 (bytes : List UInt8) : Option String :=
  ((decodeFrom none bytes).mapM id).map String.ofList

/-- `String::from_utf8_lossy`. -/
def fromUtf8Lossy (bytes : List UInt8) : String :=
  String.ofList ((decodeFrom none bytes).map fun c => c.getD '�')

theorem decodeFrom_cons {state state' : Option Unfinished} {n : Nat} {rest : List UInt8}
    {out : List (Option Char)} (hn : n < 256) (h : feed state n = (out, state')) :
    decodeFrom state (UInt8.ofNat n :: rest) = out ++ decodeFrom state' rest := by
  have hbyte : (UInt8.ofNat n).toNat = n := by
    rw [UInt8.toNat_ofNat']
    omega
  rw [decodeFrom, hbyte, h]

section Continuation

variable {bits low high n : Nat} (hlow : low ≤ n + 128) (hhigh : n + 128 ≤ high)
include hlow hhigh

theorem feed_more (owed : Nat) :
    feed (some ⟨bits, owed + 2, low, high⟩) (n + 128) =
      ([], some ⟨bits * 64 + n, owed + 1, 0x80, 0xBF⟩) := by
  simp only [feed, if_pos (And.intro hlow hhigh), if_neg (Nat.succ_succ_ne_one owed),
    Nat.add_sub_cancel]
  rfl

theorem feed_last :
    feed (some ⟨bits, 1, low, high⟩) (n + 128) = ([some (Char.ofNat (bits * 64 + n))], none) := by
  simp only [feed, if_pos (And.intro hlow hhigh), if_true, Nat.add_sub_cancel]

end Continuation

theorem feed_two : ∀ n < 32, 2 ≤ n → feed none (n + 192) = ([], some ⟨n, 1, 0x80, 0xBF⟩) := by
  decide

theorem feed_three : ∀ n < 16, feed none (n + 224) =
    ([], some ⟨n, 2, if n = 0 then 0xA0 else 0x80, if n = 13 then 0x9F else 0xBF⟩) := by
  decide

theorem feed_four : ∀ n < 5, feed none (n + 240) =
    ([], some ⟨n, 3, if n = 0 then 0x90 else 0x80, if n = 4 then 0x8F else 0xBF⟩) := by
  decide

theorem decodeFrom_encode (c : Char) (rest : List UInt8) :
    decodeFrom none (String.utf8EncodeChar c ++ rest) = some c :: decodeFrom none rest := by
  have hvalid : c.toNat < 0xD800 ∨ 0xDFFF < c.toNat ∧ c.toNat < 0x110000 := c.valid
  have hchar : ∀ n, n = c.toNat → Char.ofNat n = c := by
    rintro n rfl
    exact Char.ofNat_toNat c
  unfold String.utf8EncodeChar
  generalize hv : c.val.toNat = v
  replace hv : c.toNat = v := hv
  rw [hv] at hvalid hchar
  simp only
  split
  · have hstart : feed none v = ([some (Char.ofNat v)], none) := if_pos (by omega)
    rw [List.singleton_append, decodeFrom_cons (by omega) hstart, hchar v rfl, List.singleton_append]
  split
  · have hlead := feed_two (v / 64 % 32) (by omega) (by omega)
    rw [List.cons_append, List.singleton_append, decodeFrom_cons (by omega) hlead, List.nil_append,
      decodeFrom_cons (by omega) (feed_last (by omega) (by omega)), hchar _ (by omega),
      List.singleton_append]
  split
  · have hlead := feed_three (v / 4096 % 16) (by omega)
    -- the second byte is in bounds: neither overlong nor a surrogate
    have hlow : (if v / 4096 % 16 = 0 then 0xA0 else 0x80) ≤ v / 64 % 64 + 128 := by
      split <;> omega
    have hhigh : v / 64 % 64 + 128 ≤ if v / 4096 % 16 = 13 then 0x9F else 0xBF := by
      split <;> omega
    rw [List.cons_append, List.cons_append, List.singleton_append, decodeFrom_cons (by omega) hlead,
      List.nil_append, decodeFrom_cons (by omega) (feed_more hlow hhigh 0), List.nil_append,
      decodeFrom_cons (by omega) (feed_last (by omega) (by omega)), hchar _ (by omega),
      List.singleton_append]
  · have hlead := feed_four (v / 262144 % 8) (by omega)
    have hlow : (if v / 262144 % 8 = 0 then 0x90 else 0x80) ≤ v / 4096 % 64 + 128 := by
      split <;> omega
    have hhigh : v / 4096 % 64 + 128 ≤ if v / 262144 % 8 = 4 then 0x8F else 0xBF := by
      split <;> omega
    rw [List.cons_append, List.cons_append, List.cons_append, List.singleton_append,
      decodeFrom_cons (by omega) hlead, List.nil_append,
      decodeFrom_cons (by omega) (feed_more hlow hhigh 1), List.nil_append,
      decodeFrom_cons (by omega) (feed_more (by omega) (by omega) 0), List.nil_append,
      decodeFrom_cons (by omega) (feed_last (by omega) (by omega)), hchar _ (by omega),
      List.singleton_append]

theorem decodeFrom_utf8 (chars : List Char) : decodeFrom none (utf8 chars) = chars.map some := by
  induction chars with
  | nil =>
      rfl
  | cons c chars ih =>
      rw [utf8_cons, decodeFrom_encode, ih, List.map_cons]

theorem fromUtf8_utf8 (text : String) : fromUtf8 (utf8 text.toList) = some text := by
  have hall : text.toList.mapM (fun c => some (id c)) = some (text.toList.map id) :=
    List.mapM_pure
  rw [fromUtf8, decodeFrom_utf8, List.mapM_map]
  refine (congrArg (Option.map String.ofList) hall).trans ?_
  rw [List.map_id, Option.map_some, String.ofList_toList]

theorem fromUtf8Lossy_utf8 (text : String) : fromUtf8Lossy (utf8 text.toList) = text := by
  rw [fromUtf8Lossy, decodeFrom_utf8, List.map_map]
  simp [Function.comp_def]

/-! ## Letter case -/

/-- `u8::to_ascii_lowercase`. -/
def lowerByte (byte : UInt8) : UInt8 :=
  if 65 ≤ byte.toNat ∧ byte.toNat ≤ 90 then byte + 32 else byte

/-- `<[u8]>::eq_ignore_ascii_case`. -/
def eqIgnoreAsciiCase (bytes bytes' : List UInt8) : Bool :=
  bytes.map lowerByte = bytes'.map lowerByte

private theorem lowerEncodeAscii :
    ∀ n < 128, (String.utf8EncodeChar (Char.ofNat n)).map lowerByte =
      String.utf8EncodeChar (Char.ofNat n).toLower := by
  decide

theorem map_lower_encode (c : Char) :
    (String.utf8EncodeChar c).map lowerByte = String.utf8EncodeChar c.toLower := by
  by_cases hc : IsAscii c
  · simpa using lowerEncodeAscii c.toNat hc
  · -- neither the character nor one of its bytes is a letter
    have hle : 128 ≤ c.toNat := Nat.not_lt.1 hc
    have hsame : c.toLower = c := by
      unfold Char.toLower
      rw [dif_neg]
      rintro ⟨-, hZ⟩
      have hnat : c.toNat ≤ 'Z'.toNat := UInt32.le_iff_toNat_le.1 hZ
      have hval : 'Z'.toNat = 90 := rfl
      omega
    rw [hsame]
    refine (List.map_congr_left fun byte hbyte => ?_).trans (List.map_id _)
    have htop := le_of_mem_encode hc hbyte
    exact if_neg fun hletter => by omega

theorem map_lower_utf8 (chars : List Char) :
    (utf8 chars).map lowerByte = utf8 (chars.map Char.toLower) := by
  induction chars with
  | nil =>
      rfl
  | cons c chars ih =>
      rw [utf8_cons, List.map_append, map_lower_encode, ih, List.map_cons, utf8_cons]

end Utf8
end Lib
end Kafkaman
