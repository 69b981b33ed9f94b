import Kafkaman.Lib.Utf8

/-!
# Core.Idempotency — the digest of an idempotency identity and its hexadecimal form

`IdempotencyKey` is 32 bytes; `toHex` and `fromHex` are the two directions of its text form, and
`fromHex_toHex` is their round trip.  The text is compared byte for byte by the receive tables, so
the case accepted on the way in is wider than the case written on the way out.
-/

namespace Kafkaman

/-- `[u8; 32]`. -/
structure IdempotencyKey where
  bytes : List UInt8
  length_eq : bytes.length = 32
  deriving DecidableEq

/-- The reason a text is not a key. -/
structure InvalidIdempotencyKey where
  value : String
  reason : String
  deriving DecidableEq, Repr

def InvalidIdempotencyKey.display (e : InvalidIdempotencyKey) : String :=
  "invalid idempotency key `" ++ e.value ++ "`: " ++ e.reason

namespace IdempotencyKey

open Lib.Utf8 (byteLen byteLen_cons)

def hexLen : Nat := 64

/-- A key that is zero but for its last byte. -/
def ofByte (b : UInt8) : IdempotencyKey :=
  { bytes := List.replicate 31 0 ++ [b]
    length_eq := by simp }

/-! ## Digits -/

def hexDigit (nibble : UInt8) : Char :=
  "0123456789abcdef".toList.getD (nibble &&& 0x0f).toNat '0'

def decodeHexNibble (c : Char) : Option UInt8 :=
  if '0' ≤ c ∧ c ≤ '9' then some (UInt8.ofNat (c.toNat - '0'.toNat))
  else if 'a' ≤ c ∧ c ≤ 'f' then some (UInt8.ofNat (c.toNat - 'a'.toNat + 10))
  else if 'A' ≤ c ∧ c ≤ 'F' then some (UInt8.ofNat (c.toNat - 'A'.toNat + 10))
  else none

def encodeHexByte (b : UInt8) : List Char :=
  [hexDigit (b >>> 4), hexDigit (b &&& 0x0f)]

def decodeHexPairs : List Char → Option (List UInt8)
  | high :: low :: rest => do
      let high ← decodeHexNibble high
      let low ← decodeHexNibble low
      let tail ← decodeHexPairs rest
      return (high <<< 4 ||| low) :: tail
  | [_] => none
  | [] => some []

/-! ## The text form -/

def toHex (key : IdempotencyKey) : String :=
  String.ofList (key.bytes.flatMap encodeHexByte)

def fromHex (value : String) : Except InvalidIdempotencyKey IdempotencyKey :=
  if byteLen value.toList ≠ hexLen then
    .error
      { value := value
        reason := "must be 64 hexadecimal characters" }
  else
    match decodeHexPairs value.toList with
    | none =>
        .error
          { value := value
            reason := "must contain only hexadecimal characters" }
    | some bytes =>
        if h : bytes.length = 32 then
          .ok
            { bytes := bytes
              length_eq := h }
        else
          .error
            { value := value
              reason := "must contain only hexadecimal characters" }

/-! ## Round trip -/

private theorem byteRoundTrip :
    ∀ n : Fin 256,
      let b := UInt8.ofNat n.val
      decodeHexNibble (hexDigit (b >>> 4)) = some (b >>> 4) ∧
        decodeHexNibble (hexDigit (b &&& 0x0f)) = some (b &&& 0x0f) ∧
        ((b >>> 4) <<< 4 ||| (b &&& 0x0f)) = b ∧
        (hexDigit (b >>> 4)).utf8Size = 1 ∧ (hexDigit (b &&& 0x0f)).utf8Size = 1 := by
  decide +kernel

private theorem byteRoundTripOf (b : UInt8) :
    decodeHexNibble (hexDigit (b >>> 4)) = some (b >>> 4) ∧
      decodeHexNibble (hexDigit (b &&& 0x0f)) = some (b &&& 0x0f) ∧
      ((b >>> 4) <<< 4 ||| (b &&& 0x0f)) = b ∧
      (hexDigit (b >>> 4)).utf8Size = 1 ∧ (hexDigit (b &&& 0x0f)).utf8Size = 1 := by
  simpa using byteRoundTrip ⟨b.toNat, b.toNat_lt⟩

theorem decodeHexPairs_flatMap (bytes : List UInt8) :
    decodeHexPairs (bytes.flatMap encodeHexByte) = some bytes := by
  induction bytes with
  | nil =>
      rfl
  | cons b rest ih =>
      rcases byteRoundTripOf b with ⟨hhigh, hlow, hjoin, -, -⟩
      simp [encodeHexByte, decodeHexPairs, hhigh, hlow, hjoin, ih]

theorem byteLen_flatMap (bytes : List UInt8) :
    byteLen (bytes.flatMap encodeHexByte) = 2 * bytes.length := by
  induction bytes with
  | nil =>
      rfl
  | cons b rest ih =>
      rcases byteRoundTripOf b with ⟨-, -, -, hhigh, hlow⟩
      simp only [List.flatMap_cons, encodeHexByte, List.cons_append, List.nil_append, byteLen_cons,
        hhigh, hlow, ih, List.length_cons]
      omega

theorem fromHex_toHex (key : IdempotencyKey) : fromHex key.toHex = .ok key := by
  have hlen : byteLen key.toHex.toList = hexLen := by
    simp [toHex, byteLen_flatMap, key.length_eq, hexLen]
  have hdecode : decodeHexPairs key.toHex.toList = some key.bytes := by
    simp [toHex, decodeHexPairs_flatMap]
  simp [fromHex, hlen, hdecode, key.length_eq]

end IdempotencyKey

end Kafkaman
