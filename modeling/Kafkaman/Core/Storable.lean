import Kafkaman.Core.Rows

/-!
# Core.Storable — the values PostgreSQL refuses

`text` and `jsonb` reject the character U+0000, wherever in the value it stands; `bytea` takes every
byte.  An `interval` and a `timestamptz` are 64-bit counts of microseconds, an `integer` has 32 bits.
A statement that binds or computes such a value fails, and fails again for as long as the value is
the same.

* `storableText`, `Json.storable` — a value without that character;
* `HeaderMap.storable` — a map bound as a JSON object;
* `waitError` — what `now() + make_interval(secs => …)` answers outside its range.
-/

namespace Kafkaman

open Lib

/-- A text PostgreSQL takes. -/
def storableText (text : String) : Bool :=
  text.toList.all fun c => c ≠ '\x00'

mutual

/-- A JSON value PostgreSQL takes as `jsonb`. -/
def Json.storable : Json → Bool
  | .null => true
  | .bool _ => true
  | .number _ => true
  | .string s => storableText s
  | .array items => Json.storableItems items
  | .object members => Json.storableMembers members

def Json.storableItems : List Json → Bool
  | [] => true
  | item :: items => item.storable && Json.storableItems items

def Json.storableMembers : List (String × Json) → Bool
  | [] => true
  | (key, value) :: members =>
      storableText key && value.storable && Json.storableMembers members

end

/-- A header map, which is bound as an object of strings. -/
def HeaderMap.storable (headers : HeaderMap) : Bool :=
  headers.entries.all fun header => storableText header.1 && storableText header.2

/-- The errors of a refused statement. -/
inductive DatabaseError where
  | invalidByteSequence
  | intervalOutOfRange
  | timestampOutOfRange
  | integerOutOfRange
  deriving DecidableEq, Repr

/-- `INT_MAX`. -/
def integerMax : Nat :=
  2 ^ 31 - 1

/-- The first microsecond an `interval` cannot count. -/
def intervalEnd : Nat :=
  2 ^ 63

/-- The first instant past the range of a `timestamptz`, the start of the year 294277. -/
def timestamptzEnd : Int :=
  9224318016000000000

/-- The first instant in the range of a `timestamptz`, in the year 4714 BC. -/
def timestamptzStart : Int :=
  -210866803200000000

/-- Whether `now() + make_interval(secs => wait)` fails. -/
def waitError (now : Timestamp) (wait : Micros) : Option DatabaseError :=
  if intervalEnd ≤ wait then some .intervalOutOfRange
  else if timestamptzEnd ≤ now + (wait : Int) then some .timestampOutOfRange
  else none

theorem waitError_eq_none {now : Timestamp} {wait : Micros} :
    waitError now wait = none ↔ wait < intervalEnd ∧ now + (wait : Int) < timestamptzEnd := by
  simp only [waitError]
  split
  · simp only [reduceCtorEq, false_iff, not_and_or, Nat.not_lt]
    exact Or.inl ‹_›
  · split
    · simp only [reduceCtorEq, false_iff, not_and_or, Int.not_lt]
      exact Or.inr ‹_›
    · exact iff_of_true rfl ⟨Nat.lt_of_not_le ‹_›, Int.lt_of_not_ge ‹_›⟩

end Kafkaman
