import Mathlib.Algebra.Ring.Nat
import Mathlib.Logic.Function.Basic

/-!
# Lib.Fnv — hashes of encodings, and FNV-1a

A hash that is taken of an encoding instead of the value can confuse two values in two ways: the
encoding confuses them, or the hash does.  With an injective encoding only the second is left.

* `Collide` — two inputs that a hash confuses;
* `hash_encode_eq_iff` — what it means that two values share a hash;
* `Params.hash` — FNV-1a of any width, over natural numbers;
* `fnv64` — its 64-bit instance.
-/

namespace Kafkaman
namespace Lib
namespace Fnv

universe u v w

/-! ## Hashing an encoding -/

section Encoding

variable {α : Type u} {β : Type v} {γ : Type w}

def Collide (hash : β → γ) (x y : β) : Prop :=
  x ≠ y ∧ hash x = hash y

theorem hash_encode_eq_iff {hash : β → γ} {encode : α → β} (hencode : Function.Injective encode)
    {a b : α} :
    hash (encode a) = hash (encode b) ↔ a = b ∨ Collide hash (encode a) (encode b) := by
  constructor
  · intro h
    by_cases hab : a = b
    · exact Or.inl hab
    · exact Or.inr ⟨fun heq => hab (hencode heq), h⟩
  · rintro (rfl | h)
    · rfl
    · exact h.2

end Encoding

/-! ## FNV-1a -/

/-- One FNV hash; `width` is its size in bits. -/
structure Params where
  width : Nat
  prime : Nat
  offsetBasis : Nat

namespace Params

variable (params : Params)

/-- FNV-1a takes the byte in first and multiplies then; FNV-1 does it the other way round. -/
def round (hash : Nat) (byte : UInt8) : Nat :=
  (hash ^^^ byte.toNat) * params.prime % 2 ^ params.width

def hash (bytes : List UInt8) : Nat :=
  bytes.foldl params.round params.offsetBasis

end Params

def fnv64 : Params :=
  { width := 64
    prime := 2 ^ 40 + 2 ^ 8 + 0xb3
    offsetBasis := 14695981039346656037 }

end Fnv
end Lib
end Kafkaman
