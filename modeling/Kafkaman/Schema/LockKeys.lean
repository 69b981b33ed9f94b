import Kafkaman.Lib.Fnv
import Kafkaman.Lib.UniqueReading
import Kafkaman.Lib.Utf8
import Kafkaman.Schema.Tables

/-!
# Schema.LockKeys — advisory locks, and who can share one

The advisory locks of a database are 64-bit integers, whoever takes them.  A migration locks a hash
of its schema's name.  An enqueue locks a hash of its entity: a fixed word, the schema, the message
type and the entity's key, each with a byte behind it that no text has.

* `LockSubject` — what a lock stands for, and the bytes its key is the hash of;
* `LockSubject.bytes_injective` — the bytes tell all subjects apart;
* `LockSubject.key_eq_iff` — so that a shared key is a collision of the hash;
* `outboxEntityLockKey_eq`, `migrationLockKey_eq` — the keys of the source are these.
-/

namespace Kafkaman
namespace Schema

open Lib
open Lib.Fnv (Collide fnv64 hash_encode_eq_iff)
open Lib.UniqueReading (delimited mem_delimited delimited_injective)
open Lib.Utf8 (utf8 utf8_injective lt_of_mem_utf8 toList_toUTF8)

/-! ## The keys -/

/-- `advisory_lock_key`, as the migration runner binds it. -/
def migrationLockKey (schema : String) : Int64 :=
  (advisoryLockKey schema).toInt64

/-- `outbox_entity_lock_key`. -/
def outboxEntityLockKey (table : Relation) (entityKey : String) : Int64 :=
  (["outbox_entity", table.schema.value, table.descriptor.messageType, entityKey].foldl
    (fun hash part => fnv1a (fnv1a hash part.toUTF8.toList) [0xff]) fnvOffsetBasis).toInt64

/-! ## What is hashed -/

/-- The bytes that `advisory_lock_key` hashes. -/
def schemaBytes (schema : String) : List UInt8 :=
  utf8 schema.toList

/-- The parts of an entity's key, each followed by the delimiter. -/
def entityBytes (schema messageType entityKey : String) : List UInt8 :=
  delimited (fun part : String => utf8 part.toList) 0xff
    ["outbox_entity", schema, messageType, entityKey]

/-- What an advisory lock stands for. -/
inductive LockSubject
  | migration (schema : String)
  | entity (schema messageType entityKey : String)
  deriving DecidableEq

namespace LockSubject

def bytes : LockSubject → List UInt8
  | .migration schema => schemaBytes schema
  | .entity schema messageType entityKey => entityBytes schema messageType entityKey

def key (subject : LockSubject) : Int64 :=
  (fnv1a fnvOffsetBasis subject.bytes).toInt64

end LockSubject

/-- What an enqueue into the outbox locks. -/
def Relation.lockSubject (table : Relation) (entityKey : String) : LockSubject :=
  .entity table.schema.value table.descriptor.messageType entityKey

theorem delimiter_not_mem (part : String) : (0xff : UInt8) ∉ utf8 part.toList := by
  intro h
  exact absurd (lt_of_mem_utf8 h) (by decide)

theorem utf8_toList_injective : Function.Injective fun part : String => utf8 part.toList :=
  fun _ _ h => String.toList_injective (utf8_injective h)

theorem entityBytes_injective {schema messageType entityKey schema' messageType' entityKey' : String}
    (h : entityBytes schema messageType entityKey =
      entityBytes schema' messageType' entityKey') :
    schema = schema' ∧ messageType = messageType' ∧ entityKey = entityKey' := by
  have hparts := delimited_injective utf8_toList_injective delimiter_not_mem h
  simpa using hparts

theorem entityBytes_ne_schemaBytes (schema messageType entityKey schema' : String) :
    entityBytes schema messageType entityKey ≠ schemaBytes schema' := by
  intro h
  -- An entity always has parts, and the delimiter stands behind the first of them.
  have hmem : (0xff : UInt8) ∈ entityBytes schema messageType entityKey :=
    mem_delimited (List.cons_ne_nil _ _)
  rw [h] at hmem
  exact delimiter_not_mem schema' hmem

theorem LockSubject.bytes_injective : Function.Injective LockSubject.bytes := by
  intro subject subject' h
  cases subject with
  | migration schema =>
      cases subject' with
      | migration schema' =>
          rw [utf8_toList_injective h]
      | entity schema' messageType entityKey =>
          exact absurd h.symm (entityBytes_ne_schemaBytes _ _ _ _)
  | entity schema messageType entityKey =>
      cases subject' with
      | migration schema' =>
          exact absurd h (entityBytes_ne_schemaBytes _ _ _ _)
      | entity schema' messageType' entityKey' =>
          rcases entityBytes_injective h with ⟨rfl, rfl, rfl⟩
          rfl

/-! ## The hash -/

theorem toNat_fnv1a (hash : UInt64) (bytes : List UInt8) :
    (fnv1a hash bytes).toNat = bytes.foldl fnv64.round hash.toNat := by
  induction bytes generalizing hash with
  | nil =>
      rfl
  | cons byte bytes ih =>
      -- `wrapping_mul` is the product modulo 2^64.
      have hround : ((hash ^^^ byte.toUInt64) * fnvPrime).toNat = fnv64.round hash.toNat byte := by
        rw [UInt64.toNat_mul, UInt64.toNat_xor, UInt8.toNat_toUInt64]
        rfl
      rw [List.foldl_cons, ← hround]
      exact ih _

theorem fnv1a_append (hash : UInt64) (bytes bytes' : List UInt8) :
    fnv1a hash (bytes ++ bytes') = fnv1a (fnv1a hash bytes) bytes' :=
  List.foldl_append

theorem foldl_fnv1a (hash : UInt64) (parts : List String) :
    parts.foldl (fun hash part => fnv1a (fnv1a hash part.toUTF8.toList) [0xff]) hash =
      fnv1a hash (delimited (fun part : String => utf8 part.toList) 0xff parts) := by
  induction parts generalizing hash with
  | nil =>
      rfl
  | cons part parts ih =>
      rw [List.foldl_cons, ih, toList_toUTF8, ← fnv1a_append, ← fnv1a_append, delimited, delimited,
        List.flatMap_cons, List.append_assoc]

namespace LockSubject

theorem toNat_key (subject : LockSubject) :
    subject.key.toUInt64.toNat = fnv64.hash subject.bytes := by
  rw [key, UInt64.toUInt64_toInt64, toNat_fnv1a]
  rfl

theorem key_eq_iff {subject subject' : LockSubject} :
    subject.key = subject'.key ↔
      subject = subject' ∨ Collide fnv64.hash subject.bytes subject'.bytes := by
  rw [← hash_encode_eq_iff bytes_injective, ← toNat_key, ← toNat_key, UInt64.toNat_inj]
  exact ⟨congrArg Int64.toUInt64, fun h => congrArg Int64.ofUInt64 h⟩

end LockSubject

theorem outboxEntityLockKey_eq (table : Relation) (entityKey : String) :
    outboxEntityLockKey table entityKey = (table.lockSubject entityKey).key := by
  rw [outboxEntityLockKey, foldl_fnv1a]
  rfl

theorem migrationLockKey_eq (schema : String) :
    migrationLockKey schema = (LockSubject.migration schema).key := by
  rw [migrationLockKey, advisoryLockKey, toList_toUTF8]
  rfl

-- The value that the source pins for its default schema.
example : migrationLockKey "kafkaman" = 7849300636957484259 := by
  rw [migrationLockKey_eq]
  decide

/-- Entity lock keys hash an unambiguous encoding.  A key is the FNV-1a hash of the four parts, each
with its delimiter; the encoding is injective, and none of its values is what a migration hashes.
Two entities, or an entity and a migration, share a key exactly when they are one entity or the hash
collides on what was hashed. -/
theorem entity_lock_keys_unambiguous :
    (∀ (table : Relation) (entityKey : String),
      (outboxEntityLockKey table entityKey).toUInt64.toNat =
        fnv64.hash (entityBytes table.schema.value table.descriptor.messageType entityKey)) ∧
    (∀ schema messageType entityKey schema' messageType' entityKey' : String,
      entityBytes schema messageType entityKey = entityBytes schema' messageType' entityKey' →
        (schema, messageType, entityKey) = (schema', messageType', entityKey')) ∧
    (∀ schema messageType entityKey schema' : String,
      entityBytes schema messageType entityKey ≠ schemaBytes schema') ∧
    (∀ schema : String,
      (migrationLockKey schema).toUInt64.toNat = fnv64.hash (schemaBytes schema)) ∧
    (∀ (table table' : Relation) (entityKey entityKey' : String),
      outboxEntityLockKey table entityKey = outboxEntityLockKey table' entityKey' ↔
        (table.schema.value, table.descriptor.messageType, entityKey) =
            (table'.schema.value, table'.descriptor.messageType, entityKey') ∨
          Collide fnv64.hash
            (entityBytes table.schema.value table.descriptor.messageType entityKey)
            (entityBytes table'.schema.value table'.descriptor.messageType entityKey')) ∧
    ∀ (table : Relation) (entityKey schema : String),
      outboxEntityLockKey table entityKey = migrationLockKey schema ↔
        Collide fnv64.hash
          (entityBytes table.schema.value table.descriptor.messageType entityKey)
          (schemaBytes schema) := by
  refine ⟨?_, ?_, entityBytes_ne_schemaBytes, ?_, ?_, ?_⟩
  · intro table entityKey
    rw [outboxEntityLockKey_eq, LockSubject.toNat_key]
    rfl
  · intro schema messageType entityKey schema' messageType' entityKey' h
    rcases entityBytes_injective h with ⟨rfl, rfl, rfl⟩
    rfl
  · intro schema
    rw [migrationLockKey_eq, LockSubject.toNat_key]
    rfl
  · intro table table' entityKey entityKey'
    rw [outboxEntityLockKey_eq, outboxEntityLockKey_eq, LockSubject.key_eq_iff,
      Relation.lockSubject, Relation.lockSubject, LockSubject.entity.injEq, Prod.mk.injEq,
      Prod.mk.injEq]
    rfl
  · intro table entityKey schema
    -- An entity is never a migration, so only the collision is left.
    rw [outboxEntityLockKey_eq, migrationLockKey_eq, LockSubject.key_eq_iff, Relation.lockSubject]
    simp only [reduceCtorEq, false_or]
    rfl

end Schema
end Kafkaman
