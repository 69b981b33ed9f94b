import Kafkaman.Lib.SortedMap
import Mathlib.Data.BitVec

/-!
# Core.Basic — identifiers, statuses and the vocabulary rows are written in

The value types shared by the outbox, the receive side and the broker boundary.  Statuses and
failure classes are enumerations, as in the source; the strings persisted for them are never
inspected by the operations modelled here.
-/

namespace Kafkaman

open Lib

/-! ## Scalars -/

abbrev Uuid : Type := BitVec 128

instance Uuid.lawfulBEq : LawfulBEq Uuid := inferInstance

/-- An instant in microseconds, the precision of `timestamptz`. -/
abbrev Timestamp : Type := Int

/-- A duration in microseconds, as added to `now()` through `make_interval`. -/
abbrev Micros : Type := Nat

/-- `OffsetDateTime`: an instant in nanoseconds. -/
abbrev Instant : Type := Int

/-- `Duration`, in nanoseconds. -/
abbrev Nanos : Type := Nat

/-- An instant as it is bound to a statement: the fraction of a microsecond is cut off, on the side
of the epoch. -/
def Instant.timestamptz (instant : Instant) : Timestamp :=
  Int.tdiv instant 1000

abbrev Bytes : Type := List UInt8

/-- `BTreeMap<String, String>`. -/
abbrev HeaderMap : Type := SortedMap String String

/-- `serde_json::Value`; object members keep the order they were written in. -/
inductive Json where
  | null
  | bool (b : Bool)
  | number (text : String)
  | string (s : String)
  | array (items : List Json)
  | object (members : List (String × Json))

instance : Inhabited Json := ⟨.null⟩

/-- What a call into application-owned code came to, with unwinding as an ordinary outcome. -/
inductive AppCall (α : Type) where
  | returned (value : α)
  | panicked (message : String)

/-! ## Outbox vocabulary -/

inductive OutboxStatus
  | pending
  | publishing
  | published
  | superseded
  | failed
  deriving DecidableEq, Repr

/-- No worker acts again on a row in such a status. -/
def OutboxStatus.isTerminal : OutboxStatus → Bool
  | .published | .superseded | .failed => true
  | .pending | .publishing => false

/-- Whether a mark took effect, and if not, why. -/
inductive MarkOutcome
  | updated
  | staleClaim
  | missing
  deriving DecidableEq, Repr

/-! ## Receive vocabulary -/

inductive ReceiveStatus
  | pending
  | processed
  | retryable
  | failed
  deriving DecidableEq, Repr

inductive ReceivedFailureKind
  | missingHandler
  | invalidPayload
  | infrastructure
  | handler
  deriving DecidableEq, Repr

def ReceivedFailureKind.title : ReceivedFailureKind → String
  | .missingHandler => "No handler registered for message type"
  | .invalidPayload => "Message payload could not be decoded"
  | .infrastructure => "Infrastructure failure during dispatch"
  | .handler => "Handler returned an error"

/-- Which part of a dispatch produced a failure. -/
inductive FailureStage
  | routing
  | handler
  | bookkeeping
  deriving DecidableEq, Repr

/-- Why a record could not become a received row at all. -/
inductive ReceivedIngestFailureKind
  | missingPayload
  | missingIdempotencyKey
  | invalidPayload
  | invalidHeader
  | unexpectedTopic
  | messageIdConflict
  deriving DecidableEq, Repr

/-- What an insert into a received table did. -/
inductive ReceivedInsertOutcome
  | inserted
  | duplicateIdempotencyKey
  | messageIdConflict
  deriving DecidableEq, Repr

/-! ## Reserved headers -/

/-- `str::to_ascii_lowercase`. -/
def asciiLower (s : String) : String :=
  String.ofList (s.toList.map Char.toLower)

theorem asciiLower_asciiLower (s : String) : asciiLower (asciiLower s) = asciiLower s := by
  have hchar : ∀ c : Char, c.toLower.toLower = c.toLower := by
    intro c
    unfold Char.toLower
    split
    · rename_i hupper
      -- An upper-case letter moves up by 32, past the last of them.
      rw [dif_neg]
      simp only [ge_iff_le, UInt32.le_iff_toNat_le, UInt32.toNat_add, UInt32.toNat_sub] at hupper ⊢
      have ha : 'a'.val.toNat = 97 := rfl
      have hA : 'A'.val.toNat = 65 := rfl
      have hZ : 'Z'.val.toNat = 90 := rfl
      omega
    · rfl
  rw [asciiLower, asciiLower, String.toList_ofList, List.map_map]
  exact congrArg String.ofList (List.map_congr_left fun c _ => hchar c)

def reservedHeaderNamespace : String := "kafkaman-"

/-- Whether a header key lies in the reserved namespace, in any letter case. -/
def isReservedHeader (key : String) : Bool :=
  reservedHeaderNamespace.toList.isPrefixOf (asciiLower key).toList

/-- `reserved_header`: the first key of the map that intrudes on the reserved namespace. -/
def reservedHeader (headers : HeaderMap) : Option String :=
  headers.keys.find? isReservedHeader

theorem not_reserved_of_reservedHeader {headers : HeaderMap}
    (h : reservedHeader headers = none) {key : String} (hkey : key ∈ headers.keys) :
    ¬ isReservedHeader key = true :=
  List.find?_eq_none.1 h key hkey

end Kafkaman
