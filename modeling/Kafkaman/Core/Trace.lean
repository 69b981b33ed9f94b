import Kafkaman.Core.Rows
import Kafkaman.Lib.SeparatedList

/-!
# Core.Trace — W3C trace context and the one door it comes in by

`fromParts` takes what two columns or two headers hold and keeps what it can forward: a `traceparent`
that parses, and beside it a `tracestate` in a canonical spelling.  What it has produced it produces
again, so a context survives every further pass through columns and headers.

* `isWellFormedTraceparent` — the first part, accepted as it is or not at all;
* `scanMembers`, `sanitizedTracestate` — the second part, rebuilt from its list members;
* `scanMembers_eq_some` — what the scan accepts and keeps;
* `fromParts_of_fromParts`, `fromParts_of_produced` — what was produced once is produced again;
* `OutboxRow.fromPg` — a row as a worker reads it.
-/

namespace Kafkaman
namespace TraceContext

open Lib SeparatedList
open Lib.Utf8 (byteLen isAsciiLowercase isAsciiDigit)

/-! ## `traceparent` -/

/-- Lowercase hex of exactly `len` digits. -/
def isHex (value : List Char) (len : Nat) : Bool :=
  byteLen value = len &&
    value.all fun c => ('0' ≤ c && c ≤ '9') || ('a' ≤ c && c ≤ 'f')

def maxAppendedFields : Nat := 12

/-- The loop over what follows the flags: nothing in version `00`, fields in a later one. -/
def acceptsAppended (version : List Char) : Nat → List (List Char) → Bool
  | _, [] => true
  | appended, field :: rest =>
      if version = ['0', '0'] || field.isEmpty || maxAppendedFields < appended + 1 then
        false
      else
        acceptsAppended version (appended + 1) rest

def isWellFormedTraceparent (value : String) : Bool :=
  match value.toList.splitOn '-' with
  | version :: traceId :: parentId :: flags :: fields =>
      if !isHex version 2 || version = ['f', 'f'] then
        false
      else
        acceptsAppended version 0 fields &&
          (isHex traceId 32 && traceId.any (· ≠ '0') && isHex parentId 16 &&
            parentId.any (· ≠ '0') && isHex flags 2)
  | _ => false

/-! ## `tracestate` -/

def maxTracestateMembers : Nat := 32

def maxTracestateValue : Nat := 256

def maxTracestateLen : Nat := 2048

/-- `str::split_once`. -/
def splitOnce (separator : Char) (value : List Char) : Option (List Char × List Char) :=
  match value.dropWhile (· ≠ separator) with
  | [] => none
  | _ :: rest => some (value.takeWhile (· ≠ separator), rest)

def isKeyByte (c : Char) : Bool :=
  isAsciiLowercase c || isAsciiDigit c || c = '_' || c = '-' || c = '*' || c = '/'

/-- One half of a key: its length, its first character and its alphabet. -/
def isKeyPart (max : Nat) (first : Char → Bool) (part : List Char) : Bool :=
  1 ≤ byteLen part && byteLen part ≤ max && part.head?.any first && part.all isKeyByte

def isTracestateKey (key : List Char) : Bool :=
  match splitOnce '@' key with
  | some (tenant, vendor) =>
      isKeyPart 241 (fun c => isAsciiLowercase c || isAsciiDigit c) tenant && isKeyPart 14 isAsciiLowercase vendor
  | none => isKeyPart 256 isAsciiLowercase key

/-- Printable ASCII without `,` and `=`. -/
def isTracestateValue (value : List Char) : Bool :=
  1 ≤ byteLen value && byteLen value ≤ maxTracestateValue &&
    value.all fun c =>
      (' ' ≤ c && c ≤ '+') || ('-' ≤ c && c ≤ '<') || ('>' ≤ c && c ≤ '~')

/-- The optional whitespace around a comma. -/
def isBlank (c : Char) : Bool :=
  c = ' ' || c = '\t'

/-- The list is cut off from the right at the ceiling. -/
def keep (members : List (List Char)) (member : List Char) : List (List Char) :=
  if members.length < maxTracestateMembers then members ++ [member] else members

/-- The loop over the list members, with the members kept and the keys seen so far. -/
def scanMembers : List (List Char) → List (List Char) → List (List Char) →
    Option (List (List Char))
  | [], members, _ => some members
  | piece :: rest, members, keys =>
      let member := trim isBlank piece
      if member.isEmpty then
        scanMembers rest members keys
      else
        match splitOnce '=' member with
        | none => none
        | some (key, entry) =>
            if !isTracestateKey key || !isTracestateValue entry then
              none
            -- A repeat past the last member that is kept still makes the list invalid.
            else if keys.contains key then
              none
            else
              scanMembers rest (keep members member) (keys ++ [key])

def sanitizedTracestate (value : String) : Option String :=
  if maxTracestateLen < byteLen value.toList then
    none
  else
    (scanMembers (value.toList.splitOn ',') [] []).bind fun members =>
      if members.isEmpty then none else some (String.ofList ([','].intercalate members))

/-- The constructor: a `tracestate` that cannot be forwarded is dropped on its own. -/
def fromParts (traceparent tracestate : Option String) : Option TraceContext :=
  traceparent.bind fun traceparent =>
    if isWellFormedTraceparent traceparent then
      some
        { traceparent := traceparent
          tracestate := tracestate.bind sanitizedTracestate }
    else
      none

/-! ## What the scan accepts -/

/-- The key of a list member that follows the grammar. -/
def memberKey (member : List Char) : Option (List Char) :=
  (splitOnce '=' member).bind fun (key, entry) =>
    if isTracestateKey key && isTracestateValue entry then some key else none

/-- Members with a key each, all of them different and none among `keys`. -/
structure Scans (members keys : List (List Char)) : Prop where
  valid : ∀ member ∈ members, (memberKey member).isSome = true
  distinct : (members.map memberKey).Nodup
  fresh : ∀ member ∈ members, ∀ key ∈ keys, memberKey member ≠ some key

theorem scans_nil (keys : List (List Char)) : Scans [] keys :=
  { valid := fun _ h => by cases h
    distinct := List.nodup_nil
    fresh := fun _ h => by cases h }

theorem scans_cons {member key : List Char} {members keys : List (List Char)}
    (hkey : memberKey member = some key) :
    Scans (member :: members) keys ↔ key ∉ keys ∧ Scans members (keys ++ [key]) := by
  constructor
  · intro h
    have hdistinct := h.distinct
    rw [List.map_cons, List.nodup_cons, hkey] at hdistinct
    refine ⟨fun hmem => h.fresh member List.mem_cons_self key hmem hkey, ?_⟩
    refine
      { valid := fun m hm => h.valid m (List.mem_cons_of_mem _ hm)
        distinct := hdistinct.2
        fresh := ?_ }
    intro m hm k hk
    -- The key is old, or it is the one just seen and no later member has it again.
    rcases List.mem_append.1 hk with hold | hnew
    · exact h.fresh m (List.mem_cons_of_mem _ hm) k hold
    · rw [List.mem_singleton.1 hnew]
      exact fun heq => hdistinct.1 (List.mem_map.2 ⟨m, hm, heq⟩)
  · rintro ⟨hnot, h⟩
    refine
      { valid := ?_
        distinct := ?_
        fresh := ?_ }
    · intro m hm
      rcases List.mem_cons.1 hm with rfl | hm
      · rw [hkey]
        rfl
      · exact h.valid m hm
    · rw [List.map_cons, List.nodup_cons, hkey]
      refine ⟨fun hmem => ?_, h.distinct⟩
      rcases List.mem_map.1 hmem with ⟨m, hm, heq⟩
      exact h.fresh m hm key (List.mem_append_right _ List.mem_cons_self) heq
    · intro m hm k hk
      rcases List.mem_cons.1 hm with rfl | hm
      · rw [hkey]
        exact fun heq => hnot (Option.some.inj heq ▸ hk)
      · exact h.fresh m hm k (List.mem_append_left _ hk)

theorem Scans.sublist {members members' keys : List (List Char)} (h : Scans members' keys)
    (hsub : members.Sublist members') : Scans members keys :=
  { valid := fun m hm => h.valid m (hsub.subset hm)
    distinct := h.distinct.sublist (hsub.map _)
    fresh := fun m hm => h.fresh m (hsub.subset hm) }

theorem scanMembers_cons {piece : List Char} {rest members keys : List (List Char)}
    (h : (trim isBlank piece).isEmpty = false) :
    scanMembers (piece :: rest) members keys =
      match memberKey (trim isBlank piece) with
      | none => none
      | some key =>
          if keys.contains key then none
          else scanMembers rest (keep members (trim isBlank piece)) (keys ++ [key]) := by
  simp only [scanMembers, h, memberKey, Bool.false_eq_true, if_false]
  cases splitOnce '=' (trim isBlank piece) with
  | none =>
      rfl
  | some parts =>
      rcases parts with ⟨key, entry⟩
      cases hkey : isTracestateKey key <;> cases hvalue : isTracestateValue entry <;>
        simp [hkey, hvalue]

theorem keep_append_take (members : List (List Char)) (member : List Char)
    (rest : List (List Char)) :
    keep members member ++ rest.take (maxTracestateMembers - (keep members member).length) =
      members ++ (member :: rest).take (maxTracestateMembers - members.length) := by
  unfold keep
  split
  · rename_i hroom
    have hplaces : maxTracestateMembers - members.length =
        maxTracestateMembers - (members ++ [member]).length + 1 := by
      rw [List.length_append, List.length_singleton]
      omega
    rw [hplaces, List.take_succ_cons, List.append_assoc]
    rfl
  · rename_i hfull
    rw [Nat.sub_eq_zero_of_le (Nat.not_lt.1 hfull)]
    rfl

/-- The scan keeps the first members up to the ceiling, if all of them pass. -/
theorem scanMembers_eq_some {pieces members keys out : List (List Char)} :
    scanMembers pieces members keys = some out ↔
      Scans (nonempty isBlank pieces) keys ∧
        out = members ++
          (nonempty isBlank pieces).take (maxTracestateMembers - members.length) := by
  induction pieces generalizing members keys with
  | nil =>
      simp [scanMembers, nonempty, scans_nil, eq_comm]
  | cons piece rest ih =>
      cases hempty : (trim isBlank piece).isEmpty with
      | true =>
          simp only [scanMembers, hempty, if_true, nonempty_cons_of_blank hempty]
          exact ih
      | false =>
          rw [nonempty_cons_of_not_blank hempty, scanMembers_cons hempty]
          cases hkey : memberKey (trim isBlank piece) with
          | none =>
              refine iff_of_false (fun h => by cases h) fun h => ?_
              have hvalid := h.1.valid _ List.mem_cons_self
              rw [hkey] at hvalid
              cases hvalid
          | some key =>
              -- A repeated key spoils the whole header; otherwise the member counts, kept or not.
              by_cases hseen : key ∈ keys
              · simp [scans_cons hkey, hseen]
              · simp only [List.contains_iff_mem, hseen, if_false, scans_cons hkey, ih,
                  keep_append_take, not_false_eq_true, true_and]

/-! ## What it has produced it produces again -/

theorem sanitizedTracestate_eq_some {value out : String} :
    sanitizedTracestate value = some out ↔
      byteLen value.toList ≤ maxTracestateLen ∧ Scans (fields ',' isBlank value.toList) [] ∧
        ((fields ',' isBlank value.toList).take maxTracestateMembers ≠ [] ∧
          out = String.ofList
            ([','].intercalate ((fields ',' isBlank value.toList).take maxTracestateMembers))) := by
  unfold sanitizedTracestate
  by_cases hlen : maxTracestateLen < byteLen value.toList
  · simp [hlen]
  · simp only [if_neg hlen, Option.bind_eq_some_iff, scanMembers_eq_some, List.nil_append,
      List.length_nil, Nat.sub_zero, Nat.not_lt.1 hlen, true_and]
    constructor
    · rintro ⟨members, ⟨hscans, rfl⟩, h⟩
      split at h
      · cases h
      · rename_i hne
        exact ⟨hscans, fun heq => hne (List.isEmpty_iff.2 heq), (Option.some.inj h).symm⟩
    · rintro ⟨hscans, hne, rfl⟩
      exact ⟨_, ⟨hscans, rfl⟩, if_neg fun heq => hne (List.isEmpty_iff.1 heq)⟩

theorem sanitizedTracestate_of_sanitizedTracestate {value out : String}
    (h : sanitizedTracestate value = some out) : sanitizedTracestate out = some out := by
  rcases sanitizedTracestate_eq_some.1 h with ⟨hlen, hscans, hne, rfl⟩
  have hsub : ((fields ',' isBlank value.toList).take maxTracestateMembers).Sublist
      (fields ',' isBlank value.toList) :=
    List.take_sublist _ _
  have hfields : fields ',' isBlank ([','].intercalate
      ((fields ',' isBlank value.toList).take maxTracestateMembers)) =
      (fields ',' isBlank value.toList).take maxTracestateMembers :=
    fields_intercalate hne fun field hfield => isField_of_mem_fields (hsub.subset hfield)
  rw [sanitizedTracestate_eq_some, String.toList_ofList, hfields, List.take_take, Nat.min_self]
  refine ⟨?_, hscans.sublist hsub, hne, rfl⟩
  exact Nat.le_trans (weight_intercalate_le hne hsub) hlen

/-- A context that was produced once is produced again from its own two parts. -/
theorem fromParts_of_fromParts {traceparent tracestate : Option String} {context : TraceContext}
    (h : fromParts traceparent tracestate = some context) :
    fromParts (some context.traceparent) context.tracestate = some context := by
  rcases Option.bind_eq_some_iff.1 h with ⟨parent, -, h⟩
  split at h
  · rename_i hwell
    cases h
    have hstate : (tracestate.bind sanitizedTracestate).bind sanitizedTracestate =
        tracestate.bind sanitizedTracestate := by
      cases hsanitized : tracestate.bind sanitizedTracestate with
      | none =>
          rfl
      | some out =>
          rcases Option.bind_eq_some_iff.1 hsanitized with ⟨state, -, hout⟩
          exact sanitizedTracestate_of_sanitizedTracestate hout
    simp only [fromParts, Option.bind_some, hwell, if_true, hstate]
  · cases h

/-- The same for a context that may be missing. -/
theorem fromParts_of_produced {context : Option TraceContext}
    (h : ∀ c ∈ context, ∃ traceparent tracestate, fromParts traceparent tracestate = some c) :
    fromParts (context.map TraceContext.traceparent) (context.bind TraceContext.tracestate) =
      context := by
  cases context with
  | none =>
      rfl
  | some c =>
      rcases h c rfl with ⟨traceparent, tracestate, hproduced⟩
      exact fromParts_of_fromParts hproduced

/-- Blanks and empty members go, a repeated key takes the whole list with it. -/
example : sanitizedTracestate " a=1 ,, t1@v=2\t" = some "a=1,t1@v=2" := by decide

example : sanitizedTracestate "a=1,b=2,a=3" = none := by decide

end TraceContext

/-- `row_from_pg`: the two trace columns come back through the constructor. -/
def OutboxRow.fromPg (row : OutboxRow) : OutboxRow :=
  { row with
    trace := TraceContext.fromParts (row.trace.map TraceContext.traceparent)
      (row.trace.bind TraceContext.tracestate) }

end Kafkaman
