import Kafkaman.Lib.Fallible
import Kafkaman.Lib.Paging
import Kafkaman.Received.Rows
import Mathlib.Algebra.GroupWithZero.Nat

/-!
# Received.DeadLetters — listing the failed rows, counting them, and redriving them

Three statements read the dead letters: the operator's listing, the count a dry run reports, and the
redrive.  Each builds its own `WHERE`, the first from a `ReceivedFailureFilter` and the other two from
a replay, and each has its own error for a failure time that cannot be written as a literal.

* `ReplaySpec.resolve` — the checks of a replay, in the order the source makes them;
* `deadLetters` — the matching rows in order, which all three statements read from the front;
* `Moves` — listed rows become pending, every other row stays;
* `dead_letters_agree` — the three select the same rows, and successive redrives take consecutive
  blocks of the listing.
-/

namespace Kafkaman
namespace Received

open Lib

/-! ## The statements -/

inductive QueryError where
  | invalidReceivedFilter (message : String)
  | invalidReplay (version : Int) (message : String)
  | sqlx (text : String)
  deriving DecidableEq, Repr

/-- An instant on its way into a statement's text: the RFC 3339 formatter, and what PostgreSQL's cast
makes of the literal. -/
structure TimestampLiterals where
  format : Instant → Except String String
  cast : String → Except String Timestamp

structure ReceivedFailureFilter where
  occurredAfter : Option Instant
  kind : Option ReceivedFailureKind

/-- A `Replay` as it is built, before any of its checks. -/
structure ReplaySpec where
  version : Int
  occurredAfter : Option Instant
  maxRows : Option Int
  failureKind : Option ReceivedFailureKind
  clearHistory : Bool

/-- A `WHERE` on failed rows: the literal the failure time is compared with, and the kind. -/
structure FailedWhere where
  since : Option String
  kind : Option ReceivedFailureKind

/-- The rows a `WHERE` on failed rows selects, its literal read. -/
def selectsFailed (since : Option Timestamp) (kind : Option ReceivedFailureKind)
    (row : ReceivedRow) : Bool :=
  row.status = .failed &&
    (match since with
      | none => true
      | some after =>
          match row.lastFailedAt with
          | none => false
          | some failedAt => after ≤ failedAt) &&
    (match kind with
      | none => true
      | some kind => row.lastFailureKind = some kind)

section Statements

variable (literals : TimestampLiterals)

/-- Format an optional bound, with the error its caller reports. -/
def formatBound (error : String → QueryError) : Option Instant → Except QueryError (Option String)
  | none => .ok none
  | some instant =>
      match literals.format instant with
      | .ok text => .ok (some text)
      | .error message => .error (error message)

/-- PostgreSQL reads the literal. -/
def castBound : Option String → Except QueryError (Option Timestamp)
  | none => .ok none
  | some text =>
      match literals.cast text with
      | .ok timestamp => .ok (some timestamp)
      | .error message => .error (.sqlx message)

/-- `received_failed_where_sql`. -/
def receivedFailedWhere (filter : ReceivedFailureFilter) : Except QueryError FailedWhere := do
  let since ← formatBound literals .invalidReceivedFilter filter.occurredAfter
  return { since := since, kind := filter.kind }

/-- `received_failed_rows`. -/
def receivedFailedRows (filter : ReceivedFailureFilter) (limit : Int) (t : ReceivedTable) :
    Except QueryError (List ReceivedRow) := do
  let sql ← receivedFailedWhere literals filter
  let since ← castBound literals sql.since
  return orderByLimit failureOrder (max limit 0).toNat (t.rows.filter (selectsFailed since sql.kind))

/-- `max_rows_or_error`. -/
def ReplaySpec.maxRowsOrError (spec : ReplaySpec) : Except QueryError Int :=
  match spec.maxRows with
  | some maxRows =>
      if 0 < maxRows then
        .ok maxRows
      else
        .error (.invalidReplay spec.version "max_rows must be greater than zero")
  | none => .error (.invalidReplay spec.version "max_rows is required")

/-- `replay_received_filter_sql`. -/
def ReplaySpec.filter (spec : ReplaySpec) : Except QueryError FailedWhere := do
  let since ← formatBound literals (.invalidReplay spec.version) spec.occurredAfter
  return { since := since, kind := spec.failureKind }

/-- A replay as its statement runs: bound, filter, and then the literal. -/
def ReplaySpec.resolve (spec : ReplaySpec) : Except QueryError Replay := do
  let maxRows ← spec.maxRowsOrError
  let sql ← spec.filter literals
  let since ← castBound literals sql.since
  return {
    occurredAfter := since
    maxRows := maxRows.toNat
    failureKind := sql.kind
    clearHistory := spec.clearHistory }

/-- `estimate_replay_count`. -/
def estimateReplayCount (spec : ReplaySpec) (t : ReceivedTable) : Except QueryError Nat := do
  let replay ← spec.resolve literals
  return (orderByLimit failureOrder replay.maxRows (t.rows.filter (replayFilter replay))).length

/-- Rows of which no other transaction holds one. -/
def unlocked : Uuid → Bool := fun _ => false

/-- `redrive_received` with nobody else writing: the table afterwards, and `rows_affected`. -/
def redriveReceived (spec : ReplaySpec) (t : ReceivedTable) :
    Except QueryError (ReceivedTable × Nat) := do
  let replay ← spec.resolve literals
  return (redrive replay unlocked t,
    t.toTable.rowsAffected fun r =>
      (redriveCandidates replay unlocked t).any (fun c => c.messageId = r.messageId) &&
        replayFilter replay r)

end Statements

/-! ## The dead letters, in order -/

/-- The failed rows a bound and a kind select, oldest failure first. -/
def deadLetters (since : Option Timestamp) (kind : Option ReceivedFailureKind)
    (t : ReceivedTable) : List ReceivedRow :=
  ordered failureOrder (t.rows.filter (selectsFailed since kind))

theorem replayFilter_eq (replay : Replay) :
    replayFilter replay = selectsFailed replay.occurredAfter replay.failureKind :=
  rfl

theorem nodup_rows (t : ReceivedTable) : t.rows.Nodup :=
  List.Nodup.of_map _ t.primaryKey

theorem failureOrder_injective {t : ReceivedTable} {a b : ReceivedRow} (ha : a ∈ t) (hb : b ∈ t)
    (h : failureOrder a = failureOrder b) : a = b := by
  have hid : a.messageId.toNat = b.messageId.toNat :=
    congrArg (fun key => (ofLex (ofLex (ofLex key).2).2).2) h
  exact ReceivedTable.eq_of_messageId_eq ha hb (BitVec.eq_of_toNat_eq hid)

section Order

variable {since : Option Timestamp} {kind : Option ReceivedFailureKind} {t : ReceivedTable}

theorem mem_deadLetters {r : ReceivedRow} :
    r ∈ deadLetters since kind t ↔ r ∈ t ∧ selectsFailed since kind r = true := by
  rw [deadLetters, mem_ordered, List.mem_filter]
  exact Iff.rfl

theorem nodup_deadLetters : (deadLetters since kind t).Nodup :=
  (ordered_perm _).nodup_iff.2 ((nodup_rows t).filter _)

end Order

/-! ## One redrive -/

/-- Exactly the listed rows become pending; every other row is as it was. -/
structure Moves (clearHistory : Bool) (listing : List ReceivedRow) (t t' : ReceivedTable) :
    Prop where
  rows : ∃ listed : ReceivedRow → Bool,
    (∀ r ∈ t, listed r = true ↔ r ∈ listing) ∧
      t'.rows = t.rows.map fun r => if listed r then redrivenRow clearHistory r else r
  listed : ∀ r ∈ listing, r ∈ t ∧ r.status = .failed ∧
    (redrivenRow clearHistory r).status = .pending

section Redrive

variable {replay : Replay} {t : ReceivedTable}

theorem redriveCandidates_unlocked :
    redriveCandidates replay unlocked t =
      (deadLetters replay.occurredAfter replay.failureKind t).take replay.maxRows := by
  have hfilter : (fun r => replayFilter replay r && !unlocked r.messageId) =
      selectsFailed replay.occurredAfter replay.failureKind := by
    funext r
    simp [unlocked, replayFilter_eq]
  rw [redriveCandidates, hfilter, orderByLimit_eq_take, deadLetters]

/-- `WHERE` of the redrive: the row is a candidate. -/
theorem redriven_iff {r : ReceivedRow} (hr : r ∈ t) :
    ((redriveCandidates replay unlocked t).any (fun c => c.messageId = r.messageId) &&
        replayFilter replay r) = true ↔
      r ∈ (deadLetters replay.occurredAfter replay.failureKind t).take replay.maxRows := by
  rw [redriveCandidates_unlocked, replayFilter_eq, Bool.and_eq_true, List.any_eq_true]
  constructor
  · rintro ⟨⟨c, hc, hid⟩, _⟩
    have hmem := (mem_deadLetters.1 (List.mem_of_mem_take hc)).1
    have heq : c = r := ReceivedTable.eq_of_messageId_eq hmem hr (by simpa using hid)
    exact heq ▸ hc
  · intro h
    exact ⟨⟨r, h, by simp⟩, (mem_deadLetters.1 (List.mem_of_mem_take h)).2⟩

theorem moves_redrive :
    Moves replay.clearHistory
      ((deadLetters replay.occurredAfter replay.failureKind t).take replay.maxRows) t
      (redrive replay unlocked t) := by
  refine
    { rows := ⟨_, fun r hr => redriven_iff hr, rfl⟩
      listed := ?_ }
  intro r hr
  rcases mem_deadLetters.1 (List.mem_of_mem_take hr) with ⟨hmem, hfailed⟩
  refine ⟨hmem, ?_, rfl⟩
  simp only [selectsFailed, Bool.and_eq_true, decide_eq_true_eq] at hfailed
  exact hfailed.1.1

theorem rowsAffected_redrive :
    (t.toTable.rowsAffected fun r =>
      (redriveCandidates replay unlocked t).any (fun c => c.messageId = r.messageId) &&
        replayFilter replay r) =
      ((deadLetters replay.occurredAfter replay.failureKind t).take replay.maxRows).length := by
  have hnodup : ((deadLetters replay.occurredAfter replay.failureKind t).take
      replay.maxRows).Nodup := nodup_deadLetters.sublist (List.take_sublist _ _)
  refine List.Perm.length_eq ((List.perm_ext_iff_of_nodup ((nodup_rows t).filter _) hnodup).2 ?_)
  intro r
  rw [List.mem_filter]
  constructor
  · rintro ⟨hr, hwhere⟩
    exact (redriven_iff hr).1 hwhere
  · intro h
    have hr : r ∈ t := (mem_deadLetters.1 (List.mem_of_mem_take h)).1
    exact ⟨hr, (redriven_iff hr).2 h⟩

/-- A redriven row is pending, so it no longer matches. -/
theorem filter_failed_redriven (since : Option Timestamp) (kind : Option ReceivedFailureKind)
    (clearHistory : Bool) (redriven : ReceivedRow → Bool) (rows : List ReceivedRow) :
    (rows.map fun r => if redriven r then redrivenRow clearHistory r else r).filter
        (selectsFailed since kind) =
      (rows.filter (selectsFailed since kind)).filter fun r => !redriven r := by
  induction rows with
  | nil =>
      rfl
  | cons r rows ih =>
      have hpending : selectsFailed since kind (redrivenRow clearHistory r) = false := by
        simp [selectsFailed, redrivenRow]
      cases hr : redriven r <;> cases hfailed : selectsFailed since kind r <;>
        simp [hr, hfailed, hpending, ih]

theorem deadLetters_redrive :
    deadLetters replay.occurredAfter replay.failureKind (redrive replay unlocked t) =
      (deadLetters replay.occurredAfter replay.failureKind t).drop replay.maxRows := by
  have hrest : (redrive replay unlocked t).rows.filter
        (selectsFailed replay.occurredAfter replay.failureKind) =
      (t.rows.filter (selectsFailed replay.occurredAfter replay.failureKind)).filter fun r =>
        !((redriveCandidates replay unlocked t).any (fun c => c.messageId = r.messageId) &&
          replayFilter replay r) :=
    filter_failed_redriven _ _ _ _ _
  rw [deadLetters, hrest]
  refine ordered_filter_not_page ((nodup_rows t).filter _) ?_ replay.maxRows _ ?_
  · intro a ha b hb
    exact failureOrder_injective (List.mem_of_mem_filter ha) (List.mem_of_mem_filter hb)
  · intro r hr
    exact redriven_iff (List.mem_of_mem_filter hr)

end Redrive

/-! ## The three statements, and redrive after redrive -/

/-- The bound as the statements use it, if it can be written and read. -/
def TimestampLiterals.bound (literals : TimestampLiterals) :
    Option Instant → Option (Option Timestamp)
  | none => some none
  | some instant =>
      (literals.format instant).toOption.bind fun text =>
        (literals.cast text).toOption.map some

/-- The filter of the listing that goes with a replay. -/
def ReplaySpec.failureFilter (spec : ReplaySpec) : ReceivedFailureFilter :=
  { occurredAfter := spec.occurredAfter
    kind := spec.failureKind }

def ReplaySpec.withMaxRows (spec : ReplaySpec) (maxRows : Int) : ReplaySpec :=
  { spec with maxRows := some maxRows }

section Agreement

variable (literals : TimestampLiterals)

/-- Redrives one after the other, each with its own limit. -/
def redriveEach (spec : ReplaySpec) :
    List Int → ReceivedTable → Except QueryError (ReceivedTable × List Nat)
  | [], t => .ok (t, [])
  | limit :: limits, t => do
      let (t', moved) ← redriveReceived literals (spec.withMaxRows limit) t
      let (t'', rest) ← redriveEach spec limits t'
      return (t'', moved :: rest)

variable {literals} {spec : ReplaySpec} {since : Option Timestamp} {limit : Int}

/-- A bound that both steps take is the one every statement compares with, whatever error its
builder would have reported. -/
theorem bound_eq_some (error : String → QueryError) {after : Option Instant} :
    literals.bound after = some since ↔
      ∃ text, formatBound literals error after = .ok text ∧
        castBound literals text = .ok since := by
  cases after with
  | none =>
      simp [TimestampLiterals.bound, formatBound, castBound]
  | some instant =>
      cases hformat : literals.format instant with
      | error message =>
          simp [TimestampLiterals.bound, formatBound, hformat, Except.toOption]
      | ok text =>
          cases hcast : literals.cast text <;>
            simp [TimestampLiterals.bound, formatBound, castBound, hformat, hcast,
              Except.toOption]

theorem receivedFailedRows_eq_ok {t : ReceivedTable} {listing : List ReceivedRow} :
    receivedFailedRows literals spec.failureFilter limit t = .ok listing ↔
      ∃ since, literals.bound spec.occurredAfter = some since ∧
        listing = (deadLetters since spec.failureKind t).take (max limit 0).toNat := by
  simp only [receivedFailedRows, receivedFailedWhere, ReplaySpec.failureFilter, bind_eq_ok,
    pure_eq_ok, bound_eq_some .invalidReceivedFilter]
  constructor
  · rintro ⟨_, ⟨text, hformat, rfl⟩, since, hcast, rfl⟩
    exact ⟨since, ⟨text, hformat, hcast⟩, rfl⟩
  · rintro ⟨since, ⟨text, hformat, hcast⟩, rfl⟩
    exact ⟨_, ⟨text, hformat, rfl⟩, since, hcast, rfl⟩

theorem resolve_withMaxRows_eq_ok {replay : Replay} (hlimit : 0 < limit) :
    (spec.withMaxRows limit).resolve literals = .ok replay ↔
      ∃ since, literals.bound spec.occurredAfter = some since ∧
        replay =
          { occurredAfter := since
            maxRows := limit.toNat
            failureKind := spec.failureKind
            clearHistory := spec.clearHistory } := by
  have hmax : (spec.withMaxRows limit).maxRowsOrError = .ok limit := by
    simp [ReplaySpec.maxRowsOrError, ReplaySpec.withMaxRows, hlimit]
  simp only [ReplaySpec.resolve, ReplaySpec.filter, hmax, bind_eq_ok, pure_eq_ok,
    bound_eq_some (.invalidReplay spec.version)]
  constructor
  · rintro ⟨_, hlimit', _, ⟨text, hformat, rfl⟩, since, hcast, rfl⟩
    cases hlimit'
    exact ⟨since, ⟨text, hformat, hcast⟩, rfl⟩
  · rintro ⟨since, ⟨text, hformat, hcast⟩, rfl⟩
    exact ⟨limit, rfl, _, ⟨text, hformat, rfl⟩, since, hcast, rfl⟩

theorem redriveReceived_of_bound (hbound : literals.bound spec.occurredAfter = some since)
    (hlimit : 0 < limit) (t : ReceivedTable) :
    ∃ t', redriveReceived literals (spec.withMaxRows limit) t =
        .ok (t', ((deadLetters since spec.failureKind t).take limit.toNat).length) ∧
      Moves spec.clearHistory ((deadLetters since spec.failureKind t).take limit.toNat) t t' ∧
      deadLetters since spec.failureKind t' =
        (deadLetters since spec.failureKind t).drop limit.toNat := by
  let replay : Replay :=
    { occurredAfter := since
      maxRows := limit.toNat
      failureKind := spec.failureKind
      clearHistory := spec.clearHistory }
  have hresolve : (spec.withMaxRows limit).resolve literals = .ok replay :=
    (resolve_withMaxRows_eq_ok hlimit).2 ⟨since, hbound, rfl⟩
  refine ⟨redrive replay unlocked t, ?_, @moves_redrive replay t, @deadLetters_redrive replay t⟩
  simp only [redriveReceived, bind_eq_ok, pure_eq_ok, rowsAffected_redrive]
  exact ⟨_, hresolve, rfl⟩

theorem redriveEach_of_bound (hbound : literals.bound spec.occurredAfter = some since)
    {limits : List Int} (hlimits : ∀ limit ∈ limits, 0 < limit) (t : ReceivedTable) :
    ∃ t' moved, redriveEach literals spec limits t = .ok (t', moved) ∧
      deadLetters since spec.failureKind t' =
        (deadLetters since spec.failureKind t).drop (limits.map Int.toNat).sum := by
  induction limits generalizing t with
  | nil =>
      exact ⟨t, [], rfl, by simp⟩
  | cons limit limits ih =>
      rcases redriveReceived_of_bound hbound (hlimits limit List.mem_cons_self) t with
        ⟨t', hredrive, _, hrest⟩
      rcases ih (fun l hl => hlimits l (List.mem_cons_of_mem _ hl)) t' with
        ⟨t'', moved, heach, hafter⟩
      refine ⟨t'', ((deadLetters since spec.failureKind t).take limit.toNat).length :: moved,
        ?_, ?_⟩
      · simp only [redriveEach, bind_eq_ok, pure_eq_ok]
        exact ⟨_, hredrive, _, heach, rfl⟩
      · rw [hafter, hrest, List.drop_drop, List.map_cons, List.sum_cons]

/-- **Listing, dry-run count and redrive agree.**  With nobody else writing, a listing of `limit` rows
has as many rows as the estimate says and the redrive moves, and it is exactly those rows that become
pending.  After any redrives, the next one moves the next block of the listing they started from.
A bound that cannot be written as a literal, or not be read, fails all three alike. -/
theorem dead_letters_agree (literals : TimestampLiterals) (t : ReceivedTable) (spec : ReplaySpec)
    (limit : Int) (hlimit : 0 < limit) (limits : List Int)
    (hlimits : ∀ limit ∈ limits, 0 < limit) :
    match literals.bound spec.occurredAfter with
    | some since =>
        (∃ listing t',
          receivedFailedRows literals spec.failureFilter limit t = .ok listing ∧
            estimateReplayCount literals (spec.withMaxRows limit) t = .ok listing.length ∧
            redriveReceived literals (spec.withMaxRows limit) t = .ok (t', listing.length) ∧
            Moves spec.clearHistory listing t t') ∧
        (deadLetters since spec.failureKind t).Nodup ∧
        ∃ t' moved t'', redriveEach literals spec limits t = .ok (t', moved) ∧
          receivedFailedRows literals spec.failureFilter limit t' =
            .ok (((deadLetters since spec.failureKind t).drop
              (limits.map Int.toNat).sum).take limit.toNat) ∧
          redriveReceived literals (spec.withMaxRows limit) t' =
            .ok (t'', (((deadLetters since spec.failureKind t).drop
              (limits.map Int.toNat).sum).take limit.toNat).length) ∧
          Moves spec.clearHistory
            (((deadLetters since spec.failureKind t).drop
              (limits.map Int.toNat).sum).take limit.toNat) t' t''
    | none =>
        (∀ listing, receivedFailedRows literals spec.failureFilter limit t ≠ .ok listing) ∧
          (∀ count, estimateReplayCount literals (spec.withMaxRows limit) t ≠ .ok count) ∧
          ∀ moved, redriveReceived literals (spec.withMaxRows limit) t ≠ .ok moved := by
  have hmax : (max limit 0).toNat = limit.toNat := by omega
  cases hbound : literals.bound spec.occurredAfter with
  | some since =>
      -- All three read the same selection; only what they do with it differs.
      have hlisting : ∀ t, receivedFailedRows literals spec.failureFilter limit t =
          .ok ((deadLetters since spec.failureKind t).take limit.toNat) :=
        fun t => receivedFailedRows_eq_ok.2 ⟨since, hbound, by rw [hmax]⟩
      have hestimate : estimateReplayCount literals (spec.withMaxRows limit) t =
          .ok ((deadLetters since spec.failureKind t).take limit.toNat).length := by
        simp only [estimateReplayCount, bind_eq_ok, pure_eq_ok]
        exact ⟨_, (resolve_withMaxRows_eq_ok hlimit).2 ⟨since, hbound, rfl⟩, rfl⟩
      refine ⟨?_, nodup_deadLetters, ?_⟩
      · rcases redriveReceived_of_bound hbound hlimit t with ⟨t', hredrive, hmoves, _⟩
        exact ⟨_, t', hlisting t, hestimate, hredrive, hmoves⟩
      · rcases redriveEach_of_bound hbound hlimits t with ⟨t', moved, heach, hrest⟩
        rcases redriveReceived_of_bound hbound hlimit t' with ⟨t'', hredrive, hmoves, _⟩
        rw [hrest] at hredrive hmoves
        exact ⟨t', moved, t'', heach, by rw [hlisting, hrest], hredrive, hmoves⟩
  | none =>
      have hresolve : ∀ replay, (spec.withMaxRows limit).resolve literals ≠ .ok replay := by
        intro replay h
        rcases (resolve_withMaxRows_eq_ok hlimit).1 h with ⟨since, hsome, _⟩
        cases hbound.symm.trans hsome
      refine ⟨?_, ?_, ?_⟩
      · intro listing h
        rcases receivedFailedRows_eq_ok.1 h with ⟨since, hsome, _⟩
        cases hbound.symm.trans hsome
      · intro count h
        rcases bind_eq_ok.1 h with ⟨replay, hok, _⟩
        exact hresolve replay hok
      · intro moved h
        rcases bind_eq_ok.1 h with ⟨replay, hok, _⟩
        exact hresolve replay hok

/-- Two dead letters of one failure time, the younger row first in the table. -/
def failedText (id : Uuid) (createdAt : Timestamp) : ReceivedRow :=
  { messageId := id
    idempotencyKey := IdempotencyKey.ofByte (UInt8.ofNat id.toNat)
    idempotencySource := none
    entityKey := none
    status := .failed
    attempts := 10
    nextAttemptAt := none
    errors := []
    lastFailedAt := some 50
    lastFailureKind := some .handler
    sourceTopic := "texts"
    sourcePartition := 0
    sourceOffset := 0
    key := none
    messageType := "text"
    messageVersion := 1
    headers := SortedMap.empty
    payload := .string "x"
    correlationId := none
    causationId := none
    trace := none
    occurredAt := 0
    createdAt := createdAt
    processedAt := none }

def twoDeadLetters : ReceivedTable :=
  { rows := [failedText 1 20, failedText 2 10]
    primaryKey := by decide
    dedupe := by decide }

/-- Microseconds written out and read back. -/
def plainLiterals : TimestampLiterals :=
  { format := fun instant => .ok (toString instant.timestamptz)
    cast := fun text => (text.toInt?).elim (.error "invalid input syntax") .ok }

theorem dead_letters_agree_two :
    ∃ listing t',
      receivedFailedRows plainLiterals { occurredAfter := none, kind := some .handler } 1
          twoDeadLetters = .ok listing ∧
        redriveReceived plainLiterals
          { version := 0
            occurredAfter := none
            maxRows := some 1
            failureKind := some .handler
            clearHistory := false } twoDeadLetters = .ok (t', listing.length) ∧
        listing.map ReceivedRow.messageId = [2] := by
  have hagree := dead_letters_agree plainLiterals twoDeadLetters
    { version := 0
      occurredAfter := none
      maxRows := none
      failureKind := some .handler
      clearHistory := false } 1 (by decide) [] (by decide)
  rcases hagree.1 with ⟨listing, t', hlisting, _, hredrive, _⟩
  refine ⟨listing, t', hlisting, hredrive, ?_⟩
  have hfirst : ((receivedFailedRows plainLiterals
      { occurredAfter := none, kind := some .handler } 1 twoDeadLetters).toOption.map
        fun rows => rows.map ReceivedRow.messageId) = some [2] := by decide +kernel
  change (receivedFailedRows plainLiterals { occurredAfter := none, kind := some .handler } 1
    twoDeadLetters) = .ok listing at hlisting
  rw [hlisting] at hfirst
  exact Option.some.inj hfirst

end Agreement

end Received
end Kafkaman
