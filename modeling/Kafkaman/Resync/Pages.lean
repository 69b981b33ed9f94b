import Kafkaman.Lib.Keyset
import Kafkaman.Outbox.System
import Kafkaman.Resync.System
import Mathlib.Data.String.Basic

/-!
# Resync.Pages — the keys a resync goes through

The loop of `resync` on its own: it asks the application for a page of keys, checks the page, and
runs one transaction a key until a page is empty or something fails.  The page source is stateful
and may answer anything; so may everything a key's transaction depends on, from the connection to
the loader.

* `resyncKey`, `resyncKeys`, `resyncLoop` — one transaction, one page, the loop;
* `Repaired`, `RepairedAll` — the rows one key's commit leaves in the outbox, and those of a list;
* `KeyOutcome` — what one transaction leaves behind;
* `RunEnds` — how a run over well-served keys ends, in terms of one list of keys without pages;
* `resync_pages_exact` — which keys are repaired, for every batch size, error and page source.

A `COMMIT` that answers with an error may have taken effect all the same.
-/

namespace Kafkaman
namespace Resync

open Lib Outbox

/-! ## One key -/

/-- `ResyncOptions`, without the pause. -/
structure ResyncOptions where
  batchSize : Nat
  /-- `NonZeroUsize`. -/
  batchSize_pos : 0 < batchSize
  startAfter : Option String

/-- What the connection and the application answer in one key's transaction. -/
structure Attempt (P : Type) where
  /-- `BEGIN`, the isolation level and the entity's lock. -/
  opened : Except Error Unit
  loaded : Except Error (Option (Envelope P))
  trace : Option TraceContext
  now : Timestamp
  /-- A statement of the enqueue that fails for a reason of its own. -/
  enqueued : Except Error Unit
  committed : Except Error Unit
  /-- Whether a `COMMIT` that answered with an error took effect. -/
  lands : Bool

/-- The outbox and the run on it.  `visited` are the keys whose transactions were begun, `committed`
those whose `COMMIT` was answered, `reports` what the progress callback was called with. -/
structure Repairs (σ : Type) where
  table : OutboxTable
  sequence : Nat
  /-- What the answers of connection and application depend on. -/
  environment : σ
  progress : ResyncProgress
  visited : List String
  committed : List String
  reports : List ResyncProgress

/-- A run that has asked for no page yet. -/
def Repairs.start {σ : Type} (table : OutboxTable) (sequence : Nat) (environment : σ)
    (startAfter : Option String) : Repairs σ :=
  { table := table
    sequence := sequence
    environment := environment
    progress := (ResyncRun.start 0 startAfter).progress
    visited := []
    committed := []
    reports := [] }

/-- Nothing is visited, committed or counted. -/
def Repairs.Fresh {σ : Type} (s : Repairs σ) : Prop :=
  s.visited = [] ∧ s.committed = [] ∧ s.progress.enqueued = 0

/-- The run when a key's transaction begins. -/
def Repairs.visit {σ : Type} (s : Repairs σ) (environment : σ) (key : String) : Repairs σ :=
  { s with
    environment := environment
    visited := s.visited ++ [key] }

section Keys

variable {σ P : Type} (message : KafkaMessage P) (descriptor : MessageDescriptor)
  (attempt : σ → String → σ × Attempt P)

/-- `tx.commit()` and what follows it. -/
def commitKey (s : Repairs σ) (key : String) (answer : Attempt P) (table : OutboxTable)
    (enqueued : Bool) : Repairs σ × Except ResyncError Unit :=
  match answer.committed with
  | .error error =>
      ({ s with table := if answer.lands then table else s.table }, .error (.storage error))
  | .ok () =>
      let progress := s.progress.advance key enqueued
      ({ s with
          table := table
          progress := progress
          committed := s.committed ++ [key]
          reports := s.reports ++ [progress] }, .ok ())

/-- The body of `for key in batch`.  Whatever returns early drops the transaction. -/
def resyncKey (s : Repairs σ) (key : String) : Repairs σ × Except ResyncError Unit :=
  let answer := (attempt s.environment key).2
  let s := s.visit (attempt s.environment key).1 key
  match answer.opened with
  | .error error => (s, .error (.storage error))
  | .ok () =>
      match answer.loaded with
      | .error error => (s, .error (.storage error))
      | .ok none => commitKey s key answer s.table false
      | .ok (some evt) =>
          match repairRequest message descriptor key evt answer.trace with
          | .error error => (s, .error error)
          | .ok insert =>
              match answer.enqueued with
              | .error error => (s, .error (.storage error))
              | .ok () =>
                  -- A number drawn from the sequence is gone, whatever becomes of the row.
                  let s' := { s with sequence := s.sequence + 1 }
                  match enqueueInner (fun _ => true) answer.now s.sequence insert s.table with
                  | (_, .error error) => (s', .error (.storage error))
                  | (table, .ok ()) => commitKey s' key answer table true

/-- `for key in batch`. -/
def resyncKeys : Repairs σ → List String → Repairs σ × Except ResyncError Unit
  | s, [] => (s, .ok ())
  | s, key :: rest =>
      match resyncKey message descriptor attempt s key with
      | (s', .error error) => (s', .error error)
      | (s', .ok ()) => resyncKeys s' rest

/-! ## The loop -/

/-- A page as it was served, and the run at that moment. -/
structure Page (σ : Type) where
  before : Repairs σ
  batch : List String

/-- A run that has ended; without a result it is still going on. -/
structure ResyncEnded (σ : Type) where
  state : Repairs σ
  /-- The pages the key callback returned, oldest first. -/
  pages : List (Page σ)
  result : Option (Except ResyncError ResyncProgress)

def invalidPage : ResyncError :=
  .invalidResync "keys must be strictly increasing, after the cursor, and within batch_size"

/-- The loop as the statement-level model has it between two transactions. -/
def Repairs.paging (options : ResyncOptions) (s : Repairs σ) : ResyncRun :=
  { batchSize := options.batchSize
    progress := s.progress
    pending := [] }

variable {κ : Type} (keys : κ → Option String → Nat → κ × Except Error (List String))
  (options : ResyncOptions)

/-- The loop of `resync`, for at most `fuel` pages.  A connection that cannot be acquired is an
error of `keys`. -/
def resyncLoop : Nat → κ → Repairs σ → ResyncEnded σ
  | 0, _, s =>
      { state := s
        pages := []
        result := none }
  | fuel + 1, source, s =>
      let answer := keys source s.progress.lastKey options.batchSize
      match answer.2 with
      | .error error =>
          { state := s
            pages := []
            result := some (.error (.storage error)) }
      | .ok batch =>
          let page : Page σ :=
            { before := s
              batch := batch }
          -- An empty page is how the callback says that no key is left.
          if batch.isEmpty then
            { state := s
              pages := [page]
              result := some (.ok s.progress) }
          else if (s.paging options).accepts batch then
            match resyncKeys message descriptor attempt s batch with
            | (s', .error error) =>
                { state := s'
                  pages := [page]
                  result := some (.error error) }
            | (s', .ok ()) =>
                let rest := resyncLoop fuel answer.1 s'
                { rest with pages := page :: rest.pages }
          -- The whole page is refused before its first key is visited.
          else
            { state := s
              pages := [page]
              result := some (.error invalidPage) }

/-- `resync`. -/
def resync (fuel : Nat) (source : κ) (table : OutboxTable) (sequence : Nat) (environment : σ) :
    ResyncEnded σ :=
  resyncLoop message descriptor attempt keys options fuel source
    (Repairs.start table sequence environment options.startAfter)

end Keys

/-! ## What one key's transaction leaves behind -/

section Outcomes

variable {σ P : Type} {message : KafkaMessage P} {descriptor : MessageDescriptor}
  {attempt : σ → String → σ × Attempt P}

section Rows

variable (message attempt)

/-- The outbox after a key's commit: as it was if nothing was loaded, else with the loaded state in a
new pending row of the key, which supersedes the pending rows of the key. -/
inductive Repaired (key : String) (t t' : OutboxTable) : Option (Envelope P) → Prop
  | skipped (h : t' = t) : Repaired key t t' none
  | enqueued (evt : Envelope P) (row : OutboxRow) (hkey : row.entityKey = some key)
      (hid : row.messageId = evt.messageId) (hstatus : row.status = .pending)
      (hpayload : message.toValue evt.payload = .returned (.ok row.payload))
      (hrows : ∀ r, r ∈ t' ↔
        (∃ r₀ ∈ t, (if supersedes (fun _ => true) key r₀ then supersedeRow r₀ else r₀) = r) ∨
          r = row) :
      Repaired key t t' (some evt)

/-- The outbox after the commits of a list of keys, with the number of rows enqueued. -/
inductive RepairedAll : σ → List String → OutboxTable → OutboxTable → Nat → Prop
  | nil (environment : σ) (t : OutboxTable) : RepairedAll environment [] t t 0
  | cons {environment : σ} {key : String} {rest : List String} {t t₁ t' : OutboxTable} {n : Nat}
      {loaded : Option (Envelope P)} (hloaded : (attempt environment key).2.loaded = .ok loaded)
      (hrepaired : Repaired message key t t₁ loaded)
      (hrest : RepairedAll (attempt environment key).1 rest t₁ t' n) :
      RepairedAll environment (key :: rest) t t' ((if loaded.isSome then 1 else 0) + n)

/-- What the answers depend on after the transactions of a list of keys. -/
def environmentAfter (environment : σ) (keys : List String) : σ :=
  keys.foldl (fun environment key => (attempt environment key).1) environment

/-- A key's transaction that committed without an answer. -/
def Unanswered (environment : σ) (key : String) (t t' : OutboxTable) : Prop :=
  ∃ loaded error, (attempt environment key).2.loaded = .ok loaded ∧
    (attempt environment key).2.committed = .error error ∧ Repaired message key t t' loaded

/-- A transaction commits and is reported, or leaves the progress alone, and the outbox too unless
only the answer of its `COMMIT` was lost. -/
inductive KeyOutcome (s s' : Repairs σ) (key : String) : Except ResyncError Unit → Prop
  | committed (loaded : Option (Envelope P))
      (hloaded : (attempt s.environment key).2.loaded = .ok loaded)
      (hrepaired : Repaired message key s.table s'.table loaded)
      (henvironment : s'.environment = (attempt s.environment key).1)
      (hprogress : s'.progress = s.progress.advance key loaded.isSome)
      (hvisited : s'.visited = s.visited ++ [key])
      (hcommitted : s'.committed = s.committed ++ [key])
      (hreports : s'.reports = s.reports ++ [s'.progress]) : KeyOutcome s s' key (.ok ())
  | stopped (error : ResyncError)
      (htable : s'.table = s.table ∨ Unanswered message attempt s.environment key s.table s'.table)
      (hprogress : s'.progress = s.progress) (hvisited : s'.visited = s.visited ++ [key])
      (hcommitted : s'.committed = s.committed) (hreports : s'.reports = s.reports) :
      KeyOutcome s s' key (.error error)

end Rows

theorem outcome_dropped (s : Repairs σ) (key : String) (environment : σ) (sequence : Nat)
    (error : ResyncError) :
    KeyOutcome message attempt s { s.visit environment key with sequence := sequence } key
      (.error error) :=
  .stopped error (Or.inl rfl) rfl rfl rfl rfl

theorem outcome_commitKey (s : Repairs σ) (key : String) (sequence : Nat) (table : OutboxTable)
    {loaded : Option (Envelope P)} (hloaded : (attempt s.environment key).2.loaded = .ok loaded)
    (hrepaired : Repaired message key s.table table loaded) :
    let s' := { s.visit (attempt s.environment key).1 key with sequence := sequence }
    let ended := commitKey s' key (attempt s.environment key).2 table loaded.isSome
    KeyOutcome message attempt s ended.1 key ended.2 := by
  intro s' ended
  cases hanswer : (attempt s.environment key).2.committed with
  | error error =>
      simp only [ended, commitKey, hanswer]
      refine .stopped _ ?_ rfl rfl rfl rfl
      cases (attempt s.environment key).2.lands with
      | false => exact Or.inl rfl
      | true => exact Or.inr ⟨loaded, error, hloaded, hanswer, hrepaired⟩
  | ok _ =>
      simp only [ended, commitKey, hanswer]
      exact .committed loaded hloaded hrepaired rfl rfl rfl rfl rfl

theorem repaired_enqueueInner {key : String} {evt : Envelope P} {trace : Option TraceContext}
    {insert : InsertOutboxRow} {now : Timestamp} {order : Nat} {t t' : OutboxTable}
    (hrequest : repairRequest message descriptor key evt trace = .ok insert)
    (h : enqueueInner (fun _ => true) now order insert t = (t', .ok ())) :
    Repaired message key t t' (some evt) := by
  rcases repairRequest_eq_ok hrequest with ⟨hprepare, rfl⟩
  have haccepted : insert.idempotencyKey.isSome = true := by
    cases hkey : insert.idempotencyKey with
    | some k => rfl
    | none =>
        simp only [enqueueInner, hkey] at h
        split at h <;> cases h
  have hfree : ¬ t.HasKey insert.messageId := by
    intro hhas
    rcases Option.isSome_iff_exists.1 haccepted with ⟨k, hkey⟩
    have hnone : (supersedePendingOutboxRows (fun _ => true) insert.entityKey t).insert?
        (insert.row now order .pending none) = none :=
      Table.insert?_eq_none.2 (Table.hasKey_updateWhere.2 hhas)
    simp [enqueueInner, hkey, hnone] at h
  have hrows := fun r => @mem_enqueueInner (fun _ => true) now order insert t hfree r
  rw [h] at hrows
  refine .enqueued evt (insert.inserted now order) entityKey_inserted ?_ ?_ ?_ fun r => ?_
  · rw [messageId_inserted]
    rcases prepareInsert_eq_ok.1 hprepare with ⟨-, _, -, _, -, _, -, rfl⟩
    rfl
  · rw [status_inserted, if_pos haccepted]
  · rw [(payload_of_prepareInsert hprepare).1]
    unfold InsertOutboxRow.inserted
    split <;> rfl
  · rw [hrows r]
    simp only [InsertOutboxRow.overtakes, haccepted, Bool.true_and]

variable (message descriptor attempt) in
theorem outcome_resyncKey (s : Repairs σ) (key : String) :
    KeyOutcome message attempt s (resyncKey message descriptor attempt s key).1 key
      (resyncKey message descriptor attempt s key).2 := by
  have hdropped : ∀ sequence error, KeyOutcome message attempt s
      { s.visit (attempt s.environment key).1 key with sequence := sequence } key (.error error) :=
    outcome_dropped s key _
  simp only [resyncKey]
  cases (attempt s.environment key).2.opened with
  | error error =>
      exact hdropped s.sequence _
  | ok _ =>
      cases hloaded : (attempt s.environment key).2.loaded with
      | error error =>
          exact hdropped s.sequence _
      | ok loaded =>
          -- An entity that is gone commits all the same, without a row.
          cases loaded with
          | none =>
              exact outcome_commitKey s key s.sequence s.table hloaded (.skipped rfl)
          | some evt =>
              simp only
              cases hrequest : repairRequest message descriptor key evt
                  (attempt s.environment key).2.trace with
              -- An envelope the repair refuses rolls the transaction back.
              | error error =>
                  exact hdropped s.sequence _
              | ok insert =>
                  cases (attempt s.environment key).2.enqueued with
                  | error error =>
                      exact hdropped s.sequence _
                  | ok _ =>
                      dsimp only
                      rcases henqueue : enqueueInner (fun _ => true)
                        (attempt s.environment key).2.now
                        (s.visit (attempt s.environment key).1 key).sequence insert
                        (s.visit (attempt s.environment key).1 key).table with ⟨table, answer⟩
                      cases answer with
                      | error error =>
                          exact hdropped _ _
                      | ok _ =>
                          exact outcome_commitKey s key _ table hloaded
                            (repaired_enqueueInner hrequest henqueue)

/-- The books of a run: cursor, counters and reports agree with the keys that are committed. -/
structure Booked (startAfter : Option String) (s : Repairs σ) : Prop where
  lastKey : s.progress.lastKey = cursorAfter startAfter s.committed
  counted : s.progress.enqueued + s.progress.skipped = s.committed.length
  reported : s.reports.map ResyncProgress.lastKey = s.committed.map some

theorem booked_start (table : OutboxTable) (sequence : Nat) (environment : σ)
    (startAfter : Option String) :
    Booked startAfter (Repairs.start table sequence environment startAfter) :=
  { lastKey := rfl
    counted := rfl
    reported := rfl }

theorem Booked.of_outcome {startAfter : Option String} {s s' : Repairs σ} {key : String}
    {answer : Except ResyncError Unit} (h : Booked startAfter s)
    (houtcome : KeyOutcome message attempt s s' key answer) : Booked startAfter s' := by
  cases houtcome with
  | committed loaded hloaded hrepaired henvironment hprogress hvisited hcommitted hreports =>
      refine
        { lastKey := ?_
          counted := ?_
          reported := ?_ }
      · rw [hprogress, hcommitted, cursorAfter_concat]
        rfl
      · rw [hprogress, hcommitted, List.length_append, ← h.counted]
        cases loaded.isSome
        · simp [ResyncProgress.advance]
          omega
        · simp [ResyncProgress.advance]
          omega
      · rw [hreports, hcommitted, List.map_append, List.map_append, h.reported, hprogress]
        rfl
  | stopped error htable hprogress hvisited hcommitted hreports =>
      exact
        { lastKey := by rw [hprogress, hcommitted]; exact h.lastKey
          counted := by rw [hprogress, hcommitted]; exact h.counted
          reported := by rw [hreports, hcommitted]; exact h.reported }

/-! ## Pages and lists -/

theorem resyncKeys_append {xs : List String} (ys : List String) :
    ∀ {s s' : Repairs σ}, resyncKeys message descriptor attempt s xs = (s', .ok ()) →
      resyncKeys message descriptor attempt s (xs ++ ys) =
        resyncKeys message descriptor attempt s' ys := by
  induction xs with
  | nil =>
      intro s s' h
      cases h
      rfl
  | cons key rest ih =>
      intro s s' h
      simp only [resyncKeys, List.cons_append] at h ⊢
      rcases hkey : resyncKey message descriptor attempt s key with ⟨mid, _ | _⟩
      · rw [hkey] at h
        cases h
      · rw [hkey] at h
        exact ih h

variable (message descriptor attempt) in
theorem resyncKeys_cases (s : Repairs σ) (batch : List String) :
    (∃ s', resyncKeys message descriptor attempt s batch = (s', .ok ())) ∨
      ∃ done key rest mid s' error, batch = done ++ key :: rest ∧
        resyncKeys message descriptor attempt s done = (mid, .ok ()) ∧
        resyncKey message descriptor attempt mid key = (s', .error error) ∧
        resyncKeys message descriptor attempt s batch = (s', .error error) := by
  induction batch generalizing s with
  | nil =>
      exact Or.inl ⟨s, rfl⟩
  | cons key rest ih =>
      rcases hkey : resyncKey message descriptor attempt s key with ⟨next, error | _⟩
      · exact Or.inr ⟨[], key, rest, s, next, error, rfl, rfl, hkey, by simp [resyncKeys, hkey]⟩
      · rcases ih next with ⟨s', hrest⟩ | ⟨done, key', rest', mid, s', error, rfl, hdone, hfail, hall⟩
        · exact Or.inl ⟨s', by simp [resyncKeys, hkey, hrest]⟩
        · exact Or.inr ⟨key :: done, key', rest', mid, s', error, rfl,
            by simp [resyncKeys, hkey, hdone], hfail, by simpa [resyncKeys, hkey] using hall⟩

/-- What a list of keys without a failure leaves behind. -/
structure Passed (message : KafkaMessage P) (attempt : σ → String → σ × Attempt P)
    (startAfter : Option String) (s s' : Repairs σ) (batch : List String) : Prop where
  visited : s'.visited = s.visited ++ batch
  committed : s'.committed = s.committed ++ batch
  booked : Booked startAfter s'
  environment : s'.environment = environmentAfter attempt s.environment batch
  rows : ∃ n, RepairedAll message attempt s.environment batch s.table s'.table n ∧
    s'.progress.enqueued = s.progress.enqueued + n

theorem passed_resyncKeys {startAfter : Option String} {batch : List String} :
    ∀ {s s' : Repairs σ}, resyncKeys message descriptor attempt s batch = (s', .ok ()) →
      Booked startAfter s → Passed message attempt startAfter s s' batch := by
  induction batch with
  | nil =>
      intro s s' h hbooked
      cases h
      exact ⟨by simp, by simp, hbooked, rfl, 0, .nil _ _, rfl⟩
  | cons key rest ih =>
      intro s s' h hbooked
      have houtcome := outcome_resyncKey message descriptor attempt s key
      rcases hkey : resyncKey message descriptor attempt s key with ⟨next, error | _⟩
      · simp [resyncKeys, hkey] at h
      · rw [hkey] at houtcome
        have hrest := ih (by simpa [resyncKeys, hkey] using h) (hbooked.of_outcome houtcome)
        rcases hrest.rows with ⟨n, hrows, hcount⟩
        cases houtcome with
        | committed loaded hloaded hrepaired henvironment hprogress hvisit hcommit _ =>
            refine ⟨?_, ?_, hrest.booked, ?_, _, .cons hloaded hrepaired (henvironment ▸ hrows), ?_⟩
            · rw [hrest.visited, hvisit, List.append_assoc]
              rfl
            · rw [hrest.committed, hcommit, List.append_assoc]
              rfl
            · rw [hrest.environment, henvironment]
              rfl
            · rw [hcount, hprogress]
              simp only [ResyncProgress.advance]
              omega

theorem accepts_iff {options : ResyncOptions} {s : Repairs σ} {batch : List String} :
    (s.paging options).accepts batch = true ↔
      batch.length ≤ options.batchSize ∧ batch.Pairwise (· < ·) ∧
        ∀ key ∈ batch, AfterCursor s.progress.lastKey key := by
  have hhead : ((s.paging options).progress.lastKey.all fun last =>
      batch.head?.all fun first => decide (last < first)) = true ↔
      ∀ first ∈ batch.head?, AfterCursor s.progress.lastKey first := by
    simp only [Option.all_eq_true, decide_eq_true_eq, AfterCursor]
    exact ⟨fun h first hfirst last hlast => h last hlast first hfirst,
      fun h last hlast first hfirst => h first hfirst last hlast⟩
  unfold ResyncRun.accepts
  rw [Bool.and_eq_true, Bool.and_eq_true, hhead, all_zip_tail_iff, decide_eq_true_eq, and_assoc]
  refine and_congr_right fun _ => and_congr_right fun hsorted => ?_
  exact afterCursor_head?_iff hsorted

/-! ## Runs over keys that are served -/

/-- A key callback that serves `entityKeys` whenever it answers with a page. -/
def Serves {κ : Type} (keys : κ → Option String → Nat → κ × Except Error (List String))
    (entityKeys : Finset String) (batchSize : Nat) : Prop :=
  ∀ source cursor page, (keys source cursor batchSize).2 = .ok page →
    ServedPage entityKeys cursor batchSize page

variable (message descriptor attempt) in
/-- How a run that has `left` before it ends: with all of it done, between two keys because the
callback fails, or at a key whose transaction is rolled back. -/
inductive RunEnds (failing : Error → Prop) (s : Repairs σ) (left : List String)
    (run : ResyncEnded σ) : Prop
  | finished (hdone : resyncKeys message descriptor attempt s left = (run.state, .ok ()))
      (hresult : run.result = some (.ok run.state.progress))
  | unserved (done rest : List String) (error : Error) (hleft : left = done ++ rest)
      (hdone : resyncKeys message descriptor attempt s done = (run.state, .ok ()))
      (hfailing : failing error) (hresult : run.result = some (.error (.storage error)))
  | failed (done rest : List String) (key : String) (mid : Repairs σ) (error : ResyncError)
      (hleft : left = done ++ key :: rest)
      (hdone : resyncKeys message descriptor attempt s done = (mid, .ok ()))
      (hkey : resyncKey message descriptor attempt mid key = (run.state, .error error))
      (hresult : run.result = some (.error error))

theorem RunEnds.prepend {failing : Error → Prop} {s s' : Repairs σ} {batch left : List String}
    {run : ResyncEnded σ}
    (hbatch : resyncKeys message descriptor attempt s batch = (s', .ok ()))
    (h : RunEnds message descriptor attempt failing s' left run) (pages : List (Page σ)) :
    RunEnds message descriptor attempt failing s (batch ++ left) { run with pages := pages } := by
  have hthen : ∀ done, resyncKeys message descriptor attempt s (batch ++ done) =
      resyncKeys message descriptor attempt s' done := fun done => resyncKeys_append done hbatch
  cases h with
  | finished hdone hresult =>
      exact .finished ((hthen _).trans hdone) hresult
  | unserved done rest error hleft hdone hfailing hresult =>
      exact .unserved (batch ++ done) rest error (by rw [hleft, List.append_assoc])
        ((hthen _).trans hdone) hfailing hresult
  | failed done rest key mid error hleft hdone hkey hresult =>
      exact .failed (batch ++ done) rest key mid error (by rw [hleft, List.append_assoc])
        ((hthen _).trans hdone) hkey hresult

section Loop

variable {κ : Type} {keys : κ → Option String → Nat → κ × Except Error (List String)}
  {options : ResyncOptions}

/-- The errors a key callback can answer with. -/
def FailsWith (keys : κ → Option String → Nat → κ × Except Error (List String)) (error : Error) :
    Prop :=
  ∃ source cursor limit, (keys source cursor limit).2 = .error error

section Turn

variable (message descriptor attempt keys options)

/-- What becomes of a run that asks for one more page. -/
inductive Turn (fuel : Nat) (source : κ) (s : Repairs σ) : ResyncEnded σ → Prop
  | unserved (error : Error)
      (hanswer : (keys source s.progress.lastKey options.batchSize).2 = .error error) :
      Turn fuel source s
        { state := s
          pages := []
          result := some (.error (.storage error)) }
  | exhausted (hanswer : (keys source s.progress.lastKey options.batchSize).2 = .ok []) :
      Turn fuel source s
        { state := s
          pages := [{ before := s, batch := [] }]
          result := some (.ok s.progress) }
  | rejected (batch : List String)
      (hanswer : (keys source s.progress.lastKey options.batchSize).2 = .ok batch)
      (haccepts : (s.paging options).accepts batch = false) :
      Turn fuel source s
        { state := s
          pages := [{ before := s, batch := batch }]
          result := some (.error invalidPage) }
  | failed (batch : List String) (s' : Repairs σ) (error : ResyncError)
      (hanswer : (keys source s.progress.lastKey options.batchSize).2 = .ok batch)
      (haccepts : (s.paging options).accepts batch = true)
      (hkeys : resyncKeys message descriptor attempt s batch = (s', .error error)) :
      Turn fuel source s
        { state := s'
          pages := [{ before := s, batch := batch }]
          result := some (.error error) }
  | turned (batch : List String) (s' : Repairs σ) (rest : ResyncEnded σ)
      (hanswer : (keys source s.progress.lastKey options.batchSize).2 = .ok batch)
      (hne : batch ≠ []) (haccepts : (s.paging options).accepts batch = true)
      (hkeys : resyncKeys message descriptor attempt s batch = (s', .ok ()))
      (hrest : rest = resyncLoop message descriptor attempt keys options fuel
        (keys source s.progress.lastKey options.batchSize).1 s') :
      Turn fuel source s { rest with pages := { before := s, batch := batch } :: rest.pages }

theorem turn_resyncLoop (fuel : Nat) (source : κ) (s : Repairs σ) :
    Turn message descriptor attempt keys options fuel source s
      (resyncLoop message descriptor attempt keys options (fuel + 1) source s) := by
  simp only [resyncLoop]
  cases hanswer : (keys source s.progress.lastKey options.batchSize).2 with
  | error error => exact .unserved error hanswer
  | ok batch =>
      simp only
      cases batch with
      | nil => exact .exhausted hanswer
      | cons key batch =>
          rw [if_neg (by simp)]
          cases haccepts : (s.paging options).accepts (key :: batch) with
          | false => exact .rejected _ hanswer haccepts
          | true =>
              rcases hkeys : resyncKeys message descriptor attempt s (key :: batch) with
                ⟨s', error | _⟩
              · exact .failed _ s' error hanswer haccepts hkeys
              · exact .turned _ s' _ hanswer (List.cons_ne_nil _ _) haccepts hkeys rfl

end Turn

/-- Cutting the keys into pages makes no difference; one page more than there are keys is
enough. -/
theorem runEnds_resyncLoop {entityKeys : Finset String}
    (hserves : Serves keys entityKeys options.batchSize) {startAfter : Option String} :
    ∀ (fuel : Nat) (source : κ) (s : Repairs σ), Booked startAfter s →
      (remaining entityKeys s.progress.lastKey).length < fuel →
      RunEnds message descriptor attempt (FailsWith keys) s
        (remaining entityKeys s.progress.lastKey)
        (resyncLoop message descriptor attempt keys options fuel source s) := by
  intro fuel
  induction fuel with
  | zero =>
      intro source s _ hfuel
      exact absurd hfuel (Nat.not_lt_zero _)
  | succ fuel ih =>
      intro source s hbooked hfuel
      have hturn := turn_resyncLoop message descriptor attempt keys options fuel source s
      generalize resyncLoop message descriptor attempt keys options (fuel + 1) source s = ended
        at hturn ⊢
      cases hturn with
      | unserved error hanswer =>
          exact .unserved [] _ error rfl rfl ⟨source, _, _, hanswer⟩ rfl
      | exhausted hanswer =>
          have hpage := hserves source _ [] hanswer
          have hnil : remaining entityKeys s.progress.lastKey = [] := by
            by_contra hleft
            exact hpage.ne_nil hleft rfl
          rw [hnil]
          exact .finished rfl rfl
      | rejected batch hanswer haccepts =>
          -- the page is one of the keys that were left, in order, so it is accepted
          have hpage := hserves source _ batch hanswer
          have hgood : (s.paging options).accepts batch = true :=
            accepts_iff.2 ⟨hpage.length_le, hpage.increasing,
              fun key hkey => (hpage.served key hkey).2⟩
          exact Bool.noConfusion (haccepts.symm.trans hgood)
      | failed batch s' error hanswer haccepts hkeys =>
          have hsplit := remaining_of_served (hserves source _ batch hanswer)
          rcases resyncKeys_cases message descriptor attempt s batch with
            ⟨_, hdone⟩ | ⟨done, key, rest, mid, _, _, rfl, hdone, hfail, hall⟩
          · cases hdone.symm.trans hkeys
          · cases hall.symm.trans hkeys
            rw [hsplit, List.append_assoc]
            exact .failed done _ key mid error rfl hdone hfail rfl
      | turned batch s' rest hanswer hne haccepts hkeys hrest =>
          have hsplit := remaining_of_served (hserves source _ batch hanswer)
          have hpassed := passed_resyncKeys hkeys hbooked
          have hcursor : s'.progress.lastKey = cursorAfter s.progress.lastKey batch := by
            rw [hpassed.booked.lastKey, hpassed.committed, cursorAfter_append, hbooked.lastKey]
          have hpos : 0 < batch.length := List.length_pos_iff.2 hne
          rw [hsplit, List.length_append] at hfuel
          rw [hsplit, ← hcursor, hrest]
          exact (ih _ s' hpassed.booked (by rw [hcursor]; omega)).prepend hkeys _

section Ended

variable (message attempt)

/-- A run that returned `done` after `left`: every key was visited and committed, in order, and the
outbox is the one these commits leave. -/
structure Completed (start : Repairs σ) (startAfter : Option String) (left : List String)
    (run : ResyncEnded σ) (done : ResyncProgress) : Prop where
  visited : run.state.visited = left
  committed : run.state.committed = left
  reported : run.state.reports.map ResyncProgress.lastKey = left.map some
  rows : RepairedAll message attempt start.environment left start.table run.state.table done.enqueued
  counted : done.enqueued + done.skipped = left.length
  lastKey : done.lastKey = cursorAfter startAfter left

/-- A run that stopped with an error: what it committed is where it stopped in `left`, and what it
reported.  The outbox has the rows of these keys, and those of the key it stopped at only if the
answer to its `COMMIT` was lost. -/
structure Interrupted (start : Repairs σ) (left : List String) (run : ResyncEnded σ) : Prop where
  stopped : ∃ rest, left = run.state.committed ++ rest ∧
    (run.state.visited = run.state.committed ∨
      ∃ key, rest.head? = some key ∧ run.state.visited = run.state.committed ++ [key])
  rows : ∃ table, RepairedAll message attempt start.environment run.state.committed start.table table
      run.state.progress.enqueued ∧
    (run.state.table = table ∨ ∃ key, run.state.visited = run.state.committed ++ [key] ∧
      Unanswered message attempt (environmentAfter attempt start.environment run.state.committed) key
        table run.state.table)
  reported : run.state.reports.map ResyncProgress.lastKey = run.state.committed.map some

end Ended

section Ends

variable {failing : Error → Prop} {startAfter : Option String} {s : Repairs σ}
  {left : List String} {run : ResyncEnded σ}

theorem RunEnds.isSome_result (h : RunEnds message descriptor attempt failing s left run) :
    run.result.isSome = true := by
  cases h with
  | finished _ hresult | unserved _ _ _ _ _ _ hresult | failed _ _ _ _ _ _ _ _ hresult =>
      rw [hresult]
      rfl

theorem Passed.of_start {s' : Repairs σ} {batch : List String}
    (h : Passed message attempt startAfter s s' batch) (hstart : s.Fresh) :
    s'.visited = batch ∧ s'.committed = batch ∧
      RepairedAll message attempt s.environment batch s.table s'.table s'.progress.enqueued := by
  rcases hstart with ⟨hvisited, hcommitted, henqueued⟩
  rcases h.rows with ⟨n, hrows, hcount⟩
  refine ⟨by simpa [hvisited] using h.visited, by simpa [hcommitted] using h.committed, ?_⟩
  rw [hcount, henqueued, Nat.zero_add]
  exact hrows

theorem RunEnds.completed (h : RunEnds message descriptor attempt failing s left run)
    (hbooked : Booked startAfter s) (hstart : s.Fresh) {done : ResyncProgress}
    (hok : run.result = some (.ok done)) : Completed message attempt s startAfter left run done := by
  cases h with
  | finished hdone hresult =>
      have hpassed := passed_resyncKeys hdone hbooked
      rcases hpassed.of_start hstart with ⟨hvisited, hcommitted, hrows⟩
      cases hresult.symm.trans hok
      exact
        { visited := hvisited
          committed := hcommitted
          reported := by rw [hpassed.booked.reported, hcommitted]
          rows := hrows
          counted := by rw [hpassed.booked.counted, hcommitted]
          lastKey := by rw [hpassed.booked.lastKey, hcommitted] }
  | unserved _ _ _ _ _ _ hresult | failed _ _ _ _ _ _ _ _ hresult =>
      cases hresult.symm.trans hok

theorem RunEnds.interrupted (h : RunEnds message descriptor attempt failing s left run)
    (hbooked : Booked startAfter s) (hstart : s.Fresh) {error : ResyncError}
    (herror : run.result = some (.error error)) : Interrupted message attempt s left run := by
  cases h with
  | finished _ hresult =>
      cases hresult.symm.trans herror
  | unserved done rest error hleft hdone _ _ =>
      have hpassed := passed_resyncKeys hdone hbooked
      rcases hpassed.of_start hstart with ⟨hvisited, hcommitted, hrows⟩
      exact
        { stopped := ⟨rest, by rw [hcommitted, hleft], Or.inl (hvisited.trans hcommitted.symm)⟩
          rows := ⟨run.state.table, by rw [hcommitted]; exact hrows, Or.inl rfl⟩
          reported := hpassed.booked.reported }
  | failed done rest key mid error hleft hdone hkey _ =>
      have hpassed := passed_resyncKeys hdone hbooked
      rcases hpassed.of_start hstart with ⟨hvisited, hcommitted, hrows⟩
      have houtcome := outcome_resyncKey message descriptor attempt mid key
      rw [hkey] at houtcome
      have hbooked' := hpassed.booked.of_outcome houtcome
      cases houtcome with
      -- The key that failed is visited, and its commit is not known of.
      | stopped _ htable hprogress hvisit hcommit _ =>
          rw [hvisited] at hvisit
          rw [hcommitted] at hcommit
          refine
            { stopped := ⟨key :: rest, by rw [hcommit, hleft],
                Or.inr ⟨key, rfl, by rw [hvisit, hcommit]⟩⟩
              rows := ⟨mid.table, by rw [hcommit, hprogress]; exact hrows, ?_⟩
              reported := hbooked'.reported }
          refine htable.imp_right fun hlost => ⟨key, by rw [hvisit, hcommit], ?_⟩
          rw [hcommit, ← hpassed.environment]
          exact hlost

theorem lastKey_of_reported {reports : List ResyncProgress} {committed : List String}
    (h : reports.map ResyncProgress.lastKey = committed.map some) :
    reports.getLast?.bind ResyncProgress.lastKey = committed.getLast? := by
  have hlast : reports.getLast?.map ResyncProgress.lastKey = committed.getLast?.map some := by
    rw [← List.getLast?_map, h, List.getLast?_map]
  cases hreports : reports.getLast? with
  | none =>
      rw [hreports] at hlast
      exact (Option.map_eq_none_iff.1 hlast.symm).symm
  | some report =>
      rw [hreports] at hlast
      rcases Option.map_eq_some_iff.1 hlast.symm with ⟨key, hkey, hsame⟩
      rw [hkey, Option.bind_some, ← hsame]

theorem RunEnds.eq_of_finished {failing' : Error → Prop} {run' : ResyncEnded σ}
    (h : RunEnds message descriptor attempt failing s left run)
    (h' : RunEnds message descriptor attempt failing' s left run') {done : ResyncProgress}
    (hok : run.result = some (.ok done)) :
    (run'.state = run.state ∧ run'.result = run.result) ∨
      ∃ error, failing' error ∧ run'.result = some (.error (.storage error)) := by
  cases h with
  | finished hdone hresult =>
      cases h' with
      | finished hdone' hresult' =>
          have hstate : run'.state = run.state := by
            rw [hdone] at hdone'
            injection hdone' with hstate _
            exact hstate.symm
          exact Or.inl ⟨hstate, by rw [hresult, hresult', hstate]⟩
      | unserved _ _ error _ _ hfailing hresult' =>
          exact Or.inr ⟨error, hfailing, hresult'⟩
      | failed before rest key mid error hleft hbefore hkey _ =>
          -- The key that fails here would have failed there.
          rw [hleft, resyncKeys_append _ hbefore, resyncKeys, hkey] at hdone
          injection hdone with _ hdone
          cases hdone
  | unserved _ _ _ _ _ _ hresult | failed _ _ _ _ _ _ _ _ hresult =>
      cases hresult.symm.trans hok

end Ends

/-! ## Runs over whatever is served -/

/-- A page that is too long, not strictly increasing, or not entirely after the cursor. -/
def Page.Malformed (options : ResyncOptions) (page : Page σ) : Prop :=
  options.batchSize < page.batch.length ∨ ¬ page.batch.Pairwise (· < ·) ∨
    ∃ key ∈ page.batch, ¬ AfterCursor page.before.progress.lastKey key

theorem malformed_iff {page : Page σ} :
    page.Malformed options ↔ (page.before.paging options).accepts page.batch = false := by
  rw [← Bool.not_eq_true, accepts_iff, Page.Malformed]
  constructor
  · rintro (hlong | hunsorted | ⟨key, hkey, hbehind⟩) ⟨hlength, hsorted, hafter⟩
    · exact absurd hlength hlong.not_ge
    · exact hunsorted hsorted
    · exact hbehind (hafter key hkey)
  · intro h
    by_contra hnot
    simp only [not_or, not_lt, not_not, not_exists, not_and] at hnot
    exact h ⟨hnot.1, hnot.2.1, hnot.2.2⟩

/-- Keys are visited in increasing order from the cursor on, and a malformed page ends the run as
it was when the page came. -/
structure PagesChecked (options : ResyncOptions) (run : ResyncEnded σ) : Prop where
  visited : Scanned options.startAfter run.state.visited
  committed : run.state.committed <+: run.state.visited
  rejected : ∀ page ∈ run.pages, page.Malformed options →
    run.pages.getLast? = some page ∧ run.state = page.before ∧
      run.result = some (.error invalidPage)

variable (message descriptor attempt) in
theorem visited_resyncKeys {startAfter : Option String} {s : Repairs σ} (batch : List String)
    (hbooked : Booked startAfter s) (hvisited : s.visited = s.committed) :
    let s' := (resyncKeys message descriptor attempt s batch).1
    ∃ front, front <+: batch ∧ s'.visited = s.visited ++ front ∧ s'.committed <+: s'.visited := by
  rcases resyncKeys_cases message descriptor attempt s batch with
    ⟨s', hdone⟩ | ⟨done, key, rest, mid, s', error, rfl, hdone, hfail, hall⟩
  · have hpassed := passed_resyncKeys hdone hbooked
    simp only [hdone]
    refine ⟨batch, List.prefix_rfl, hpassed.visited, ?_⟩
    rw [hpassed.visited, hpassed.committed, hvisited]
  · have hpassed := passed_resyncKeys hdone hbooked
    have houtcome := outcome_resyncKey message descriptor attempt mid key
    rw [hfail] at houtcome
    simp only [hall]
    cases houtcome with
    | stopped _ _ _ hvisit hcommit _ =>
        refine ⟨done ++ [key], ⟨rest, by simp⟩, ?_, ?_⟩
        · rw [hvisit, hpassed.visited, List.append_assoc]
        · rw [hvisit, hcommit, hpassed.visited, hpassed.committed, hvisited]
          exact ⟨[key], rfl⟩

theorem pagesChecked_ended {s : Repairs σ} (hscanned : Scanned options.startAfter s.visited)
    (hsame : s.visited = s.committed) {pages : List (Page σ)}
    {result : Except ResyncError ResyncProgress}
    (hpages : ∀ page ∈ pages, page.Malformed options →
      pages.getLast? = some page ∧ s = page.before ∧ result = .error invalidPage) :
    PagesChecked options
      { state := s
        pages := pages
        result := some result } := by
  refine
    { visited := hscanned
      committed := by rw [hsame]
      rejected := ?_ }
  intro page hpage hbad
  rcases hpages page hpage hbad with ⟨hlast, hstate, rfl⟩
  exact ⟨hlast, hstate, rfl⟩

variable (message descriptor attempt) in
theorem visited_accepted {s : Repairs σ} {batch : List String}
    (hbooked : Booked options.startAfter s) (hsame : s.visited = s.committed)
    (hscanned : Scanned options.startAfter s.visited)
    (haccepts : (s.paging options).accepts batch = true) :
    let s' := (resyncKeys message descriptor attempt s batch).1
    ¬ ({ before := s, batch := batch } : Page σ).Malformed options ∧
      Scanned options.startAfter s'.visited ∧ s'.committed <+: s'.visited := by
  intro s'
  rcases accepts_iff.1 haccepts with ⟨-, hbatch, hafter⟩
  have hgrown : Scanned options.startAfter (s.visited ++ batch) := by
    refine hscanned.append hbatch fun key hkey => ?_
    rw [hsame, ← hbooked.lastKey]
    exact hafter key hkey
  rcases visited_resyncKeys message descriptor attempt batch hbooked hsame with
    ⟨front, hfront, hvisited, hstart⟩
  have hscanned' := hgrown.sublist (hfront.sublist.append_left s.visited)
  rw [← hvisited] at hscanned'
  refine ⟨?_, hscanned', hstart⟩
  rw [malformed_iff, haccepts]
  exact Bool.noConfusion

theorem pagesChecked_resyncLoop :
    ∀ (fuel : Nat) (source : κ) (s : Repairs σ), Booked options.startAfter s →
      s.visited = s.committed → Scanned options.startAfter s.visited →
      PagesChecked options (resyncLoop message descriptor attempt keys options fuel source s) := by
  intro fuel
  induction fuel with
  | zero =>
      intro source s _ hsame hscanned
      exact
        { visited := hscanned
          committed := by rw [resyncLoop, hsame]
          rejected := fun page hpage => (nomatch hpage) }
  | succ fuel ih =>
      intro source s hbooked hsame hscanned
      have hturn := turn_resyncLoop message descriptor attempt keys options fuel source s
      generalize resyncLoop message descriptor attempt keys options (fuel + 1) source s = ended
        at hturn ⊢
      cases hturn with
      | unserved error hanswer =>
          exact pagesChecked_ended hscanned hsame fun page hpage => (nomatch hpage)
      | exhausted hanswer =>
          refine pagesChecked_ended hscanned hsame fun page hpage hbad => ?_
          rw [List.mem_singleton.1 hpage] at hbad
          simp [Page.Malformed] at hbad
      | rejected batch hanswer haccepts =>
          refine pagesChecked_ended hscanned hsame fun page hpage _ => ?_
          rw [List.mem_singleton.1 hpage]
          exact ⟨rfl, rfl, rfl⟩
      | failed batch s' error hanswer haccepts hkeys =>
          rcases visited_accepted message descriptor attempt hbooked hsame hscanned haccepts with
            ⟨hgood, hscanned', hstart⟩
          rw [hkeys] at hscanned' hstart
          refine
            { visited := hscanned'
              committed := hstart
              rejected := ?_ }
          intro page hpage hbad
          rw [List.mem_singleton.1 hpage] at hbad
          exact absurd hbad hgood
      | turned batch s' rest hanswer hne haccepts hkeys hrest =>
          rcases visited_accepted message descriptor attempt hbooked hsame hscanned haccepts with
            ⟨hgood, hscanned', -⟩
          rw [hkeys] at hscanned'
          have hpassed := passed_resyncKeys hkeys hbooked
          have hlater := ih (keys source s.progress.lastKey options.batchSize).1 s' hpassed.booked
            (by rw [hpassed.visited, hpassed.committed, hsame]) hscanned'
          rw [← hrest] at hlater
          refine
            { visited := hlater.visited
              committed := hlater.committed
              rejected := ?_ }
          intro page hpage hbad
          rcases List.mem_cons.1 hpage with rfl | hpage
          · exact absurd hbad hgood
          -- A malformed page of the rest is the last of the rest, so the last of all.
          · rcases hlater.rejected page hpage hbad with ⟨hlast, hstate, hresult⟩
            exact ⟨by simp [List.getLast?_cons, hlast], hstate, hresult⟩

end Loop

/-! ## The pages of a resync -/

section Exact

variable {κ : Type} (message : KafkaMessage P) (descriptor : MessageDescriptor)
  (attempt : σ → String → σ × Attempt P)
  (keys : κ → Option String → Nat → κ × Except Error (List String)) (options : ResyncOptions)
  (source : κ) (table : OutboxTable) (sequence : Nat) (environment : σ)

theorem runEnds_resync {entityKeys : Finset String} {fuel : Nat}
    (hserves : Serves keys entityKeys options.batchSize)
    (hfuel : (remaining entityKeys options.startAfter).length < fuel) :
    RunEnds message descriptor attempt (FailsWith keys)
      (Repairs.start table sequence environment options.startAfter)
      (remaining entityKeys options.startAfter)
      (resync message descriptor attempt keys options fuel source table sequence environment) :=
  runEnds_resyncLoop hserves fuel source _
    (booked_start table sequence environment options.startAfter) hfuel

/-- Over keys that are served, `resync` ends, and it repairs the keys after the cursor in order, a
row each for those that are loaded; a run that stops has committed the keys before the one it stopped
at, that one too if only the answer of its `COMMIT` was lost, and leaves what comes after the last
report to the next run.  Whatever is served, no key of a malformed page is visited, and no key
twice. -/
theorem resync_pages_exact :
    (∀ entityKeys : Finset String, Serves keys entityKeys options.batchSize →
      ∀ fuel, (remaining entityKeys options.startAfter).length < fuel →
        let run := resync message descriptor attempt keys options fuel source table sequence
          environment
        run.result.isSome = true ∧
        (∀ done, run.result = some (.ok done) →
          Completed message attempt
            (Repairs.start table sequence environment options.startAfter) options.startAfter
            (remaining entityKeys options.startAfter) run done ∧
          ∀ (κ' : Type) (keys' : κ' → Option String → Nat → κ' × Except Error (List String))
            (options' : ResyncOptions) (source' : κ') (fuel' : Nat),
            Serves keys' entityKeys options'.batchSize →
            options'.startAfter = options.startAfter →
            (remaining entityKeys options.startAfter).length < fuel' →
            let run' := resync message descriptor attempt keys' options' fuel' source' table sequence
              environment
            (run'.state = run.state ∧ run'.result = run.result) ∨
              ∃ error, FailsWith keys' error ∧ run'.result = some (.error (.storage error))) ∧
        (∀ error, run.result = some (.error error) →
          Interrupted message attempt
            (Repairs.start table sequence environment options.startAfter)
            (remaining entityKeys options.startAfter) run ∧
          ∀ (κ' : Type) (keys' : κ' → Option String → Nat → κ' × Except Error (List String))
            (options' : ResyncOptions) (source' : κ') (fuel' : Nat) (sequence' : Nat)
            (environment' : σ) (done : ResyncProgress),
            Serves keys' entityKeys options'.batchSize →
            options'.startAfter =
              (run.state.reports.getLast?.bind ResyncProgress.lastKey).or options.startAfter →
            (remaining entityKeys options'.startAfter).length < fuel' →
            let run' := resync message descriptor attempt keys' options' fuel' source'
              run.state.table sequence' environment'
            run'.result = some (.ok done) →
            run.state.committed ++ run'.state.visited = remaining entityKeys options.startAfter ∧
              run'.state.committed = run'.state.visited)) ∧
    ∀ fuel, PagesChecked options
      (resync message descriptor attempt keys options fuel source table sequence environment) := by
  refine ⟨?_, fun fuel => pagesChecked_resyncLoop fuel source _ (booked_start _ _ _ _) rfl
    (scanned_nil _)⟩
  intro entityKeys hserves fuel hfuel run
  have hends := runEnds_resync message descriptor attempt keys options source table sequence
    environment hserves hfuel
  refine ⟨hends.isSome_result, ?_, ?_⟩
  · intro done hok
    refine ⟨hends.completed (booked_start _ _ _ _) ⟨rfl, rfl, rfl⟩ hok, ?_⟩
    intro κ' keys' options' source' fuel' hserves' hcursor hfuel'
    rw [← hcursor] at hfuel'
    have hends' := runEnds_resync message descriptor attempt keys' options' source' table sequence
      environment hserves' hfuel'
    rw [hcursor] at hends'
    exact hends.eq_of_finished hends' hok
  · intro error herror
    have hstopped := hends.interrupted (booked_start _ _ _ _) ⟨rfl, rfl, rfl⟩ herror
    refine ⟨hstopped, ?_⟩
    intro κ' keys' options' source' fuel' sequence' environment' done hserves' hcursor hfuel'
      run' hok
    have hends' := runEnds_resync message descriptor attempt keys' options' source'
      run.state.table sequence' environment' hserves' hfuel'
    have hdone := hends'.completed (booked_start _ _ _ _) ⟨rfl, rfl, rfl⟩ hok
    rcases hstopped.stopped with ⟨rest, hleft, -⟩
    -- The cursor of the second run is the last key the first one committed.
    have hresumed :
        options'.startAfter = cursorAfter options.startAfter run.state.committed := by
      rw [hcursor, cursorAfter, lastKey_of_reported hstopped.reported]
    have hrest : remaining entityKeys options'.startAfter = rest := by
      rw [hresumed]
      exact remaining_of_append hleft
    rw [hdone.visited, hdone.committed, hrest]
    exact ⟨hleft.symm, rfl⟩

end Exact

end Outcomes

/-! ### Three keys, the second without a state -/

def threeKeys (_ : Unit) (cursor : Option String) (limit : Nat) :
    Unit × Except Error (List String) :=
  ((), .ok ((["a", "b", "c"].filter fun key => decide (AfterCursor cursor key)).take limit))

/-- The environment counts the envelopes. -/
def threeAttempts (next : Nat) (key : String) : Nat × Attempt Snapshot :=
  (next + 1,
    { opened := .ok ()
      loaded := .ok (if key = "b" then none
        else some (Snapshot.envelope next { entity := key, state := "current" }))
      trace := none
      now := 0
      enqueued := .ok ()
      committed := .ok ()
      lands := false })

theorem remaining_threeKeys (cursor : Option String) :
    remaining {"a", "b", "c"} cursor =
      ["a", "b", "c"].filter fun key => decide (AfterCursor cursor key) := by
  refine eq_remaining (List.Pairwise.filter _ (by decide)) fun key => ?_
  simp

theorem serves_threeKeys {batchSize : Nat} (h : 0 < batchSize) :
    Serves threeKeys {"a", "b", "c"} batchSize := by
  intro source cursor page hpage
  injection hpage with hpage
  rw [← hpage, ← remaining_threeKeys]
  exact servedPage_take _ _ h

/-- A resync of the three keys in batches. -/
def threeResync (options : ResyncOptions) : ResyncEnded Nat :=
  resync Snapshot.message Snapshot.descriptor threeAttempts threeKeys options 4 () Table.empty 1 1

def inPairs : ResyncOptions :=
  { batchSize := 2
    batchSize_pos := Nat.succ_pos _
    startAfter := none }

def oneByOne : ResyncOptions :=
  { batchSize := 1
    batchSize_pos := Nat.succ_pos _
    startAfter := none }

theorem resync_pages_exact_three :
    (threeResync inPairs).result =
        some (.ok { enqueued := 2, skipped := 1, lastKey := some "c" }) ∧
      (threeResync inPairs).state.visited = ["a", "b", "c"] ∧
      (threeResync oneByOne).state = (threeResync inPairs).state := by
  have hresult : (threeResync inPairs).result =
      some (.ok { enqueued := 2, skipped := 1, lastKey := some "c" }) := rfl
  have hleft : remaining {"a", "b", "c"} inPairs.startAfter = ["a", "b", "c"] :=
    remaining_threeKeys none
  have hfuel : (remaining {"a", "b", "c"} inPairs.startAfter).length < 4 := by
    rw [hleft]
    decide
  have hexact := resync_pages_exact Snapshot.message Snapshot.descriptor threeAttempts threeKeys
    inPairs () Table.empty 1 1
  rcases (hexact.1 {"a", "b", "c"} (serves_threeKeys inPairs.batchSize_pos) 4 hfuel).2.1 _ hresult
    with ⟨hcompleted, hbatch⟩
  refine ⟨hresult, by rw [← hleft]; exact hcompleted.visited, ?_⟩
  rcases hbatch Unit threeKeys oneByOne () 4 (serves_threeKeys oneByOne.batchSize_pos) rfl hfuel with
    ⟨hstate, -⟩ | ⟨error, ⟨_, _, _, hfails⟩, -⟩
  · exact hstate
  · cases hfails

/-- The same, with the connection lost while the second key commits. -/
def lostAttempts (next : Nat) (key : String) : Nat × Attempt Snapshot :=
  (next + 1,
    { (threeAttempts next key).2 with
      loaded := .ok (some (Snapshot.envelope next { entity := key, state := "current" }))
      committed := if key = "b" then .error (.sqlx "connection reset") else .ok ()
      lands := true })

/-- A run that stopped at a key, which is committed. -/
theorem lost_commit_stops_after_key :
    let run := resync Snapshot.message Snapshot.descriptor lostAttempts threeKeys inPairs 4 ()
      Table.empty 1 1
    run.result = some (.error (.storage (.sqlx "connection reset"))) ∧
      run.state.reports.map ResyncProgress.lastKey = [some "a"] ∧
      run.state.table.rows.map OutboxRow.entityKey = [some "a", some "b"] :=
  ⟨rfl, rfl, rfl⟩

end Resync
end Kafkaman
