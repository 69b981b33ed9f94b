import Kafkaman.Lib.TransitionSystem
import Kafkaman.Outbox.Claim
import Kafkaman.Outbox.Enqueue
import Kafkaman.Outbox.Mark
import Mathlib.Logic.Function.Basic

/-!
# Outbox.Statement — relays and enqueuers interleaved statement by statement

The table holds committed rows only.  What a transaction has written, and hence locked, is part of its
phase: a relay knows the ids it has superseded and the candidates it has locked, an enqueuer the ids
it has superseded and the row it has inserted.

A statement reads the rows committed when it starts (and its own writes), and then visits its target
rows one by one.  A row locked by another transaction makes it wait; once free, the `WHERE` is
evaluated again on the row's newest version.  `FOR UPDATE SKIP LOCKED` passes over such rows instead.
-/

namespace Kafkaman
namespace Outbox
namespace Statement

open Lib

/-! ## Transactions under way -/

/-- A relay's `claim_batch` transaction. -/
inductive RelayPhase where
  | idle
  /-- `BEGIN`; from here on `now()` is fixed. -/
  | opened (args : ClaimArgs)
  /-- Inside the collapse, or after it once `remaining` is empty. -/
  | collapsing (args : ClaimArgs) (window : List OutboxRow) (remaining superseded : List Uuid)
  /-- Inside the claim: the candidates are locked, their predecessors are being superseded. -/
  | claiming (args : ClaimArgs) (candidates : List OutboxRow) (remaining superseded : List Uuid)
  /-- The claim statement is done, `COMMIT` comes next. -/
  | claimed (args : ClaimArgs) (candidates : List OutboxRow) (superseded : List Uuid)

namespace RelayPhase

def candidates : RelayPhase → List OutboxRow
  | .idle | .opened _ | .collapsing _ _ _ _ => []
  | .claiming _ candidates _ _ | .claimed _ candidates _ => candidates

def superseded : RelayPhase → List Uuid
  | .idle | .opened _ => []
  | .collapsing _ _ _ superseded | .claiming _ _ _ superseded | .claimed _ _ superseded =>
      superseded

/-- Whether a row is due by the `now()` of a claim whose collapse has run. -/
def isDue (row : OutboxRow) : RelayPhase → Bool
  | .collapsing args _ _ _ => row.nextAttemptAt ≤ args.now
  | _ => false

/-- The rows the transaction has locked. -/
def locks (phase : RelayPhase) : List Uuid :=
  phase.superseded ++ phase.candidates.map OutboxRow.messageId

end RelayPhase

/-- An enqueuer's transaction. -/
inductive EnqueuePhase where
  | idle
  /-- `BEGIN`, with the snapshot if the transaction has a fixed one. -/
  | opened (fixed : Option (List OutboxRow))
  /-- The entity's advisory lock is held. -/
  | locked (fixed : Option (List OutboxRow)) (insert : InsertOutboxRow)
  | superseding (insert : InsertOutboxRow) (remaining superseded : List Uuid)
  | inserted (row : OutboxRow) (superseded : List Uuid)

namespace EnqueuePhase

def superseded : EnqueuePhase → List Uuid
  | .idle | .opened _ | .locked _ _ => []
  | .superseding _ _ superseded | .inserted _ superseded => superseded

def row? : EnqueuePhase → Option OutboxRow
  | .inserted row _ => some row
  | _ => none

/-- The entity whose advisory lock is held, to the end of the transaction.  A request without an
idempotency identity takes no lock. -/
def entityLock : EnqueuePhase → Option String
  | .idle | .opened _ => none
  | .locked _ insert => some insert.entityKey
  | .superseding insert _ _ => insert.idempotencyKey.map fun _ => insert.entityKey
  | .inserted row _ => row.idempotencyKey.bind fun _ => row.entityKey

end EnqueuePhase

structure State (m n : Nat) where
  table : OutboxTable
  sequence : Nat
  enqueuers : Fin m → EnqueuePhase
  relays : Fin n → RelayPhase

inductive Action (m n : Nat) where
  | beginClaim (i : Fin n) (args : ClaimArgs)
  | startCollapse (i : Fin n)
  | collapseRow (i : Fin n)
  | startClaim (i : Fin n)
  | supersedeRow (i : Fin n)
  | finishClaim (i : Fin n)
  | commitClaim (i : Fin n)
  | abortClaim (i : Fin n)
  | beginEnqueue (j : Fin m) (fixed : Bool)
  | lockEntity (j : Fin m) (insert : InsertOutboxRow)
  | startSupersede (j : Fin m)
  | supersedePending (j : Fin m)
  | insertRow (j : Fin m) (insert : InsertOutboxRow) (now : Timestamp)
  | commitEnqueue (j : Fin m)
  | abortEnqueue (j : Fin m)
  | mark (now : Timestamp) (mark : Mark) (messageId claimId : Uuid)

/-! ## Statements -/

section Semantics

variable {m n : Nat}

/-- Whether the row is locked by some transaction other than relay `i`'s. -/
def lockedForRelay (s : State m n) (i : Fin n) (messageId : Uuid) : Bool :=
  decide (∃ k, k ≠ i ∧ messageId ∈ (s.relays k).locks) ||
    decide (∃ j, messageId ∈ (s.enqueuers j).superseded)

/-- Whether the row is locked by some transaction other than enqueuer `j`'s. -/
def lockedForEnqueuer (s : State m n) (j : Fin m) (messageId : Uuid) : Bool :=
  decide (∃ i, messageId ∈ (s.relays i).locks) ||
    decide (∃ k, k ≠ j ∧ messageId ∈ (s.enqueuers k).superseded)

/-- The rows a relay's statement reads: what is committed, with its own supersedes. -/
def view (t : OutboxTable) (superseded : List Uuid) : List OutboxRow :=
  t.rows.map fun r => if r.messageId ∈ superseded then supersedeOvertakenRow r else r

/-- The ids a supersede over `rows` sets out to visit. -/
def targets (newer rows : List OutboxRow) : List Uuid :=
  (rows.filter (overtakenBy newer)).map OutboxRow.messageId

/-- The candidates of the claim, selected and locked as its snapshot shows them. -/
def selection (s : State m n) (i : Fin n) (args : ClaimArgs) (superseded : List Uuid) :
    List OutboxRow :=
  claimCandidates args.now args.limit (fun id => args.locked id || lockedForRelay s i id)
    (view s.table superseded)

/-- Visit one row: supersede it if it still is what the statement looks for. -/
def visit (t : OutboxTable) (condition : OutboxRow → Bool) (superseded : List Uuid) (id : Uuid) :
    List Uuid :=
  match t.lookup id with
  | some row => if condition row then superseded ++ [id] else superseded
  | none => superseded

/-- What a claim transaction commits. -/
def applyClaim (args : ClaimArgs) (candidates : List OutboxRow) (superseded : List Uuid)
    (t : OutboxTable) : OutboxTable :=
  (t.updateWhere (fun r => r.messageId ∈ superseded) supersedeOvertakenRow
      messageId_supersedeOvertakenRow).updateWhere
    (targetOf candidates) args.claim (messageId_claim args)

/-- What an enqueue transaction commits; `none` is the primary key violation. -/
def applyEnqueue (row : OutboxRow) (superseded : List Uuid) (t : OutboxTable) :
    Option OutboxTable :=
  (t.updateWhere (fun r => r.messageId ∈ superseded) Outbox.supersedeRow
    messageId_supersedeRow).insert? row

def State.setRelay (s : State m n) (i : Fin n) (phase : RelayPhase) : State m n :=
  { s with relays := Function.update s.relays i phase }

def State.setEnqueuer (s : State m n) (j : Fin m) (phase : EnqueuePhase) : State m n :=
  { s with enqueuers := Function.update s.enqueuers j phase }

/-- The statements of `claim_batch`. -/
def nextRelay (s : State m n) (i : Fin n) : Action m n → Option (State m n)
  | .beginClaim _ args =>
      match s.relays i with
      | .idle => some (s.setRelay i (.opened args))
      | _ => none
  | .startCollapse _ =>
      match s.relays i with
      | .opened args =>
          let window := collapseWindow args.now args.limit s.table.rows
          some (s.setRelay i (.collapsing args window (targets window s.table.rows) []))
      | _ => none
  | .collapseRow _ =>
      match s.relays i with
      | .collapsing args window (id :: remaining) superseded =>
          if lockedForRelay s i id then none
          else some (s.setRelay i (.collapsing args window remaining
            (visit s.table (overtakenBy window) superseded id)))
      | _ => none
  | .startClaim _ =>
      match s.relays i with
      | .collapsing args _ [] superseded =>
          let candidates := selection s i args superseded
          some (s.setRelay i (.claiming args candidates
            (targets candidates (view s.table superseded)) superseded))
      | _ => none
  | .supersedeRow _ =>
      match s.relays i with
      | .claiming args candidates (id :: remaining) superseded =>
          if lockedForRelay s i id then none
          else some (s.setRelay i (.claiming args candidates remaining
            (visit s.table (overtakenBy candidates) superseded id)))
      | _ => none
  | .finishClaim _ =>
      match s.relays i with
      | .claiming args candidates [] superseded =>
          some (s.setRelay i (.claimed args candidates superseded))
      | _ => none
  | .commitClaim _ =>
      match s.relays i with
      | .claimed args candidates superseded =>
          some
            { s with
              table := applyClaim args candidates superseded s.table
              relays := Function.update s.relays i .idle }
      | _ => none
  | .abortClaim _ => some (s.setRelay i .idle)
  | _ => none

/-- The statements of `enqueue_inner`.  A transaction with a fixed snapshot that meets a row changed
since is aborted by the database; here it may also go on, which only adds runs. -/
def nextEnqueuer (s : State m n) (j : Fin m) : Action m n → Option (State m n)
  | .beginEnqueue _ fixed =>
      match s.enqueuers j with
      | .idle => some (s.setEnqueuer j (.opened (if fixed then some s.table.rows else none)))
      | _ => none
  | .lockEntity _ insert =>
      match s.enqueuers j with
      | .opened fixed =>
          if insert.idempotencyKey.isSome = true ∧
              ¬ ∃ k, k ≠ j ∧ (s.enqueuers k).entityLock = some insert.entityKey then
            some (s.setEnqueuer j (.locked fixed insert))
          else
            none
      | _ => none
  | .startSupersede _ =>
      match s.enqueuers j with
      | .locked fixed insert =>
          let rows := fixed.getD s.table.rows
          let remaining := (rows.filter (supersedes (fun _ => true) insert.entityKey)).map
            OutboxRow.messageId
          some (s.setEnqueuer j (.superseding insert remaining []))
      | _ => none
  | .supersedePending _ =>
      match s.enqueuers j with
      | .superseding insert (id :: remaining) superseded =>
          if lockedForEnqueuer s j id then none
          else some (s.setEnqueuer j (.superseding insert remaining
            (visit s.table (supersedes (fun _ => true) insert.entityKey) superseded id)))
      | _ => none
  | .insertRow _ insert now =>
      match s.enqueuers j with
      | .superseding insert [] superseded =>
          some
            { s with
              sequence := s.sequence + 1
              enqueuers := Function.update s.enqueuers j
                (.inserted (insert.inserted now s.sequence) superseded) }
      | .opened _ =>
          -- No idempotency identity: only the audit row is written.
          if insert.idempotencyKey = none then
            some
              { s with
                sequence := s.sequence + 1
                enqueuers := Function.update s.enqueuers j
                  (.inserted (insert.inserted now s.sequence) []) }
          else
            none
      | _ => none
  | .commitEnqueue _ =>
      match s.enqueuers j with
      | .inserted row superseded =>
          match applyEnqueue row superseded s.table with
          | some table =>
              some
                { s with
                  table := table
                  enqueuers := Function.update s.enqueuers j .idle }
          | none => none
      | _ => none
  | .abortEnqueue _ => some (s.setEnqueuer j .idle)
  | _ => none

def next (s : State m n) (a : Action m n) : Option (State m n) :=
  match a with
  | .beginClaim i _ | .startCollapse i | .collapseRow i | .startClaim i | .supersedeRow i
  | .finishClaim i | .commitClaim i | .abortClaim i => nextRelay s i a
  | .beginEnqueue j _ | .lockEntity j _ | .startSupersede j | .supersedePending j
  | .insertRow j _ _ | .commitEnqueue j | .abortEnqueue j => nextEnqueuer s j a
  | .mark now mark messageId claimId =>
      if (∃ i, messageId ∈ (s.relays i).locks) ∨ ∃ j, messageId ∈ (s.enqueuers j).superseded then
        none
      else
        some { s with table := (markUpdate now mark messageId claimId s.table).1 }

def State.initial : State m n :=
  { table := Table.empty
    sequence := 1
    enqueuers := fun _ => .idle
    relays := fun _ => .idle }

def system (m n : Nat) : TransitionSystem (State m n) (Action m n) :=
  { init := fun s => s = State.initial
    next := next }

end Semantics

/-! ## What a step can do -/

section Specification

variable {m n : Nat}

/-- A row a supersede may add: free of locks, and pending as committed. -/
def Overtaken (s : State m n) (i : Fin n) (id : Uuid) : Prop :=
  lockedForRelay s i id = false ∧ ∃ row ∈ s.table, row.messageId = id ∧ row.status = .pending

/-- How a committed row changed: nothing but the assignable columns, and it is not published by
anybody but the claim that holds it. -/
structure Rewritten (claims : List OutboxRow) (r r' : OutboxRow) : Prop where
  frozen : r.frozen = r'.frozen
  publishing : r'.status = .publishing → r.status = .publishing ∨ targetOf claims r = true

/-- What a commit does to the table: `claims` are the rows it claims, `fresh` the row it adds. -/
structure Commits (claims : List OutboxRow) (fresh : Option OutboxRow) (t t' : OutboxTable) :
    Prop where
  origin : ∀ r' ∈ t', (∃ r ∈ t, Rewritten claims r r') ∨ fresh = some r'
  kept : ∀ r ∈ t, ∃ r' ∈ t', Rewritten claims r r'
  isNew : ∀ row, fresh = some row → ¬ t.HasKey row.messageId

/-- Everything a step can do. -/
inductive Step (s : State m n) (a : Action m n) (s' : State m n) : Prop where
  | relay (i : Fin n) (phase : RelayPhase) :
      (∀ c ∈ phase.candidates, c ∈ (s.relays i).candidates) →
      (∀ id ∈ phase.superseded, id ∈ (s.relays i).superseded ∨ Overtaken s i id) →
      s' = s.setRelay i phase → Step s a s'
  | select (i : Fin n) (args : ClaimArgs) (window : List OutboxRow)
      (remaining superseded : List Uuid) :
      a = .startClaim i → s.relays i = .collapsing args window [] superseded →
      s' = s.setRelay i (.claiming args (selection s i args superseded) remaining superseded) →
      Step s a s'
  | claimed (i : Fin n) :
      Commits (s.relays i).candidates none s.table s'.table →
      s'.relays = Function.update s.relays i .idle → s'.enqueuers = s.enqueuers →
      s'.sequence = s.sequence → Step s a s'
  | enqueuer (j : Fin m) (phase : EnqueuePhase) :
      phase.row? = none → s' = s.setEnqueuer j phase → Step s a s'
  | inserted (j : Fin m) (row : OutboxRow) (superseded : List Uuid) :
      row.enqueueOrder = s.sequence → row.status ≠ .publishing →
      s'.enqueuers = Function.update s.enqueuers j (.inserted row superseded) →
      s'.table = s.table → s'.relays = s.relays → s'.sequence = s.sequence + 1 → Step s a s'
  | enqueued (j : Fin m) (row : OutboxRow) :
      (s.enqueuers j).row? = some row → Commits [] (some row) s.table s'.table →
      s'.enqueuers = Function.update s.enqueuers j .idle → s'.relays = s.relays →
      s'.sequence = s.sequence → Step s a s'
  | marked :
      Commits [] none s.table s'.table → s'.relays = s.relays → s'.enqueuers = s.enqueuers →
      s'.sequence = s.sequence → Step s a s'

end Specification

section Steps

variable {m n : Nat} {s s' : State m n} {a : Action m n}

theorem Rewritten.refl (claims : List OutboxRow) (r : OutboxRow) : Rewritten claims r r :=
  { frozen := rfl
    publishing := Or.inl }

theorem Commits.refl (claims : List OutboxRow) (t : OutboxTable) : Commits claims none t t :=
  { origin := fun r' hr' => Or.inl ⟨r', hr', Rewritten.refl claims r'⟩
    kept := fun r hr => ⟨r, hr, Rewritten.refl claims r⟩
    isNew := fun _ h => nomatch h }

theorem rewritten_of_not_publishing {claims : List OutboxRow} {r r' : OutboxRow}
    (hfrozen : r.frozen = r'.frozen) (h : r'.status ≠ .publishing) : Rewritten claims r r' :=
  { frozen := hfrozen
    publishing := fun h' => absurd h' h }

theorem commits_updateWhere {claims : List OutboxRow} {t : OutboxTable} {p : OutboxRow → Bool}
    {f : OutboxRow → OutboxRow} (hf : ∀ r, (f r).messageId = r.messageId)
    (h : ∀ r ∈ t, p r = true → Rewritten claims r (f r)) :
    Commits claims none t (t.updateWhere p f hf) := by
  have hrow : ∀ r ∈ t, Rewritten claims r (if p r then f r else r) := by
    intro r hr
    by_cases hp : p r = true
    · rw [if_pos hp]
      exact h r hr hp
    · rw [if_neg hp]
      exact Rewritten.refl claims r
  refine
    { origin := ?_
      kept := ?_
      isNew := fun _ h => nomatch h }
  · intro r' hr'
    rcases Table.mem_updateWhere.1 hr' with ⟨r, hr, heq⟩
    exact Or.inl ⟨r, hr, heq ▸ hrow r hr⟩
  · intro r hr
    exact ⟨_, Table.mem_updateWhere.2 ⟨r, hr, rfl⟩, hrow r hr⟩

theorem commits_applyClaim {args : ClaimArgs} {candidates : List OutboxRow}
    {superseded : List Uuid} {t : OutboxTable} :
    Commits candidates none t (applyClaim args candidates superseded t) := by
  have hrow : ∀ r r', (∃ r₁, (if r.messageId ∈ superseded then supersedeOvertakenRow r else r) = r₁ ∧
      (if targetOf candidates r₁ then args.claim r₁ else r₁) = r') →
      Rewritten candidates r r' := by
    rintro r r' ⟨r₁, rfl, rfl⟩
    refine
      { frozen := ?_
        publishing := ?_ }
    · split <;> split <;> rfl
    · intro hpub
      by_cases hs : r.messageId ∈ superseded
      -- Superseded by this claim and `Publishing` after it: then the claim also took it.
      · simp only [if_pos hs] at hpub
        split at hpub
        · rename_i htarget
          exact Or.inr htarget
        · cases hpub
      · simp only [if_neg hs] at hpub
        split at hpub
        · rename_i htarget
          exact Or.inr htarget
        · exact Or.inl hpub
  refine
    { origin := ?_
      kept := ?_
      isNew := fun _ h => nomatch h }
  · intro r' hr'
    rcases Table.mem_updateWhere.1 hr' with ⟨r₁, hr₁, heq⟩
    rcases Table.mem_updateWhere.1 hr₁ with ⟨r, hr, heq₁⟩
    exact Or.inl ⟨r, hr, hrow r r' ⟨r₁, by simpa using heq₁, heq⟩⟩
  · intro r hr
    refine ⟨_, Table.mem_updateWhere.2 ⟨_, Table.mem_updateWhere.2 ⟨r, hr, rfl⟩, rfl⟩, ?_⟩
    exact hrow r _ ⟨_, by simp, rfl⟩

theorem commits_applyEnqueue {row : OutboxRow} {superseded : List Uuid} {t t' : OutboxTable}
    (h : applyEnqueue row superseded t = some t') : Commits [] (some row) t t' := by
  have hupd : Commits [] none t (t.updateWhere (fun r => r.messageId ∈ superseded)
      Outbox.supersedeRow messageId_supersedeRow) :=
    commits_updateWhere _ fun r _ _ => rewritten_of_not_publishing rfl (by simp [Outbox.supersedeRow])
  have hmem : ∀ r', r' ∈ t' ↔ _ := fun r' => Table.mem_of_insert? h
  refine
    { origin := ?_
      kept := ?_
      isNew := ?_ }
  · intro r' hr'
    rcases (hmem r').1 hr' with hold | rfl
    · rcases hupd.origin r' hold with horigin | hnone
      · exact Or.inl horigin
      · cases hnone
    · exact Or.inr rfl
  · intro r hr
    rcases hupd.kept r hr with ⟨r', hr', hrw⟩
    exact ⟨r', (hmem r').2 (Or.inl hr'), hrw⟩
  · intro row' hrow' hhas
    cases hrow'
    have hnone : applyEnqueue row superseded t = none :=
      Table.insert?_eq_none.2 (Table.hasKey_updateWhere.2 hhas)
    rw [hnone] at h
    cases h

theorem commits_markUpdate {now : Timestamp} {mark : Mark} {messageId claimId : Uuid}
    {t : OutboxTable} : Commits [] none t (markUpdate now mark messageId claimId t).1 := by
  refine commits_updateWhere (messageId_assign mark now) fun r _ _ =>
    rewritten_of_not_publishing frozen_assign.symm ?_
  cases mark <;> simp [Mark.assign, publishedRow, publishFailedRow]

theorem overtaken_of_visit {i : Fin n} {newer : List OutboxRow} {superseded : List Uuid}
    {id id' : Uuid} (hfree : lockedForRelay s i id = false)
    (h : id' ∈ visit s.table (overtakenBy newer) superseded id) :
    id' ∈ superseded ∨ Overtaken s i id' := by
  unfold visit at h
  split at h
  · rename_i row hrow
    split at h
    · rename_i hover
      rcases List.mem_append.1 h with hold | hnew
      · exact Or.inl hold
      · have hid : id' = id := by simpa using hnew
        rcases Table.lookup_eq_some.1 hrow with ⟨hmem, hkey⟩
        subst hid
        exact Or.inr ⟨hfree, row, hmem, hkey, (overtakenBy_iff.1 hover).1⟩
    · exact Or.inl h
  · exact Or.inl h

theorem step_relay_empty {i : Fin n} {phase : RelayPhase} (hcand : phase.candidates = [])
    (hsup : phase.superseded = []) : Step s a (s.setRelay i phase) :=
  Step.relay i phase (by simp [hcand]) (by simp [hsup]) rfl

theorem step_of_nextRelay {i : Fin n} (h : nextRelay s i a = some s')
    (ha : ∀ k, a = .startClaim k → k = i) : Step s a s' := by
  cases a with
  | beginClaim _ args =>
      simp only [nextRelay] at h
      split at h
      · cases h
        exact step_relay_empty rfl rfl
      · cases h
  | startCollapse _ =>
      simp only [nextRelay] at h
      split at h
      · cases h
        exact step_relay_empty rfl rfl
      · cases h
  | collapseRow _ =>
      simp only [nextRelay] at h
      split at h
      · rename_i hphase
        split at h
        · cases h
        · rename_i hfree
          cases h
          refine Step.relay i _ (by simp [RelayPhase.candidates]) ?_ rfl
          intro id hid
          rw [hphase]
          exact overtaken_of_visit (by simpa using hfree) hid
      · cases h
  | startClaim k =>
      simp only [nextRelay] at h
      split at h
      · rename_i hphase
        cases h
        exact Step.select i _ _ _ _ (by rw [ha k rfl]) hphase rfl
      · cases h
  | supersedeRow _ =>
      simp only [nextRelay] at h
      split at h
      · rename_i hphase
        split at h
        · cases h
        · rename_i hfree
          cases h
          refine Step.relay i _ (by simp [RelayPhase.candidates, hphase]) ?_ rfl
          intro id hid
          rw [hphase]
          exact overtaken_of_visit (by simpa using hfree) hid
      · cases h
  | finishClaim _ =>
      simp only [nextRelay] at h
      split at h
      · rename_i hphase
        cases h
        refine Step.relay i _ (by simp [RelayPhase.candidates, hphase]) ?_ rfl
        intro id hid
        rw [hphase]
        exact Or.inl hid
      · cases h
  | commitClaim _ =>
      simp only [nextRelay] at h
      split at h
      · rename_i hphase
        cases h
        refine Step.claimed i ?_ rfl rfl rfl
        rw [hphase]
        exact commits_applyClaim
      · cases h
  | abortClaim _ =>
      cases h
      exact step_relay_empty rfl rfl
  | _ => cases h

theorem status_inserted_ne_publishing {insert : InsertOutboxRow} {now : Timestamp} {order : Nat} :
    (insert.inserted now order).status ≠ .publishing := by
  rw [status_inserted]
  split <;> simp

theorem step_of_nextEnqueuer {j : Fin m} (h : nextEnqueuer s j a = some s') : Step s a s' := by
  cases a with
  | beginEnqueue _ fixed =>
      simp only [nextEnqueuer] at h
      split at h
      · cases h
        exact Step.enqueuer j _ rfl rfl
      · cases h
  | lockEntity _ insert =>
      simp only [nextEnqueuer] at h
      split at h
      · split at h
        · cases h
          exact Step.enqueuer j _ rfl rfl
        · cases h
      · cases h
  | startSupersede _ =>
      simp only [nextEnqueuer] at h
      split at h
      · cases h
        exact Step.enqueuer j _ rfl rfl
      · cases h
  | supersedePending _ =>
      simp only [nextEnqueuer] at h
      split at h
      · split at h
        · cases h
        · cases h
          exact Step.enqueuer j _ rfl rfl
      · cases h
  | insertRow _ insert now =>
      simp only [nextEnqueuer] at h
      split at h
      · cases h
        exact Step.inserted j _ _ enqueueOrder_inserted status_inserted_ne_publishing rfl rfl rfl rfl
      · split at h
        · cases h
          exact Step.inserted j _ _ enqueueOrder_inserted status_inserted_ne_publishing rfl rfl rfl rfl
        · cases h
      · cases h
  | commitEnqueue _ =>
      simp only [nextEnqueuer] at h
      split at h
      · rename_i row superseded hphase
        split at h
        · rename_i table htable
          cases h
          exact Step.enqueued j row (by rw [hphase]; rfl) (commits_applyEnqueue htable) rfl rfl rfl
        · cases h
      · cases h
  | abortEnqueue _ =>
      cases h
      exact Step.enqueuer j _ rfl rfl
  | _ => cases h

theorem step_of_next (h : (system m n).next s a = some s') : Step s a s' := by
  cases a with
  | mark now mark messageId claimId =>
      simp only [system, next] at h
      split at h
      · cases h
      · cases h
        exact Step.marked commits_markUpdate rfl rfl rfl
  | beginClaim i _ | startCollapse i | collapseRow i | startClaim i | supersedeRow i
  | finishClaim i | commitClaim i | abortClaim i =>
      exact step_of_nextRelay h (by simp)
  | beginEnqueue j _ | lockEntity j _ | startSupersede j | supersedePending j
  | insertRow j _ _ | commitEnqueue j | abortEnqueue j =>
      exact step_of_nextEnqueuer h

end Steps

end Statement
end Outbox
end Kafkaman
