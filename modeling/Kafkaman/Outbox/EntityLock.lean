import Kafkaman.Outbox.InFlight
import Kafkaman.Schema.LockKeys

/-!
# Outbox.EntityLock — the lock of an entity is a lock on a hash

`Outbox.Statement` gives every entity a lock of its own.  The database only has locks on integers:
`lock_outbox_entity` takes the one on the entity's key, and whoever else holds that integer makes it
wait, be it an enqueue of another entity, of another outbox, or a migration.

* `hashedSystem` — the statements of an outbox, with locks on keys;
* `refines_statement` — its runs are runs of `Outbox.Statement`, so sharing a key breaks nothing;
* `exclusive_of_reachable` — no two enqueues under way hold the same key;
* `waits_only_on_collision` — an enqueue whose entity is free waits only where the hash collides;
* `hashed_locks_exclude` — the three together, along every run.
-/

namespace Kafkaman
namespace Outbox
namespace Statement

open Lib
open Lib.Fnv (Collide fnv64)
open Schema (LockSubject outboxEntityLockKey outboxEntityLockKey_eq)

/-! ## Locks on keys -/

/-- A statement, and what transactions of other outboxes and migrations have locked when it runs. -/
structure HashedAction (m n : Nat) where
  action : Action m n
  elsewhere : List LockSubject

section Semantics

variable {m n : Nat} (table : Schema.Relation)

/-- Whether the key of the entity is held by anyone but enqueuer `j`. -/
def keyHeld (elsewhere : List LockSubject) (s : State m n) (j : Fin m) (entityKey : String) :
    Bool :=
  decide (∃ k, k ≠ j ∧ (s.enqueuers k).entityLock.any (fun held =>
      outboxEntityLockKey table held = outboxEntityLockKey table entityKey) = true) ||
    elsewhere.any fun subject => subject.key = outboxEntityLockKey table entityKey

/-- The statements of `Outbox.Statement`, with `lock_outbox_entity` on the entity's key. -/
def nextHashed (s : State m n) (a : HashedAction m n) : Option (State m n) :=
  match a.action with
  | .lockEntity j insert =>
      match s.enqueuers j with
      | .opened fixed =>
          if insert.idempotencyKey.isSome = true ∧
              keyHeld table a.elsewhere s j insert.entityKey = false then
            some (s.setEnqueuer j (.locked fixed insert))
          else
            none
      | _ => none
  | action => next s action

def hashedSystem (m n : Nat) : TransitionSystem (State m n) (HashedAction m n) :=
  { init := (system m n).init
    next := nextHashed table }

end Semantics

section Locks

variable {m n : Nat} {table : Schema.Relation} {s s' : State m n}

theorem keyHeld_eq_false {elsewhere : List LockSubject} {j : Fin m} {entityKey : String} :
    keyHeld table elsewhere s j entityKey = false ↔
      (∀ k, k ≠ j → ∀ held, (s.enqueuers k).entityLock = some held →
        outboxEntityLockKey table held ≠ outboxEntityLockKey table entityKey) ∧
      ∀ subject ∈ elsewhere, subject.key ≠ outboxEntityLockKey table entityKey := by
  simp [keyHeld, Option.any_eq_true]

/-! ## Refinement -/

theorem next_of_nextHashed {a : HashedAction m n} (h : nextHashed table s a = some s') :
    next s a.action = some s' := by
  rcases a with ⟨action, elsewhere⟩
  cases action with
  | lockEntity j insert =>
      simp only [nextHashed] at h
      split at h
      · rename_i fixed hphase
        split at h
        · rename_i hfree
          have hentity : ¬ ∃ k, k ≠ j ∧ (s.enqueuers k).entityLock = some insert.entityKey := by
            rintro ⟨k, hk, hheld⟩
            exact (keyHeld_eq_false.1 hfree.2).1 k hk _ hheld rfl
          -- Equal entities have equal keys, so a free key is a free entity.
          simp only [next, nextEnqueuer, hphase]
          rw [if_pos ⟨hfree.1, hentity⟩]
          exact h
        · cases h
      · cases h
  | _ => exact h

theorem refines_statement (table : Schema.Relation) (m n : Nat) :
    TransitionSystem.Refines (hashedSystem table m n) (fun _ _ => True) (system m n)
      (fun _ _ => True) id :=
  { start := fun _ h => h
    step := fun _ a _ _ h => Or.inr ⟨a.action, trivial, next_of_nextHashed h⟩ }

/-! ## Exclusion -/

theorem entityLock_setEnqueuer {j : Fin m} {phase : EnqueuePhase} {k : Fin m} {e : String}
    (hphase : phase.entityLock = some e → (s.enqueuers j).entityLock = some e)
    (h : ((Function.update s.enqueuers j phase) k).entityLock = some e) :
    (s.enqueuers k).entityLock = some e := by
  rw [Function.update_apply] at h
  split at h
  · rename_i hk
    exact hk ▸ hphase h
  · exact h

theorem entityLock_inserted {insert : InsertOutboxRow} {now : Timestamp} {order : Nat}
    {superseded : List Uuid} :
    (EnqueuePhase.inserted (insert.inserted now order) superseded).entityLock =
      insert.idempotencyKey.map fun _ => insert.entityKey := by
  cases hkey : insert.idempotencyKey with
  | none =>
      simp [EnqueuePhase.entityLock, InsertOutboxRow.inserted, InsertOutboxRow.row, hkey]
  | some key =>
      simp [EnqueuePhase.entityLock, InsertOutboxRow.inserted, InsertOutboxRow.row, hkey]

theorem enqueuers_of_nextRelay {i : Fin n} {a : Action m n} (h : nextRelay s i a = some s') :
    s'.enqueuers = s.enqueuers := by
  unfold nextRelay at h
  -- Every branch leaves the enqueuers alone or is not enabled.
  split at h <;> (try split at h) <;> (try split at h) <;> cases h <;> rfl

theorem entityLock_of_nextEnqueuer {j k : Fin m} {a : Action m n} {e : String}
    (ha : ∀ i insert, a ≠ .lockEntity i insert) (h : nextEnqueuer s j a = some s')
    (hheld : (s'.enqueuers k).entityLock = some e) : (s.enqueuers k).entityLock = some e := by
  cases a with
  | beginEnqueue _ fixed =>
      simp only [nextEnqueuer] at h
      split at h
      · cases h
        exact entityLock_setEnqueuer (fun hnone => by cases hnone) hheld
      · cases h
  | lockEntity i insert =>
      exact absurd rfl (ha i insert)
  | startSupersede _ =>
      simp only [nextEnqueuer] at h
      split at h
      · rename_i fixed insert hphase
        cases h
        refine entityLock_setEnqueuer (fun hlock => ?_) hheld
        rcases Option.map_eq_some_iff.1 hlock with ⟨_, _, rfl⟩
        rw [hphase]
        rfl
      · cases h
  | supersedePending _ =>
      simp only [nextEnqueuer] at h
      split at h
      · rename_i insert id remaining superseded hphase
        split at h
        · cases h
        · cases h
          refine entityLock_setEnqueuer (fun hlock => ?_) hheld
          rw [hphase]
          exact hlock
      · cases h
  | insertRow _ insert now =>
      simp only [nextEnqueuer] at h
      split at h
      · rename_i insert' superseded hphase
        cases h
        refine entityLock_setEnqueuer (fun hlock => ?_) hheld
        rw [entityLock_inserted] at hlock
        rw [hphase]
        exact hlock
      · split at h
        · rename_i hkey
          cases h
          refine entityLock_setEnqueuer (fun hlock => ?_) hheld
          -- The audit row of a request without an identity was written without a lock.
          rw [entityLock_inserted, hkey] at hlock
          cases hlock
        · cases h
      · cases h
  | commitEnqueue _ =>
      simp only [nextEnqueuer] at h
      split at h
      · split at h
        · cases h
          exact entityLock_setEnqueuer (fun hnone => by cases hnone) hheld
        · cases h
      · cases h
  | abortEnqueue _ =>
      cases h
      exact entityLock_setEnqueuer (fun hnone => by cases hnone) hheld
  | _ => cases h

theorem entityLock_of_next {k : Fin m} {a : Action m n} {e : String}
    (ha : ∀ i insert, a ≠ .lockEntity i insert) (h : next s a = some s')
    (hheld : (s'.enqueuers k).entityLock = some e) : (s.enqueuers k).entityLock = some e := by
  cases a with
  | mark now mark messageId claimId =>
      simp only [next] at h
      split at h
      · cases h
      · cases h
        exact hheld
  | lockEntity i insert =>
      exact absurd rfl (ha i insert)
  | beginClaim i _ | startCollapse i | collapseRow i | startClaim i | supersedeRow i
  | finishClaim i | commitClaim i | abortClaim i =>
      simp only [next] at h
      rwa [enqueuers_of_nextRelay h] at hheld
  | beginEnqueue j _ | startSupersede j | supersedePending j | insertRow j _ _ | commitEnqueue j
  | abortEnqueue j =>
      exact entityLock_of_nextEnqueuer ha h hheld

/-- What a step does to the locks: it takes none, or one whose key was free. -/
theorem locks_of_nextHashed {a : HashedAction m n} (h : nextHashed table s a = some s') :
    (∀ k e, (s'.enqueuers k).entityLock = some e → (s.enqueuers k).entityLock = some e) ∨
      ∃ j entityKey, keyHeld table a.elsewhere s j entityKey = false ∧
        ∀ k, (s'.enqueuers k).entityLock =
          if k = j then some entityKey else (s.enqueuers k).entityLock := by
  rcases a with ⟨action, elsewhere⟩
  cases action with
  | lockEntity j insert =>
      simp only [nextHashed] at h
      split at h
      · split at h
        · rename_i hfree
          cases h
          refine Or.inr ⟨j, insert.entityKey, hfree.2, fun k => ?_⟩
          simp only [State.setEnqueuer, Function.update_apply]
          split
          · rfl
          · rfl
        · cases h
      · cases h
  | _ => exact Or.inl fun k e => entityLock_of_next (by simp) (next_of_nextHashed h)

/-- No two transactions under way hold the same key. -/
def KeysExclusive (table : Schema.Relation) (s : State m n) : Prop :=
  ∀ j k e e', j ≠ k → (s.enqueuers j).entityLock = some e → (s.enqueuers k).entityLock = some e' →
    outboxEntityLockKey table e ≠ outboxEntityLockKey table e'

theorem keysExclusive_step {a : HashedAction m n} (hs : KeysExclusive table s)
    (h : nextHashed table s a = some s') : KeysExclusive table s' := by
  intro j k e e' hne hj hk
  rcases locks_of_nextHashed h with hold | ⟨i, entityKey, hfree, hlocks⟩
  · exact hs j k e e' hne (hold j e hj) (hold k e' hk)
  · have hothers := (keyHeld_eq_false.1 hfree).1
    rw [hlocks] at hj hk
    -- The lock just taken is one of the two, or neither of them is new.
    by_cases hji : j = i
    · have hki : k ≠ i := fun hki => hne (hji.trans hki.symm)
      rw [if_pos hji, Option.some.injEq] at hj
      rw [if_neg hki] at hk
      exact hj ▸ (hothers k hki e' hk).symm
    · rw [if_neg hji] at hj
      by_cases hki : k = i
      · rw [if_pos hki, Option.some.injEq] at hk
        exact hk ▸ hothers j hji e hj
      · rw [if_neg hki] at hk
        exact hs j k e e' hne hj hk

/-- Along every run, whatever is locked elsewhere. -/
theorem exclusive_of_reachable (h : (hashedSystem table m n).Reachable s) :
    KeysExclusive table s := by
  refine TransitionSystem.Reachable.invariant (I := KeysExclusive table) ?_ ?_ h
  · rintro s rfl j k e e' _ hj
    cases hj
  · intro s a s' hs hnext
    exact keysExclusive_step hs hnext

/-! ## Waiting -/

/-- What the other transactions have locked when enqueuer `j` asks for its lock. -/
def HeldByOthers (table : Schema.Relation) (elsewhere : List LockSubject) (s : State m n)
    (j : Fin m) (subject : LockSubject) : Prop :=
  subject ∈ elsewhere ∨
    ∃ k, k ≠ j ∧ ∃ e, (s.enqueuers k).entityLock = some e ∧ subject = table.lockSubject e

theorem exists_of_keyHeld {elsewhere : List LockSubject} {j : Fin m} {entityKey : String}
    (h : keyHeld table elsewhere s j entityKey = true) :
    ∃ subject, HeldByOthers table elsewhere s j subject ∧
      subject.key = (table.lockSubject entityKey).key := by
  by_contra hnone
  push Not at hnone
  have hfree : keyHeld table elsewhere s j entityKey = false := by
    refine keyHeld_eq_false.2 ⟨?_, ?_⟩
    · intro k hk held hheld
      rw [outboxEntityLockKey_eq, outboxEntityLockKey_eq]
      exact hnone _ (Or.inr ⟨k, hk, held, hheld, rfl⟩)
    · intro subject hsubject
      rw [outboxEntityLockKey_eq]
      exact hnone subject (Or.inl hsubject)
  rw [h] at hfree
  cases hfree

/-- An enqueue whose entity nobody has locked waits only where the hash collides. -/
theorem waits_only_on_collision {j : Fin m} {insert : InsertOutboxRow}
    {elsewhere : List LockSubject} (helsewhere : table.lockSubject insert.entityKey ∉ elsewhere)
    (hentity : next s (.lockEntity j insert) = some s')
    (hwaits : nextHashed table s { action := .lockEntity j insert, elsewhere := elsewhere } = none) :
    ∃ subject, HeldByOthers table elsewhere s j subject ∧
      Collide fnv64.hash subject.bytes (table.lockSubject insert.entityKey).bytes := by
  simp only [next, nextEnqueuer] at hentity
  simp only [nextHashed] at hwaits
  split at hentity
  · rename_i fixed hphase
    split at hentity
    · rename_i hfree
      have hheld : keyHeld table elsewhere s j insert.entityKey = true := by
        by_contra hnot
        have hunheld : keyHeld table elsewhere s j insert.entityKey = false := by
          simpa using hnot
        rw [hphase] at hwaits
        simp [hfree.1, hunheld] at hwaits
      rcases exists_of_keyHeld hheld with ⟨subject, hsubject, hkey⟩
      refine ⟨subject, hsubject, ?_⟩
      rcases LockSubject.key_eq_iff.1 hkey with hsame | hcollide
      · -- Not the entity itself: that one is free here and not locked elsewhere.
        exfalso
        rcases hsubject with hmem | ⟨k, hk, e, he, rfl⟩
        · exact helsewhere (hsame ▸ hmem)
        · refine hfree.2 ⟨k, hk, ?_⟩
          rw [he]
          simpa [Schema.Relation.lockSubject] using hsame
      · exact hcollide
    · cases hentity
  · cases hentity

/-- **Locks on hashed keys are locks on entities**: whatever else of ours is locked on the same
integers, every run of the enqueues and claims of an outbox is one in which each entity has a lock of
its own, and no two enqueues under way have locked one entity.  An enqueue that asks for the lock of
a free entity gets it, unless the bytes it hashes collide with those of a lock somebody holds. -/
theorem hashed_locks_exclude (table : Schema.Relation)
    (h : (hashedSystem table m n).Reachable s) :
    (system m n).Reachable s ∧
      (∀ j k e, (s.enqueuers j).entityLock = some e → (s.enqueuers k).entityLock = some e →
        j = k) ∧
      ∀ j insert elsewhere s', table.lockSubject insert.entityKey ∉ elsewhere →
        next s (.lockEntity j insert) = some s' →
        nextHashed table s { action := .lockEntity j insert, elsewhere := elsewhere } = some s' ∨
          ∃ subject, HeldByOthers table elsewhere s j subject ∧
            Collide fnv64.hash subject.bytes (table.lockSubject insert.entityKey).bytes := by
  refine ⟨(refines_statement table m n).reachableBy h, ?_, ?_⟩
  · intro j k e hj hk
    by_contra hne
    exact exclusive_of_reachable h j k e e hne hj hk rfl
  · intro j insert elsewhere s' helsewhere hentity
    cases hhashed : nextHashed table s
        { action := .lockEntity j insert, elsewhere := elsewhere } with
    | some s'' =>
        left
        rw [← next_of_nextHashed hhashed]
        exact hentity
    | none =>
        exact Or.inr (waits_only_on_collision helsewhere hentity hhashed)

/-- One enqueue has its entity locked; another gets the lock of a second entity. -/
theorem hashed_locks_exclude_two_entities :
    let table : Schema.Relation :=
      { schema := ⟨"app"⟩
        table := ⟨"outbox_snapshot"⟩
        descriptor := Snapshot.descriptor }
    ∃ s : State 2 1, (hashedSystem table 2 1).Reachable s ∧
      (s.enqueuers 0).entityLock = some "a" ∧ (s.enqueuers 1).entityLock = some "b" ∧
      (system 2 1).Reachable s := by
  intro table
  obtain ⟨s, hreach, ha, hb⟩ := TransitionSystem.exists_reachable_of_run
    (Q := fun s : State 2 1 =>
      (s.enqueuers 0).entityLock = some "a" ∧ (s.enqueuers 1).entityLock = some "b")
    (TransitionSystem.Reachable.start (S := hashedSystem table 2 1) rfl)
    [⟨.beginEnqueue 0 false, []⟩, ⟨.lockEntity 0 (snapshotInsert 1 "a"), []⟩,
      ⟨.beginEnqueue 1 false, []⟩, ⟨.lockEntity 1 (snapshotInsert 2 "b"), []⟩]
    (by decide +kernel)
  exact ⟨s, hreach, ha, hb, (hashed_locks_exclude table hreach).1⟩

end Locks

end Statement
end Outbox
end Kafkaman
