import Kafkaman.Ingest.Accounting

/-!
# Ingest.Group — a consumer group on one partition

`Ingest.Accounting` has one session at a time and a committed offset that only its session moves.
Here the members of a group overlap: a member goes on after the partition was assigned to another
one, and its synchronous commit, which asked for an offset and may have failed at the client, reaches
the broker late, again, or after a newer one.  The broker takes the last request it sees, so the
committed offset also moves back.  Meanwhile dispatchers assign the mutable columns of the rows.

* `groupSystem` — members, requested and committed offsets, and the records a session went past;
* `Covered` — the invariant, over everything taken, requested and committed;
* `group_acknowledged` — no record below the committed offset is without a row, except those that a
  session abandoned and then went past.
-/

namespace Kafkaman
namespace Ingest
namespace Group

open Lib Broker Received

/-! ## The group -/

/-- A process with the partition assigned, or with an assignment it has not lost sight of. -/
structure Member where
  /-- The offset `recv` returns next. -/
  position : Nat
  /-- The breaker's counter, which lives as long as the process. -/
  skips : Nat
  running : Bool
  /-- History: the record whose cycle was the last, if it was not seen to be written. -/
  abandoned : Option Nat

structure GroupState (n : Nat) where
  received : ReceivedTable
  quarantine : QuarantineTable
  /-- The offset the broker hands to a new assignment. -/
  committed : Nat
  /-- History: the offsets members have asked the broker to commit. -/
  requested : List Nat
  members : Fin n → Member
  /-- History: the abandoned records after which the same session took another. -/
  passed : List Nat

inductive GroupAction (n : Nat)
  | cycle (i : Fin n) (env : CycleEnv)
  /-- A request arrives, for the first time or again. -/
  | land (offset : Nat)
  | assign (i : Fin n)
  | restart (i : Fin n)
  /-- A dispatcher's statement, which assigns no frozen column. -/
  | dispatch (p : ReceivedRow → Bool) (f : ReceivedRow → ReceivedRow)
      (hf : ∀ r, (f r).frozen = r.frozen)

section Semantics

variable {P : Type} (consumer : Consumer P) (partition : Int) (log : Nat → KafkaRecord) {n : Nat}

/-- What a member with a breaker count of `skips` works on. -/
def GroupState.store (s : GroupState n) (skips : Nat) : Store :=
  { received := s.received
    quarantine := s.quarantine
    skips := skips
    committed := s.committed }

/-- What a cycle asks the broker for: nothing before its write, nor when the breaker trips. -/
def requestedBy (position : Nat) (result : CycleResult) : List Nat :=
  if result.written && !result.trips then [position + 1] else []

/-- A member takes the record at its position. -/
def take (env : CycleEnv) (i : Fin n) (s : GroupState n) : GroupState n :=
  let member := s.members i
  let result := ingestOnce consumer env (recordAt partition log member.position)
    (s.store member.skips)
  { received := result.store.received
    quarantine := result.store.quarantine
    committed := result.store.committed
    requested := s.requested ++ requestedBy member.position result
    members := Function.update s.members i
      { position := member.position + 1
        skips := result.store.skips
        running := !env.cancelled && !result.trips
        abandoned := if result.written then none else some member.position }
    passed := s.passed ++ member.abandoned.toList }

/-- The member starts at the committed offset. -/
def Member.resume (member : Member) (committed : Nat) : Member :=
  { member with
    position := committed
    abandoned := none }

def nextGroup (s : GroupState n) : GroupAction n → Option (GroupState n)
  | .cycle i env =>
      if (s.members i).running then
        match env.fails .recv with
        | some _ =>
            some { s with
              members := Function.update s.members i
                { s.members i with running := !env.cancelled } }
        | none => some (take consumer partition log env i s)
      else
        none
  | .land offset => if offset ∈ s.requested then some { s with committed := offset } else none
  | .assign i =>
      some { s with
        members := Function.update s.members i ((s.members i).resume s.committed) }
  | .restart i =>
      some { s with
        members := Function.update s.members i
          { (s.members i).resume s.committed with
            skips := 0
            running := true } }
  | .dispatch p f hf => some { s with received := s.received.updateWhere p f hf }

/-- The relations may hold other partitions' rows from the start. -/
def groupSystem (n : Nat) : TransitionSystem (GroupState n) (GroupAction n) :=
  { init := fun s =>
      s.committed = 0 ∧ s.requested = [] ∧ (∀ i, (s.members i).position = 0)
    next := nextGroup consumer partition log }

end Semantics

/-! ## What stays accounted for -/

section Accounts

variable {P : Type} (consumer : Consumer P) (partition : Int) (log : Nat → KafkaRecord) {n : Nat}

/-- The record has a row in one of the relations, or a session went past it. -/
def AccountedOrPassed (s : GroupState n) (k : Nat) : Prop :=
  Accounted consumer.codec (s.store 0) (recordAt partition log k) ∨ k ∈ s.passed

/-- Rows keep their frozen columns, and the history grows. -/
structure Grows (s s' : GroupState n) : Prop where
  received : s.received.Persists s'.received
  quarantine : ∀ source, s.quarantine.HasKey source → s'.quarantine.HasKey source
  passed : s.passed ⊆ s'.passed

variable {consumer partition log}

theorem Grows.of_tables {s s' : GroupState n} (hreceived : s'.received = s.received)
    (hquarantine : s'.quarantine = s.quarantine) (hpassed : s'.passed = s.passed) : Grows s s' :=
  { received := by
      rw [hreceived]
      exact ReceivedTable.Persists.refl _
    quarantine := by
      rw [hquarantine]
      exact fun _ h => h
    passed := by
      rw [hpassed]
      exact List.Subset.refl _ }

theorem AccountedOrPassed.mono {s s' : GroupState n} {k : Nat} (h : Grows s s')
    (hk : AccountedOrPassed consumer partition log s k) :
    AccountedOrPassed consumer partition log s' k := by
  rcases hk with (⟨r, hr, htopic, hpartition, hoffset⟩ | ⟨r, hr, hkey⟩ | hsource) | hpassed
  · rcases h.received r hr with ⟨r', hr', hfrozen⟩
    refine Or.inl (Or.inl ⟨r', hr', ?_⟩)
    have hsame : r'.sourceTopic = r.sourceTopic ∧ r'.sourcePartition = r.sourcePartition ∧
        r'.sourceOffset = r.sourceOffset := by
      change r'.frozen.sourceTopic = _ ∧ r'.frozen.sourcePartition = _ ∧
        r'.frozen.sourceOffset = _
      rw [hfrozen]
      exact ⟨rfl, rfl, rfl⟩
    exact ⟨hsame.1.trans htopic, hsame.2.1.trans hpartition, hsame.2.2.trans hoffset⟩
  · rcases h.received r hr with ⟨r', hr', hfrozen⟩
    exact Or.inl (Or.inr (Or.inl ⟨r', hr', by rw [hkey, idempotencyKey_of_frozen hfrozen]⟩))
  · exact Or.inl (Or.inr (Or.inr (h.quarantine _ hsource)))
  · exact Or.inr (h.passed hpassed)

/-! ## The invariant -/

/-- Below every offset that is committed or asked for, and below every position, each record has a
row or was gone past; a member's last record may be the exception at its position. -/
structure Covered (consumer : Consumer P) (partition : Int) (log : Nat → KafkaRecord)
    (s : GroupState n) : Prop where
  acknowledged : ∀ offset, offset = s.committed ∨ offset ∈ s.requested → ∀ k < offset,
    AccountedOrPassed consumer partition log s k
  taken : ∀ i, ∀ k < (s.members i).position,
    AccountedOrPassed consumer partition log s k ∨ (s.members i).abandoned = some k

theorem Covered.of_acknowledged {s s' : GroupState n} (h : Covered consumer partition log s)
    (hgrows : Grows s s')
    (hoffsets : ∀ offset, offset = s'.committed ∨ offset ∈ s'.requested →
      offset = s.committed ∨ offset ∈ s.requested)
    (htaken : ∀ i, ∀ k < (s'.members i).position,
      AccountedOrPassed consumer partition log s k ∨ (s'.members i).abandoned = some k) :
    Covered consumer partition log s' :=
  { acknowledged := fun offset hoffset k hk =>
      (h.acknowledged offset (hoffsets offset hoffset) k hk).mono hgrows
    taken := fun i k hk => (htaken i k hk).imp_left fun hk => hk.mono hgrows }

/-- A member changed by itself: its own taken records are all there is to see to. -/
theorem Covered.setMember {s : GroupState n} {i : Fin n} {member : Member}
    (h : Covered consumer partition log s)
    (htaken : ∀ k < member.position,
      AccountedOrPassed consumer partition log s k ∨ member.abandoned = some k) :
    Covered consumer partition log { s with members := Function.update s.members i member } := by
  refine h.of_acknowledged (Grows.of_tables rfl rfl rfl) (fun _ hoffset => hoffset) ?_
  intro j k hk
  by_cases hj : j = i
  · subst hj
    simp only [Function.update_self] at hk ⊢
    exact htaken k hk
  · simp only [Function.update_of_ne hj] at hk ⊢
    exact h.taken j k hk

theorem Covered.resume {s : GroupState n} {i : Fin n} {member : Member}
    (h : Covered consumer partition log s) (hposition : member.position = s.committed) :
    Covered consumer partition log { s with members := Function.update s.members i member } := by
  refine h.setMember ?_
  intro k hk
  rw [hposition] at hk
  exact Or.inl (h.acknowledged s.committed (Or.inl rfl) k hk)

/-! ### A record is taken -/

section Take

variable {s : GroupState n} {env : CycleEnv} {i : Fin n}

/-- The cycle that `take` runs. -/
abbrev cycleAt (consumer : Consumer P) (partition : Int) (log : Nat → KafkaRecord) (env : CycleEnv)
    (i : Fin n) (s : GroupState n) : CycleResult :=
  ingestOnce consumer env (recordAt partition log (s.members i).position)
    (s.store (s.members i).skips)

theorem cycle_cycleAt :
    Cycle consumer.codec (recordAt partition log (s.members i).position)
      (s.store (s.members i).skips) (cycleAt consumer partition log env i s) :=
  cycle_ingestOnce

theorem grows_take : Grows s (take consumer partition log env i s) :=
  have hcycle : Cycle consumer.codec _ _ (cycleAt consumer partition log env i s) := cycle_cycleAt
  { received := fun r hr => ⟨r, hcycle.received r hr, rfl⟩
    quarantine := hcycle.quarantine
    passed := List.subset_append_left _ _ }

theorem Covered.below_take (h : Covered consumer partition log s) :
    ∀ k < (s.members i).position,
      AccountedOrPassed consumer partition log (take consumer partition log env i s) k := by
  intro k hk
  rcases h.taken i k hk with hk | habandoned
  · exact hk.mono grows_take
  · exact Or.inr (List.mem_append_right _ (by simp [habandoned]))

theorem Covered.through_take (h : Covered consumer partition log s)
    (hwritten : (cycleAt consumer partition log env i s).written = true) :
    ∀ k < (s.members i).position + 1,
      AccountedOrPassed consumer partition log (take consumer partition log env i s) k := by
  intro k hk
  rcases Nat.lt_succ_iff_lt_or_eq.1 hk with hlt | rfl
  · exact h.below_take k hlt
  · exact Or.inl (cycle_cycleAt.accounted hwritten)

theorem offset_of_take {offset : Nat}
    (h : offset = (take consumer partition log env i s).committed ∨
      offset ∈ (take consumer partition log env i s).requested) :
    (offset = s.committed ∨ offset ∈ s.requested) ∨
      (cycleAt consumer partition log env i s).written = true ∧
        offset = (s.members i).position + 1 := by
  have hcycle : Cycle consumer.codec _ _ (cycleAt consumer partition log env i s) := cycle_cycleAt
  rcases h with heq | hmem
  · rcases hcycle.committed with hsame | ⟨hwritten, hmoved⟩
    · exact Or.inl (Or.inl (heq.trans hsame))
    · exact Or.inr ⟨hwritten, heq.trans (hmoved.trans (by simp [recordAt]))⟩
  · rcases List.mem_append.1 hmem with hmem | hmem
    · exact Or.inl (Or.inr hmem)
    · unfold requestedBy at hmem
      split at hmem
      · rename_i hwritten
        exact Or.inr ⟨(Bool.and_eq_true_iff.1 hwritten).1, List.mem_singleton.1 hmem⟩
      · cases hmem

theorem Covered.take (h : Covered consumer partition log s) (env : CycleEnv) :
    Covered consumer partition log (take consumer partition log env i s) := by
  refine
    { acknowledged := ?_
      taken := ?_ }
  · intro offset hoffset k hk
    rcases offset_of_take hoffset with hold | ⟨hwritten, rfl⟩
    · exact (h.acknowledged offset hold k hk).mono grows_take
    · exact h.through_take hwritten k hk
  · intro j k hk
    by_cases hj : j = i
    · subst hj
      simp only [Group.take, Function.update_self] at hk ⊢
      by_cases hwritten : (cycleAt consumer partition log env j s).written = true
      · exact Or.inl (h.through_take hwritten k hk)
      · rcases Nat.lt_succ_iff_lt_or_eq.1 hk with hlt | rfl
        · exact Or.inl (h.below_take k hlt)
        · exact Or.inr (if_neg hwritten)
    · simp only [Group.take, Function.update_of_ne hj] at hk ⊢
      exact (h.taken j k hk).imp_left fun hk => hk.mono grows_take

end Take

theorem Covered.step {s s' : GroupState n} {a : GroupAction n}
    (h : Covered consumer partition log s)
    (hnext : nextGroup consumer partition log s a = some s') :
    Covered consumer partition log s' := by
  cases a with
  | cycle i env =>
      simp only [nextGroup] at hnext
      split at hnext
      · split at hnext
        · cases hnext
          exact h.setMember fun k hk => h.taken i k hk
        · cases hnext
          exact h.take env
      · cases hnext
  | land offset =>
      simp only [nextGroup] at hnext
      split at hnext
      · rename_i hrequested
        cases hnext
        refine h.of_acknowledged (Grows.of_tables rfl rfl rfl) ?_ h.taken
        rintro other (rfl | hmem)
        · exact Or.inr hrequested
        · exact Or.inr hmem
      · cases hnext
  | assign i =>
      cases hnext
      exact h.resume rfl
  | restart i =>
      cases hnext
      exact h.resume rfl
  | dispatch p f hf =>
      cases hnext
      refine h.of_acknowledged ?_ (fun _ hoffset => hoffset) h.taken
      exact
        { received := ReceivedTable.persists_updateWhere hf
          quarantine := fun _ hsource => hsource
          passed := List.Subset.refl _ }

theorem covered_of_reachable {s : GroupState n}
    (h : (groupSystem consumer partition log n).Reachable s) :
    Covered consumer partition log s := by
  refine TransitionSystem.Reachable.invariant ?_ ?_ h
  · rintro s ⟨hcommitted, hrequested, hposition⟩
    refine
      { acknowledged := ?_
        taken := ?_ }
    · rintro offset (rfl | hmem) k hk
      · omega
      · rw [hrequested] at hmem
        cases hmem
    · intro i k hk
      rw [hposition] at hk
      omega
  · intro s a s' hs hnext
    exact hs.step hnext

end Accounts

/-- **What a group acknowledges**: however assignments overlap and commits arrive, a record below
the committed offset is stored, a duplicate, or quarantined, unless a session abandoned it and took
another record after it. -/
theorem group_acknowledged {P : Type} (consumer : Consumer P) (partition : Int)
    (log : Nat → KafkaRecord) (n : Nat) {s : GroupState n}
    (h : (groupSystem consumer partition log n).Reachable s) :
    ∀ k < s.committed,
      Accounted consumer.codec (s.store 0) (recordAt partition log k) ∨ k ∈ s.passed :=
  (covered_of_reachable h).acknowledged s.committed (Or.inl rfl)

/-- A cycle of a member over a record of `textLog`. -/
def textTurn (i : Fin 2) (id : Uuid) (stopped : Option Point) : GroupAction 2 :=
  .cycle i
    { arrival := { messageId := id, correlationId := id, now := 0 }
      trace := none
      now := 0
      fails := fun point => if some point = stopped then some "connection reset" else none
      lands := false
      cancelled := false }

def noRecords : GroupState 2 :=
  { received := ReceivedTable.empty
    quarantine := Table.empty
    committed := 0
    requested := []
    members := fun _ => { position := 0, skips := 0, running := true, abandoned := none }
    passed := [] }

/-- Member `i` loses the partition in the middle of record 1; member `j` takes both records and
commits past them, whereupon the commit of record 0 arrives a second time and is overtaken again. -/
def overlapping (i j : Fin 2) : List (GroupAction 2) :=
  [textTurn i 1 none, textTurn i 2 (some .commitStore), .assign j, textTurn j 3 none,
    textTurn j 4 none, .land 1, .assign i, textTurn i 5 none, .land 3]

theorem group_acknowledged_overlapping :
    ∃ s, (groupSystem textConsumer 0 textLog 2).Reachable s ∧ s.committed = 3 ∧
      s.received.rows.length = 3 ∧
      ∀ k < 3, Accounted Spelling.codec (s.store 0) (recordAt 0 textLog k) := by
  have hstart : (groupSystem textConsumer 0 textLog 2).Reachable noRecords :=
    TransitionSystem.Reachable.start ⟨rfl, rfl, fun _ => rfl⟩
  obtain ⟨s, hreach, hcommitted, hrows, hpassed⟩ := TransitionSystem.exists_reachable_of_run
    (Q := fun s => s.committed = 3 ∧ s.received.rows.length = 3 ∧ s.passed = [])
    hstart (overlapping 0 1) (by decide +kernel)
  refine ⟨s, hreach, hcommitted, hrows, ?_⟩
  intro k hk
  have hall := group_acknowledged textConsumer 0 textLog 2 hreach k (hcommitted.symm ▸ hk)
  rw [hpassed] at hall
  exact hall.resolve_right List.not_mem_nil

end Group
end Ingest
end Kafkaman
