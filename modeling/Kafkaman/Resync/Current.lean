import Kafkaman.Outbox.System
import Kafkaman.Resync.System

/-!
# Resync.Current — the newest accepted row carries the committed state

Whoever commits a row of an entity has held the entity's advisory lock since before the row was
inserted, and a repair since before it loaded the value.  Between the load and the commit nobody else
commits that entity, and the row that commits has the greatest `enqueue_order` of them all.

* `Sound` — what a process under way can rely on;
* `Spares` — a step that does not concern an entity;
* `Consistent`, `consistent_step` — the invariant;
* `newest_row_current` — over every run of writers and repairs.
-/

namespace Kafkaman
namespace Resync

open Lib Outbox

/-- A row of the entity that its enqueue accepted, and not the audit row of a refused request. -/
def AcceptedOf (entity : String) (r : OutboxRow) : Prop :=
  r.idempotencyKey.isSome = true ∧ r.entityKey = some entity

/-- The accepted row of the entity with the greatest `enqueue_order`. -/
structure Newest (t : OutboxTable) (entity : String) (r : OutboxRow) : Prop where
  mem : r ∈ t
  accepted : AcceptedOf entity r
  greatest : ∀ r' ∈ t, AcceptedOf entity r' → r'.enqueueOrder ≤ r.enqueueOrder

section Invariant

variable {P : Type} {n : Nat} (message : KafkaMessage P) (lockKey : String → Int)

/-- The row carries the value: it is what the value serializes to. -/
def Carries (r : OutboxRow) (value : Option P) : Prop :=
  ∃ payload, value = some payload ∧ message.toValue payload = .returned (.ok r.payload)

/-- A staged row: accepted, made from its payload, and ahead of every committed row. -/
structure StagedRow (s : State P n) (tx : Tx P) (staged : Staged P) : Prop where
  locked : tx.locked = true
  accepted : AcceptedOf tx.entity staged.row
  carries : Carries message staged.row (some staged.payload)
  order : staged.row.enqueueOrder < s.sequence
  newest : ∀ r ∈ s.table, AcceptedOf tx.entity r → r.enqueueOrder < staged.row.enqueueOrder

/-- What a process under way can rely on. -/
structure Sound (s : State P n) (process : Process P) : Prop where
  loaded : ∀ tx value, process.tx = some tx → process.loaded = some value →
    tx.locked = true ∧ s.domain tx.entity = value
  staged : ∀ tx staged, process.tx = some tx → tx.staged = some staged →
    StagedRow message s tx staged

/-- The step neither commits the entity's domain value nor adds an accepted row of it. -/
structure Spares (s s' : State P n) (entity : String) : Prop where
  domain : s'.domain entity = s.domain entity
  rows : ∀ r' ∈ s'.table, AcceptedOf entity r' → ∃ r ∈ s.table, r.frozen = r'.frozen
  sequence : s.sequence ≤ s'.sequence

structure Consistent (s : State P n) : Prop where
  orders : ∀ r ∈ s.table, r.enqueueOrder < s.sequence
  exclusive : ∀ i j tx tx', i ≠ j → (s.processes i).tx = some tx →
    (s.processes j).tx = some tx' → tx.locked = true → tx'.locked = true →
    lockKey tx.entity ≠ lockKey tx'.entity
  sound : ∀ j, Sound message s (s.processes j)
  current : ∀ entity r, Newest s.table entity r → Carries message r (s.domain entity)

variable {message lockKey} {s s' : State P n} {j : Fin n} {process : Process P}

/-! ## Frames -/

theorem AcceptedOf.of_frozen {entity : String} {a b : OutboxRow} (h : AcceptedOf entity a)
    (hfrozen : a.frozen = b.frozen) : AcceptedOf entity b :=
  ⟨idempotencyKey_of_frozen hfrozen ▸ h.1, (entityKey_of_frozen hfrozen).symm.trans h.2⟩

theorem Carries.of_frozen {a b : OutboxRow} {value : Option P} (h : Carries message a value)
    (hfrozen : a.frozen = b.frozen) : Carries message b value := by
  rcases h with ⟨payload, hvalue, hserialized⟩
  have hpayload : a.payload = b.payload := by
    change a.frozen.payload = b.frozen.payload
    rw [hfrozen]
  exact ⟨payload, hvalue, hpayload ▸ hserialized⟩

theorem StagedRow.of_table_eq {tx : Tx P} {staged : Staged P}
    (h : StagedRow message s tx staged) (htable : s'.table = s.table)
    (hsequence : s'.sequence = s.sequence) : StagedRow message s' tx staged :=
  { h with
    order := hsequence ▸ h.order
    newest := htable ▸ h.newest }

theorem Sound.frame (h : Sound message s process)
    (hspares : ∀ tx, process.tx = some tx → tx.locked = true → Spares s s' tx.entity) :
    Sound message s' process := by
  refine
    { loaded := ?_
      staged := ?_ }
  · intro tx value htx hloaded
    rcases h.loaded tx value htx hloaded with ⟨hlocked, hdomain⟩
    exact ⟨hlocked, (hspares tx htx hlocked).domain.trans hdomain⟩
  · intro tx staged htx hstaged
    have hrow := h.staged tx staged htx hstaged
    have hspare := hspares tx htx hrow.locked
    refine
      { hrow with
        order := Nat.lt_of_lt_of_le hrow.order hspare.sequence
        newest := ?_ }
    intro r' hr' haccepted
    rcases hspare.rows r' hr' haccepted with ⟨r, hr, hfrozen⟩
    have hlt := hrow.newest r hr (haccepted.of_frozen hfrozen.symm)
    rwa [enqueueOrder_of_frozen hfrozen] at hlt

theorem sound_of_cleared (hloaded : process.loaded = none)
    (htx : ∀ tx ∈ process.tx, tx.locked = false ∧ tx.staged = none) :
    Sound message s process := by
  refine
    { loaded := ?_
      staged := ?_ }
  · intro tx value _ hsome
    rw [hloaded] at hsome
    cases hsome
  · intro tx staged htx' hstaged
    rw [(htx tx htx').2] at hstaged
    cases hstaged

/-- Tables whose accepted rows of the entity differ in assignable columns only. -/
structure SameRows (entity : String) (t t' : OutboxTable) : Prop where
  origin : ∀ r' ∈ t', AcceptedOf entity r' → ∃ r ∈ t, r.frozen = r'.frozen
  kept : ∀ r ∈ t, ∃ r' ∈ t', r.frozen = r'.frozen

theorem SameRows.newest {entity : String} {t t' : OutboxTable} (h : SameRows entity t t')
    {r' : OutboxRow} (hr' : Newest t' entity r') :
    ∃ r, Newest t entity r ∧ r.frozen = r'.frozen := by
  rcases h.origin r' hr'.mem hr'.accepted with ⟨r, hr, hfrozen⟩
  refine ⟨r, ?_, hfrozen⟩
  refine
    { mem := hr
      accepted := hr'.accepted.of_frozen hfrozen.symm
      greatest := ?_ }
  intro r₁ hr₁ haccepted
  rcases h.kept r₁ hr₁ with ⟨r₂, hr₂, hsame⟩
  have hle := hr'.greatest r₂ hr₂ (haccepted.of_frozen hsame)
  rwa [← enqueueOrder_of_frozen hsame, ← enqueueOrder_of_frozen hfrozen] at hle

theorem SameRows.carries {entity : String} {t t' : OutboxTable} {value : Option P}
    (h : SameRows entity t t') (hcurrent : ∀ r, Newest t entity r → Carries message r value)
    {r' : OutboxRow} (hr' : Newest t' entity r') : Carries message r' value := by
  rcases h.newest hr' with ⟨r, hnewest, hfrozen⟩
  exact (hcurrent r hnewest).of_frozen hfrozen

/-! ## Steps -/

/-- No other process holds the lock that the process holds now. -/
def LockFree (lockKey : String → Int) (s : State P n) (j : Fin n) (process : Process P) : Prop :=
  ∀ i tx tx', i ≠ j → (s.processes i).tx = some tx → process.tx = some tx' →
    tx.locked = true → tx'.locked = true → lockKey tx.entity ≠ lockKey tx'.entity

theorem Consistent.process_step (hs : Consistent message lockKey s)
    (hprocesses : s'.processes = Function.update s.processes j process)
    (horders : ∀ r ∈ s'.table, r.enqueueOrder < s'.sequence)
    (hlocks : LockFree lockKey s j process) (hsound : Sound message s' process)
    (hspares : ∀ i tx, i ≠ j → (s.processes i).tx = some tx → tx.locked = true →
      Spares s s' tx.entity)
    (hcurrent : ∀ entity r, Newest s'.table entity r → Carries message r (s'.domain entity)) :
    Consistent message lockKey s' := by
  have hsame : s'.processes j = process := by rw [hprocesses, Function.update_self]
  have hother : ∀ i, i ≠ j → s'.processes i = s.processes i := by
    intro i hi
    rw [hprocesses, Function.update_of_ne hi]
  refine
    { orders := horders
      exclusive := ?_
      sound := ?_
      current := hcurrent }
  -- At most one of the two is the process that moved; `hlocks` is about it and the other.
  · intro i k tx tx' hne htx htx' hlocked hlocked'
    by_cases hi : i = j
    · have hk : k ≠ j := fun hk => hne (hi.trans hk.symm)
      rw [hi, hsame] at htx
      rw [hother k hk] at htx'
      exact (hlocks k tx' tx hk htx' htx hlocked' hlocked).symm
    · rw [hother i hi] at htx
      by_cases hk : k = j
      · rw [hk, hsame] at htx'
        exact hlocks i tx tx' hi htx htx' hlocked hlocked'
      · rw [hother k hk] at htx'
        exact hs.exclusive i k tx tx' hne htx htx' hlocked hlocked'
  · intro i
    by_cases hi : i = j
    · rw [hi, hsame]
      exact hsound
    · rw [hother i hi]
      exact (hs.sound i).frame fun tx htx hlocked => hspares i tx hi htx hlocked

theorem Consistent.private_step {sequence : Nat} (hs : Consistent message lockKey s)
    (hsequence : s.sequence ≤ sequence) (hlocks : LockFree lockKey s j process)
    (hsound : Sound message { s.set j process with sequence := sequence } process) :
    Consistent message lockKey { s.set j process with sequence := sequence } := by
  refine hs.process_step rfl ?_ hlocks hsound ?_ hs.current
  · intro r hr
    exact Nat.lt_of_lt_of_le (hs.orders r hr) hsequence
  · intro i tx _ _ _
    exact
      { domain := rfl
        rows := fun r hr _ => ⟨r, hr, rfl⟩
        sequence := hsequence }

theorem lockFree_of_held (hs : Consistent message lockKey s) {tx tx' : Tx P}
    (htx : (s.processes j).tx = some tx) (htx' : process.tx = some tx')
    (hentity : tx'.entity = tx.entity) (hlocked : tx'.locked = tx.locked) :
    LockFree lockKey s j process := by
  intro i tx₁ tx₂ hi htx₁ htx₂ hlocked₁ hlocked₂
  have hsame : tx₂ = tx' := Option.some.inj (htx₂.symm.trans htx')
  rw [hsame, hlocked] at hlocked₂
  rw [hsame, hentity]
  exact hs.exclusive i j tx₁ tx hi htx₁ htx hlocked₁ hlocked₂

theorem consistent_written (hs : Consistent message lockKey s) {tx : Tx P} {written : Option P}
    {value : P} (hj : s.processes j = .writing tx written) :
    Consistent message lockKey (s.set j (.writing tx (some value))) := by
  have hbefore := hs.sound j
  rw [hj] at hbefore
  refine hs.private_step (Nat.le_refl _)
    (lockFree_of_held hs (by rw [hj]; rfl) rfl rfl rfl) ?_
  exact
    { loaded := fun _ _ _ h => by cases h
      staged := fun tx' staged htx' hstaged =>
        (hbefore.staged tx' staged htx' hstaged).of_table_eq rfl rfl }

theorem consistent_locked (hs : Consistent message lockKey s) {tx : Tx P}
    (htx : (s.processes j).tx = some tx) (hfree : entityLocked lockKey s j tx.entity = false)
    (htx' : process.tx = some { tx with locked := true })
    (hloaded : process.loaded = (s.processes j).loaded) :
    Consistent message lockKey (s.set j process) := by
  refine hs.private_step (Nat.le_refl _) ?_ ?_
  · intro i tx₁ tx₂ hi htx₁ htx₂ hlocked₁ _ hkey
    have hsame : tx₂ = { tx with locked := true } := Option.some.inj (htx₂.symm.trans htx')
    -- Somebody else with the key would have kept the lock from being taken.
    have hheld : entityLocked lockKey s j tx.entity = true := by
      refine decide_eq_true ⟨i, hi, ?_⟩
      rw [Process.holdsLock, htx₁]
      rw [hsame] at hkey
      simp [hlocked₁, hkey]
    rw [hfree] at hheld
    cases hheld
  · refine
      { loaded := ?_
        staged := ?_ }
    · intro tx₁ value htx₁ hvalue
      cases htx'.symm.trans htx₁
      exact ⟨rfl, ((hs.sound j).loaded tx value htx (hloaded ▸ hvalue)).2⟩
    · intro tx₁ staged htx₁ hstaged
      cases htx'.symm.trans htx₁
      have hrow := (hs.sound j).staged tx staged htx hstaged
      exact { hrow with locked := rfl }

theorem consistent_loaded (hs : Consistent message lockKey s) {run : ResyncRun} {tx : Tx P}
    (hlocked : tx.locked = true) (htx : (s.processes j).tx = some tx) :
    Consistent message lockKey (s.set j (.repairing run tx (some (s.domain tx.entity)))) := by
  refine hs.private_step (Nat.le_refl _) (lockFree_of_held hs htx rfl rfl rfl) ?_
  refine
    { loaded := ?_
      staged := ?_ }
  · intro tx₁ value htx₁ hvalue
    cases htx₁
    cases hvalue
    exact ⟨hlocked, rfl⟩
  · intro tx₁ staged htx₁ hstaged
    cases htx₁
    exact ((hs.sound j).staged tx staged htx hstaged).of_table_eq rfl rfl

theorem consistent_staged (hs : Consistent message lockKey s) {tx : Tx P} {payload : P}
    {insert : InsertOutboxRow} {now : Timestamp} (htx : (s.processes j).tx = some tx)
    (hstages : Stages message tx payload insert)
    (htx' : process.tx = some (tx.stage s.table.rows s.sequence payload insert now))
    (hloaded : process.loaded = (s.processes j).loaded) :
    Consistent message lockKey { s.set j process with sequence := s.sequence + 1 } := by
  refine hs.private_step (Nat.le_succ _) (lockFree_of_held hs htx htx' rfl rfl) ?_
  refine
    { loaded := ?_
      staged := ?_ }
  · intro tx₁ value htx₁ hvalue
    cases htx'.symm.trans htx₁
    exact (hs.sound j).loaded tx value htx (hloaded ▸ hvalue)
  · intro tx₁ staged htx₁ hstaged
    cases htx'.symm.trans htx₁
    cases hstaged
    -- An accepted insert is not born superseded, so the row is the plain pending one.
    obtain ⟨key, hkey⟩ := Option.isSome_iff_exists.1 hstages.accepted
    have hrow : insert.inserted now s.sequence = insert.row now s.sequence .pending none := by
      rw [InsertOutboxRow.inserted, hkey]
    refine
      { locked := hstages.locked
        accepted := ?_
        carries := ⟨payload, rfl, ?_⟩
        order := ?_
        newest := ?_ }
    · dsimp only
      rw [hrow]
      exact ⟨hstages.accepted, congrArg some hstages.entity⟩
    · dsimp only
      rw [hrow]
      exact hstages.payload
    · dsimp only
      rw [enqueueOrder_inserted]
      exact Nat.lt_succ_self _
    · intro r hr _
      dsimp only
      rw [enqueueOrder_inserted]
      exact hs.orders r hr

/-! ### Commits -/

/-- What a commit leaves: nothing new, or one row that carries the entity's domain value. -/
inductive Committed (s : State P n) (tx : Tx P) (s' : State P n) : Prop
  | skipped (hdomain : s'.domain = s.domain) (htable : s'.table = s.table)
  | enqueued (staged : Staged P) (hstaged : tx.staged = some staged)
      (hdomain : s'.domain tx.entity = some staged.payload)
      (hothers : ∀ entity, entity ≠ tx.entity → s'.domain entity = s.domain entity)
      (htable : Statement.applyEnqueue staged.row staged.superseded s.table = some s'.table)

theorem committed_of_commitTx {tx : Tx P} {written : Option P}
    (hs : Consistent message lockKey s) (htx : (s.processes j).tx = some tx)
    (hagrees : Agrees (s.processes j) tx written)
    (h : s.commitTx j tx written process = some s') :
    s'.processes = Function.update s.processes j process ∧ s'.sequence = s.sequence ∧
      Committed s tx s' := by
  unfold State.commitTx at h
  rcases Option.map_eq_some_iff.1 h with ⟨table, htable, rfl⟩
  refine ⟨rfl, rfl, ?_⟩
  cases hstaged : tx.staged with
  | none =>
      rw [hstaged] at htable
      cases htable
      have hnone : written = none := by
        rcases hagrees with hwritten | ⟨hwritten, -⟩
        · rw [hwritten, hstaged]
          rfl
        · exact hwritten
      refine .skipped ?_ rfl
      rw [hnone]
  | some staged =>
      rw [hstaged] at htable
      rcases hagrees with hwritten | ⟨hwritten, hloaded⟩
      · -- A writer commits the value that it has enqueued.
        have hsome : written = some staged.payload := by
          rw [hwritten, hstaged]
          rfl
        rw [hsome]
        refine .enqueued staged hstaged ?_ ?_ htable
        · exact Function.update_self _ _ _
        · intro entity hne
          exact Function.update_of_ne hne _ _
      · -- A repair has enqueued the value that is committed.
        rw [hstaged] at hloaded
        rw [hwritten]
        exact .enqueued staged hstaged ((hs.sound j).loaded tx _ htx hloaded).2
          (fun _ _ => rfl) htable

theorem mem_of_applyEnqueue {row : OutboxRow} {superseded : List Uuid} {t t' : OutboxTable}
    (h : Statement.applyEnqueue row superseded t = some t') : row ∈ t' :=
  (Table.mem_of_insert? h).2 (Or.inr rfl)

/-- The commit of a staged row: it becomes the newest of its entity and touches no other. -/
theorem sameRows_of_applyEnqueue {row : OutboxRow} {superseded : List Uuid} {t t' : OutboxTable}
    {entity : String} (h : Statement.applyEnqueue row superseded t = some t')
    (hentity : ¬ AcceptedOf entity row) : SameRows entity t t' := by
  have hcommits := Statement.commits_applyEnqueue h
  refine
    { origin := ?_
      kept := ?_ }
  · intro r' hr' haccepted
    rcases hcommits.origin r' hr' with ⟨r, hr, hrewritten⟩ | hnew
    · exact ⟨r, hr, hrewritten.frozen⟩
    · cases hnew
      exact absurd haccepted hentity
  · intro r hr
    rcases hcommits.kept r hr with ⟨r', hr', hrewritten⟩
    exact ⟨r', hr', hrewritten.frozen⟩

theorem newest_of_applyEnqueue {tx : Tx P} {staged : Staged P} {t' : OutboxTable}
    (hrow : StagedRow message s tx staged)
    (h : Statement.applyEnqueue staged.row staged.superseded s.table = some t') {r : OutboxRow}
    (hr : Newest t' tx.entity r) : r = staged.row := by
  rcases (Statement.commits_applyEnqueue h).origin r hr.mem with ⟨r₀, hr₀, hrewritten⟩ | hnew
  · have hlt := hrow.newest r₀ hr₀ (hr.accepted.of_frozen hrewritten.frozen.symm)
    have hle := hr.greatest staged.row (mem_of_applyEnqueue h) hrow.accepted
    rw [enqueueOrder_of_frozen hrewritten.frozen] at hlt
    omega
  · exact (Option.some.inj hnew).symm

theorem consistent_committed {tx : Tx P} {written : Option P}
    (hs : Consistent message lockKey s) (htx : (s.processes j).tx = some tx)
    (htx' : process.tx = none) (hagrees : Agrees (s.processes j) tx written)
    (h : s.commitTx j tx written process = some s') : Consistent message lockKey s' := by
  rcases committed_of_commitTx hs htx hagrees h with ⟨hprocesses, hsequence, hcommitted⟩
  have hlocks : LockFree lockKey s j process := by
    intro i tx₁ tx₂ _ _ htx₂
    rw [htx'] at htx₂
    cases htx₂
  have hsound : Sound message s' process :=
    { loaded := fun tx₁ _ htx₁ => by rw [htx'] at htx₁; cases htx₁
      staged := fun tx₁ _ htx₁ => by rw [htx'] at htx₁; cases htx₁ }
  cases hcommitted with
  | skipped hdomain htable =>
      refine hs.process_step hprocesses ?_ hlocks hsound ?_ ?_
      · rw [htable, hsequence]
        exact hs.orders
      · intro i tx₁ _ _ _
        exact
          { domain := by rw [hdomain]
            rows := fun r hr _ => ⟨r, htable ▸ hr, rfl⟩
            sequence := Nat.le_of_eq hsequence.symm }
      · rw [htable, hdomain]
        exact hs.current
  | enqueued staged hstaged hdomain hothers htable =>
      have hrow := (hs.sound j).staged tx staged htx hstaged
      have hsame : ∀ entity, entity ≠ tx.entity → SameRows entity s.table s'.table := by
        intro entity hne
        refine sameRows_of_applyEnqueue htable fun haccepted => ?_
        exact hne (Option.some.inj (haccepted.2.symm.trans hrow.accepted.2))
      refine hs.process_step hprocesses ?_ hlocks hsound ?_ ?_
      · intro r hr
        rw [hsequence]
        rcases (Statement.commits_applyEnqueue htable).origin r hr with
          ⟨r₀, hr₀, hrewritten⟩ | hnew
        · rw [← enqueueOrder_of_frozen hrewritten.frozen]
          exact hs.orders r₀ hr₀
        · cases hnew
          exact hrow.order
      · -- Whoever else holds a lock holds it for another entity.
        intro i tx₁ hi htx₁ hlocked₁
        have hne : tx₁.entity ≠ tx.entity := fun heq =>
          hs.exclusive i j tx₁ tx hi htx₁ htx hlocked₁ hrow.locked (congrArg lockKey heq)
        exact
          { domain := hothers _ hne
            rows := (hsame _ hne).origin
            sequence := Nat.le_of_eq hsequence.symm }
      · intro entity r hr
        by_cases heq : entity = tx.entity
        · subst heq
          rw [newest_of_applyEnqueue hrow htable hr, hdomain]
          exact hrow.carries
        · rw [hothers entity heq]
          exact (hsame entity heq).carries (hs.current entity) hr

/-! ### Everybody else -/

theorem Consistent.shared_step {table : OutboxTable} {sequence : Nat}
    (hs : Consistent message lockKey s) (hsequence : s.sequence ≤ sequence)
    (horders : ∀ r ∈ table, r.enqueueOrder < sequence)
    (hsame : ∀ entity, SameRows entity s.table table) :
    Consistent message lockKey
      { s with
        table := table
        sequence := sequence } := by
  refine
    { orders := horders
      exclusive := hs.exclusive
      sound := ?_
      current := ?_ }
  · intro i
    refine (hs.sound i).frame fun tx _ _ => ?_
    exact
      { domain := rfl
        rows := (hsame tx.entity).origin
        sequence := hsequence }
  · intro entity r hr
    exact (hsame entity).carries (hs.current entity) hr

theorem consistent_audited (hs : Consistent message lockKey s) {insert : InsertOutboxRow}
    {now : Timestamp} {table : OutboxTable} (hnone : insert.idempotencyKey = none)
    (hinsert : s.table.insert? (insert.inserted now s.sequence) = some table) :
    Consistent message lockKey
      { s with
        table := table
        sequence := s.sequence + 1 } := by
  have hmem : ∀ r ∈ table, r ∈ s.table ∨ r = insert.inserted now s.sequence :=
    fun r hr => (Table.mem_of_insert? hinsert).1 hr
  refine hs.shared_step (Nat.le_succ _) ?_ ?_
  · intro r hr
    rcases hmem r hr with hold | rfl
    · exact Nat.lt_succ_of_lt (hs.orders r hold)
    · rw [enqueueOrder_inserted]
      exact Nat.lt_succ_self _
  · intro entity
    refine
      { origin := ?_
        kept := fun r hr => ⟨r, (Table.mem_of_insert? hinsert).2 (Or.inl hr), rfl⟩ }
    intro r hr haccepted
    rcases hmem r hr with hold | rfl
    · exact ⟨r, hold, rfl⟩
    · -- The audit row keeps no idempotency key.
      have hidentity : (insert.inserted now s.sequence).idempotencyKey = none := by
        rw [InsertOutboxRow.inserted, hnone]
        exact hnone
      have hsome := haccepted.1
      rw [hidentity] at hsome
      cases hsome

theorem consistent_assigned (hs : Consistent message lockKey s) {p : OutboxRow → Bool}
    {f : OutboxRow → OutboxRow} (hf : ∀ r, (f r).frozen = r.frozen) :
    Consistent message lockKey
      { s with table := s.table.updateWhere p f fun r => messageId_of_frozen (hf r) } := by
  have hassigned : ∀ r, r.frozen = (if p r then f r else r).frozen := by
    intro r
    split
    · exact (hf r).symm
    · rfl
  have horigin : ∀ r' ∈ s.table.updateWhere p f fun r => messageId_of_frozen (hf r),
      ∃ r ∈ s.table, r.frozen = r'.frozen := by
    intro r' hr'
    rcases Table.mem_updateWhere.1 hr' with ⟨r, hr, rfl⟩
    exact ⟨r, hr, hassigned r⟩
  refine hs.shared_step (Nat.le_refl _) ?_ ?_
  · intro r' hr'
    rcases horigin r' hr' with ⟨r, hr, hfrozen⟩
    rw [← enqueueOrder_of_frozen hfrozen]
    exact hs.orders r hr
  · intro entity
    refine
      { origin := fun r' hr' _ => horigin r' hr'
        kept := ?_ }
    intro r hr
    exact ⟨_, Table.mem_updateWhere.2 ⟨r, hr, rfl⟩, hassigned r⟩

/-! ## Runs -/

theorem consistent_step (hs : Consistent message lockKey s) (h : Step message lockKey s s') :
    Consistent message lockKey s' := by
  cases h with
  | unchanged h =>
      exact h ▸ hs
  | cleared j process hloaded htx h =>
      subst h
      refine hs.private_step (Nat.le_refl _) ?_ (sound_of_cleared hloaded htx)
      intro i tx₁ tx₂ _ _ htx₂ _ hlocked₂
      rw [(htx tx₂ htx₂).1] at hlocked₂
      cases hlocked₂
  | written j tx written value hj h =>
      exact h ▸ consistent_written hs hj
  | locked j process tx htx hfree htx' hloaded h =>
      exact h ▸ consistent_locked hs htx hfree htx' hloaded
  | loaded j run tx hlocked htx h =>
      exact h ▸ consistent_loaded hs hlocked htx
  | staged j process tx payload insert now htx hstages htx' hloaded h =>
      exact h ▸ consistent_staged hs htx hstages htx' hloaded
  | committed j process tx written htx htx' hagrees h =>
      exact consistent_committed hs htx htx' hagrees h
  | audited insert now table hnone hinsert h =>
      exact h ▸ consistent_audited hs hnone hinsert
  | assigned p f hf h =>
      exact h ▸ consistent_assigned hs hf

theorem consistent_start (htable : s.table = Table.empty)
    (hprocesses : s.processes = fun _ => .idle) : Consistent message lockKey s := by
  refine
    { orders := ?_
      exclusive := ?_
      sound := ?_
      current := ?_ }
  · rw [htable]
    intro r hr
    cases hr
  · rw [hprocesses]
    intro i j tx _ _ htx
    cases htx
  · rw [hprocesses]
    intro j
    exact sound_of_cleared rfl fun tx htx => by cases htx
  · rw [htable]
    intro entity r hr
    cases hr.mem

end Invariant

/-- After any number of resync runs beside any number of live writers, whichever of them committed
or rolled back, the newest accepted row of an entity carries the entity's committed state. -/
theorem newest_row_current {P : Type} [DecidableEq P] {n : Nat} (message : KafkaMessage P)
    (descriptor : MessageDescriptor) (lockKey : String → Int) {s : State P n}
    (h : (system message descriptor lockKey).Reachable s) (entity : String) (r : OutboxRow)
    (hr : Newest s.table entity r) : Carries message r (s.domain entity) := by
  have hconsistent : Consistent message lockKey s := by
    refine TransitionSystem.Reachable.invariant ?_ ?_ h
    · rintro s ⟨htable, -, hprocesses⟩
      exact consistent_start htable hprocesses
    · intro s a s' hs hnext
      exact consistent_step hs (step_of_next hnext)
  exact hconsistent.current entity r hr

instance (entity : String) (r : OutboxRow) : Decidable (AcceptedOf entity r) :=
  inferInstanceAs (Decidable (_ ∧ _))

/-- One entity with a state, nothing enqueued. -/
def settled : State Snapshot 2 :=
  { domain := fun entity =>
      if entity = "a" then some { entity := "a", state := "old" } else none
    table := Table.empty
    sequence := 1
    processes := fun _ => .idle }

def writer : Fin 2 := ⟨0, by decide⟩

def repairer : Fin 2 := ⟨1, by decide⟩

/-- The writer updates before the repair loads, and enqueues after the repair has committed. -/
def overtaken : List (Action Snapshot 2) :=
  [.beginWrite writer "a" true,
    .update writer { entity := "a", state := "new" },
    .startResync repairer 10 none,
    .page repairer ["a"],
    .beginRepair repairer,
    .lockEntity repairer,
    .load repairer,
    .insert repairer (Snapshot.envelope 1 { entity := "a", state := "old" }) none 1,
    .commit repairer,
    .lockEntity writer,
    .insert writer (Snapshot.envelope 2 { entity := "a", state := "new" }) none 2,
    .commit writer]

theorem newest_row_current_overtaken :
    ∃ s, (system Snapshot.message Snapshot.descriptor fun _ => 0).run settled overtaken = some s ∧
      ∃ r, Newest s.table "a" r ∧ r.messageId = 2 ∧
        Carries Snapshot.message r (s.domain "a") := by
  obtain ⟨s, hrun, r, hr, hid, haccepted, hgreatest⟩ :
      ∃ s, (system Snapshot.message Snapshot.descriptor fun _ => 0).run settled overtaken =
          some s ∧
        ∃ r ∈ s.table.rows, r.messageId = 2 ∧ AcceptedOf "a" r ∧
          ∀ r' ∈ s.table.rows, AcceptedOf "a" r' → r'.enqueueOrder ≤ r.enqueueOrder :=
    TransitionSystem.exists_of_run (by decide +kernel)
  have hstart : (system Snapshot.message Snapshot.descriptor fun _ => 0).Reachable settled :=
    TransitionSystem.Reachable.start ⟨rfl, rfl, rfl⟩
  have hreachable := TransitionSystem.reachable_of_run hstart hrun
  have hnewest : Newest s.table "a" r :=
    { mem := hr
      accepted := haccepted
      greatest := hgreatest }
  exact ⟨s, hrun, r, hnewest, hid,
    newest_row_current Snapshot.message Snapshot.descriptor (fun _ => 0) hreachable "a" r hnewest⟩

end Resync
end Kafkaman
