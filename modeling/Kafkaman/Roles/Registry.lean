import Kafkaman.Migration.Generated
import Kafkaman.Topics.Converge
import Mathlib.Data.List.Pairwise

/-!
# Roles.Registry — what a service declares about its message types

A service declares roles one by one; the registry keeps one entry per message type and rejects what
would leave two handlers at one position.  Tables, loops and the changelog are read off the registry,
so they must not depend on the order of the declarations.

* `RoleRegistry.declare` — the registry after a declaration, also when it is rejected;
* `Conflicts` — two declarations that cannot stand in one registry;
* `summary` — the entry a list of declarations comes to, whatever their order;
* `declare_accepted`, `declare_rejected` — one declaration; `declareAll_holds` — a sequence of them.
-/

namespace Kafkaman
namespace Roles

open Lib
open Schema (TableKind)
open Topics (TopicDescriptor)

/-! ## Roles -/

inductive Role
  | publish
  | cache
  | handle
  | handleBefore
  deriving DecidableEq, Repr

def Role.asStr : Role → String
  | .publish => "publish"
  | .cache => "cache"
  | .handle => "handle"
  | .handleBefore => "handle_before"

/-- Every role declared for one message type. -/
structure RoleEntry where
  descriptor : TopicDescriptor
  publish : Bool
  cache : Bool
  handle : Bool
  handleBefore : Bool
  deriving DecidableEq

namespace RoleEntry

def new (descriptor : TopicDescriptor) : RoleEntry :=
  { descriptor := descriptor
    publish := false
    cache := false
    handle := false
    handleBefore := false }

def consumes (entry : RoleEntry) : Bool :=
  entry.cache || entry.handle || entry.handleBefore

/-- The consuming role already declared, if any. -/
def consumingRole (entry : RoleEntry) : Option Role :=
  if entry.cache then some .cache
  else if entry.handle then some .handle
  else if entry.handleBefore then some .handleBefore
  else none

end RoleEntry

/-- The two errors of a declaration. -/
inductive RoleError
  | conflictingMessageType (messageType registered conflicting : String)
  | conflictingRole (messageType existing added : String)
  deriving DecidableEq

def conflict (messageType : String) (existing added : Role) : RoleError :=
  .conflictingRole messageType existing.asStr added.asStr

/-! ## The registry -/

/-- `BTreeMap<String, RoleEntry>`, by message type. -/
@[ext]
structure RoleRegistry where
  entries : SortedMap String RoleEntry

/-- What is done to an entry for a role: the entry afterwards, and whether the role was taken. -/
def RoleEntry.assign (messageType : String) (entry : RoleEntry) :
    Role → RoleEntry × Except RoleError Unit
  | .publish => ({ entry with publish := true }, .ok ())
  | .cache =>
      match entry.consumingRole with
      | some existing =>
          if existing ≠ .cache then (entry, .error (conflict messageType existing .cache))
          else ({ entry with cache := true }, .ok ())
      | none => ({ entry with cache := true }, .ok ())
  | .handle =>
      if entry.cache then (entry, .error (conflict messageType .cache .handle))
      else if entry.handle then (entry, .error (conflict messageType .handle .handle))
      else ({ entry with handle := true }, .ok ())
  | .handleBefore =>
      if entry.cache then (entry, .error (conflict messageType .cache .handleBefore))
      else if entry.handleBefore then
        (entry, .error (conflict messageType .handleBefore .handleBefore))
      else ({ entry with handleBefore := true }, .ok ())

/-- One role for one message type. -/
structure Declaration where
  descriptor : TopicDescriptor
  role : Role
  deriving DecidableEq

def Declaration.messageType (d : Declaration) : String :=
  d.descriptor.messageType

namespace RoleRegistry

def new : RoleRegistry :=
  { entries := SortedMap.empty }

/-- The entry of the type, changed in place. -/
def update (registry : RoleRegistry) (messageType : String)
    (changed : RoleEntry × Except RoleError Unit) : RoleRegistry × Except RoleError Unit :=
  ({ entries := registry.entries.insert messageType changed.1 }, changed.2)

def declare (registry : RoleRegistry) (d : Declaration) : RoleRegistry × Except RoleError Unit :=
  match registry.entries.get? d.messageType with
  | some entry =>
      if entry.descriptor.topic ≠ d.descriptor.topic then
        (registry, .error (.conflictingMessageType d.messageType entry.descriptor.topic
          d.descriptor.topic))
      else
        registry.update d.messageType (entry.assign d.messageType d.role)
  | none =>
      -- the new entry is in the map before its role is looked at
      registry.update d.messageType ((RoleEntry.new d.descriptor).assign d.messageType d.role)

/-- Declarations one after the other, up to the first that is rejected. -/
def declareAll (registry : RoleRegistry) : List Declaration → RoleRegistry × Except RoleError Unit
  | [] => (registry, .ok ())
  | d :: rest =>
      match registry.declare d with
      | (registry, .ok ()) => registry.declareAll rest
      | (registry, .error e) => (registry, .error e)

/-! ## What is read off a registry -/

def values (registry : RoleRegistry) : List RoleEntry :=
  registry.entries.entries.map Prod.snd

def descriptors (registry : RoleRegistry) : List TopicDescriptor :=
  registry.values.map RoleEntry.descriptor

def published (registry : RoleRegistry) : List TopicDescriptor :=
  (registry.values.filter RoleEntry.publish).map RoleEntry.descriptor

def consumed (registry : RoleRegistry) : List TopicDescriptor :=
  (registry.values.filter RoleEntry.consumes).map RoleEntry.descriptor

def tables (registry : RoleRegistry) : List (TableKind × TopicDescriptor) :=
  registry.values.flatMap fun entry =>
    (if entry.publish then [(.outbox, entry.descriptor)] else []) ++
      (if entry.consumes then [(.received, entry.descriptor), (.cache, entry.descriptor)] else [])

def changelog (sha256 : Migration.Sha256) (registry : RoleRegistry) :
    Except Migration.MigrationError (List Migration.SchemaChangeset) :=
  Migration.buildChangelog sha256
    (registry.tables.map fun table => (table.1, table.2.toMessageDescriptor))

end RoleRegistry

/-! ## Conflicts -/

/-- Two roles that compete for a position, or that both say what the cache is for. -/
def Role.competes : Role → Role → Bool
  | .handle, .handle | .handleBefore, .handleBefore => true
  | .cache, .handle | .cache, .handleBefore => true
  | .handle, .cache | .handleBefore, .cache => true
  | _, _ => false

theorem Role.competes_comm (role role' : Role) : role.competes role' = role'.competes role := by
  cases role <;> cases role' <;> rfl

theorem Role.competes_cases {role role' : Role} (h : role.competes role' = true) :
    (role = .handle ∧ role' = .handle) ∨ (role = .handleBefore ∧ role' = .handleBefore) ∨
      (role = .cache ∧ (role' = .handle ∨ role' = .handleBefore)) ∨
      (role' = .cache ∧ (role = .handle ∨ role = .handleBefore)) := by
  cases role <;> cases role' <;> simp_all [Role.competes]

/-- Two declarations that cannot stand in one registry. -/
def Conflicts (d d' : Declaration) : Prop :=
  d.messageType = d'.messageType ∧
    (d.descriptor.topic ≠ d'.descriptor.topic ∨ d.role.competes d'.role = true)

theorem Conflicts.symm {d d' : Declaration} (h : Conflicts d d') : Conflicts d' d :=
  ⟨h.1.symm, h.2.imp Ne.symm fun hroles => by rwa [Role.competes_comm]⟩

instance : Std.Symm fun d d' => ¬ Conflicts d d' :=
  ⟨fun _ _ hfree hconflict => hfree hconflict.symm⟩

def Compatible (declarations : List Declaration) : Prop :=
  declarations.Pairwise fun d d' => ¬ Conflicts d d'

namespace RoleEntry

/-- The roles of an entry, as a function. -/
def has (entry : RoleEntry) : Role → Bool
  | .publish => entry.publish
  | .cache => entry.cache
  | .handle => entry.handle
  | .handleBefore => entry.handleBefore

theorem ext_has {entry entry' : RoleEntry} (hdescriptor : entry.descriptor = entry'.descriptor)
    (h : ∀ role, entry.has role = entry'.has role) : entry = entry' := by
  rcases entry with ⟨descriptor, publish, cache, handle, handleBefore⟩
  rcases entry' with ⟨descriptor', publish', cache', handle', handleBefore'⟩
  cases hdescriptor
  cases h .publish
  cases h .cache
  cases h .handle
  cases h .handleBefore
  rfl

theorem has_new (descriptor : TopicDescriptor) (role : Role) :
    (RoleEntry.new descriptor).has role = false := by
  cases role <;> rfl

theorem not_competes_of_new (descriptor : TopicDescriptor) (role existing : Role)
    (h : (RoleEntry.new descriptor).has existing = true) : existing.competes role = false := by
  rw [has_new] at h
  cases h

theorem assign_of_competes (messageType : String) {entry : RoleEntry} {role existing : Role}
    (hclean : ¬ (entry.cache = true ∧ (entry.handle = true ∨ entry.handleBefore = true)))
    (hhas : entry.has existing = true) (hcompetes : existing.competes role = true) :
    ∃ e, entry.assign messageType role = (entry, .error e) := by
  cases role <;> cases existing <;> simp only [Role.competes, Bool.false_eq_true] at hcompetes <;>
    simp only [has] at hhas <;> simp_all [assign, consumingRole]
  -- of two handlers the first is named in the refusal
  case cache.handleBefore =>
    cases entry.handle <;> exact ⟨_, rfl⟩

theorem assign_of_not_competes (messageType : String) {entry : RoleEntry} {role : Role}
    (hfree : ∀ existing, entry.has existing = true → existing.competes role = false) :
    ∃ entry', entry.assign messageType role = (entry', .ok ()) ∧
      entry'.descriptor = entry.descriptor ∧
      ∀ other, entry'.has other = (entry.has other || decide (role = other)) := by
  -- A field of the entry that competes with the role is not set.
  have hcache : role.competes .cache = true → entry.cache = false := fun h =>
    Bool.eq_false_iff.2 fun hhas => by simp_all [hfree .cache hhas, Role.competes_comm role]
  have hhandle : role.competes .handle = true → entry.handle = false := fun h =>
    Bool.eq_false_iff.2 fun hhas => by simp_all [hfree .handle hhas, Role.competes_comm role]
  have hbefore : role.competes .handleBefore = true → entry.handleBefore = false := fun h =>
    Bool.eq_false_iff.2 fun hhas => by simp_all [hfree .handleBefore hhas, Role.competes_comm role]
  cases role with
  | publish =>
      exact ⟨{ entry with publish := true }, rfl, rfl, fun other => by cases other <;> simp [has]⟩
  | cache =>
      refine ⟨{ entry with cache := true }, ?_, rfl, fun other => by cases other <;> simp [has]⟩
      cases hpresent : entry.cache <;>
        simp [assign, consumingRole, hpresent, hhandle rfl, hbefore rfl]
  | handle =>
      refine ⟨{ entry with handle := true }, ?_, rfl, fun other => by cases other <;> simp [has]⟩
      simp [assign, hcache rfl, hhandle rfl]
  | handleBefore =>
      refine ⟨{ entry with handleBefore := true }, ?_, rfl, fun other => by
        cases other <;> simp [has]⟩
      simp [assign, hcache rfl, hbefore rfl]

theorem assign_cases (messageType : String) (entry : RoleEntry) (role : Role) :
    (∃ e, entry.assign messageType role = (entry, .error e)) ∨
      ∃ entry', entry.assign messageType role = (entry', .ok ()) := by
  cases role with
  | publish =>
      exact .inr ⟨_, rfl⟩
  | cache =>
      rw [assign]
      split
      · split
        · exact .inl ⟨_, rfl⟩
        · exact .inr ⟨_, rfl⟩
      · exact .inr ⟨_, rfl⟩
  | handle =>
      rw [assign]
      split
      · exact .inl ⟨_, rfl⟩
      · split
        · exact .inl ⟨_, rfl⟩
        · exact .inr ⟨_, rfl⟩
  | handleBefore =>
      rw [assign]
      split
      · exact .inl ⟨_, rfl⟩
      · split
        · exact .inl ⟨_, rfl⟩
        · exact .inr ⟨_, rfl⟩

end RoleEntry

/-- A rejected declaration leaves the registry as it was: where the type is new, no role is refused. -/
theorem RoleRegistry.declare_error {registry : RoleRegistry} {d : Declaration} {e : RoleError}
    (h : (registry.declare d).2 = .error e) : (registry.declare d).1 = registry := by
  unfold declare at h ⊢
  cases hget : registry.entries.get? d.messageType with
  | none =>
      rw [hget] at h
      rcases RoleEntry.assign_of_not_competes d.messageType
        (RoleEntry.not_competes_of_new d.descriptor d.role) with
        ⟨entry', hassign, -⟩
      simp only [update, hassign] at h
      cases h
  | some entry =>
      rw [hget] at h
      by_cases htopic : entry.descriptor.topic ≠ d.descriptor.topic
      · exact congrArg Prod.fst (if_pos htopic)
      · simp only [if_neg htopic] at h ⊢
        rcases RoleEntry.assign_cases d.messageType entry d.role with ⟨e, hassign⟩ | ⟨entry', hassign⟩
        · simp only [update, hassign, SortedMap.insert_get?_self hget]
        · simp only [update, hassign] at h
          cases h

/-! ## What a list of declarations comes to -/

def declares (declarations : List Declaration) (messageType : String) (role : Role) : Bool :=
  declarations.any fun d => d.messageType = messageType && d.role = role

/-- The entry of a type, from all its declarations at once. -/
def summary (declarations : List Declaration) (messageType : String) : Option RoleEntry :=
  (declarations.find? fun d => d.messageType = messageType).map fun first =>
    { descriptor := first.descriptor
      publish := declares declarations messageType .publish
      cache := declares declarations messageType .cache
      handle := declares declarations messageType .handle
      handleBefore := declares declarations messageType .handleBefore }

/-- The registry holds what the declarations come to. -/
def Holds (registry : RoleRegistry) (declarations : List Declaration) : Prop :=
  ∀ messageType, registry.entries.get? messageType = summary declarations messageType

theorem declares_iff {declarations : List Declaration} {messageType : String} {role : Role} :
    declares declarations messageType role = true ↔
      ∃ d ∈ declarations, d.messageType = messageType ∧ d.role = role := by
  simp [declares]

theorem declares_append (declarations : List Declaration) (d : Declaration) (messageType : String)
    (role : Role) : declares (declarations ++ [d]) messageType role =
      (declares declarations messageType role ||
        (decide (d.messageType = messageType) && decide (d.role = role))) := by
  simp [declares]

theorem summary_eq_none {declarations : List Declaration} {messageType : String} :
    summary declarations messageType = none ↔
      ∀ d ∈ declarations, d.messageType ≠ messageType := by
  simp [summary]

theorem summary_eq_some {declarations : List Declaration} {messageType : String}
    {entry : RoleEntry} (h : summary declarations messageType = some entry) :
    (∃ first ∈ declarations, first.messageType = messageType ∧
      entry.descriptor = first.descriptor) ∧
      ∀ role, entry.has role = declares declarations messageType role := by
  rcases Option.map_eq_some_iff.1 h with ⟨first, hfirst, rfl⟩
  refine ⟨⟨first, List.mem_of_find?_eq_some hfirst, by simpa using List.find?_some hfirst, rfl⟩, ?_⟩
  intro role
  cases role <;> rfl

theorem summary_append_of_ne {declarations : List Declaration} {d : Declaration}
    {messageType : String} (h : d.messageType ≠ messageType) :
    summary (declarations ++ [d]) messageType = summary declarations messageType := by
  simp [summary, declares_append, List.find?_append, h]

theorem summary_append_self {declarations : List Declaration} {d : Declaration} {entry : RoleEntry}
    (hdescriptor : entry.descriptor =
      ((summary declarations d.messageType).map RoleEntry.descriptor).getD d.descriptor)
    (hhas : ∀ role, entry.has role =
      (declares declarations d.messageType role || decide (d.role = role))) :
    summary (declarations ++ [d]) d.messageType = some entry := by
  -- The entry has just the roles declared so far, the new one included.
  have hall : ∀ role, declares (declarations ++ [d]) d.messageType role = entry.has role := by
    intro role
    rw [declares_append, hhas]
    simp
  unfold summary at hdescriptor ⊢
  rw [List.find?_append]
  cases hfirst : declarations.find? fun d' => d'.messageType = d.messageType with
  | none =>
      rw [hfirst] at hdescriptor
      simp only [Option.none_or, List.find?_cons_of_pos, decide_true, Option.map_some, hall]
      exact congrArg some (RoleEntry.ext_has hdescriptor.symm fun role => by cases role <;> rfl)
  | some first =>
      rw [hfirst] at hdescriptor
      simp only [Option.some_or, Option.map_some, hall]
      exact congrArg some (RoleEntry.ext_has hdescriptor.symm fun role => by cases role <;> rfl)

/-! ## One declaration -/

section Compatible

variable {declarations : List Declaration} (hcompatible : Compatible declarations)

include hcompatible

theorem not_conflicts {d d' : Declaration} (hd : d ∈ declarations) (hd' : d' ∈ declarations)
    (hne : d ≠ d') : ¬ Conflicts d d' :=
  hcompatible.forall hd hd' hne

theorem topic_eq {d d' : Declaration} (hd : d ∈ declarations) (hd' : d' ∈ declarations)
    (htype : d.messageType = d'.messageType) : d.descriptor.topic = d'.descriptor.topic := by
  by_cases hsame : d = d'
  · rw [hsame]
  · by_contra htopic
    exact not_conflicts hcompatible hd hd' hsame ⟨htype, .inl htopic⟩

theorem not_cache_and_handle (messageType : String) {role : Role}
    (hrole : Role.cache.competes role = true) :
    ¬ (declares declarations messageType .cache = true ∧
      declares declarations messageType role = true) := by
  rintro ⟨hcache, hhandle⟩
  rcases declares_iff.1 hcache with ⟨d, hd, htype, hcache⟩
  rcases declares_iff.1 hhandle with ⟨d', hd', htype', rfl⟩
  refine not_conflicts hcompatible hd hd' ?_ ⟨htype.trans htype'.symm, .inr (hcache ▸ hrole)⟩
  rintro rfl
  rw [hcache] at hrole
  cases hrole

end Compatible

section Step

variable {registry : RoleRegistry} {declarations : List Declaration} {d : Declaration}
  (hholds : Holds registry declarations)

include hholds

theorem holds_update {entry : RoleEntry}
    (hdescriptor : entry.descriptor =
      ((summary declarations d.messageType).map RoleEntry.descriptor).getD d.descriptor)
    (hhas : ∀ role, entry.has role =
      (declares declarations d.messageType role || decide (d.role = role))) :
    Holds (registry.update d.messageType (entry, .ok ())).1 (declarations ++ [d]) := by
  intro messageType
  rw [RoleRegistry.update, SortedMap.get?_insert]
  split
  · rename_i htype
    rw [← htype, summary_append_self hdescriptor hhas]
  · rename_i htype
    rw [summary_append_of_ne htype, hholds]

theorem declare_rejected (hcompatible : Compatible declarations)
    (hconflict : ∃ d' ∈ declarations, Conflicts d' d) : ∃ e, (registry.declare d).2 = .error e := by
  rcases hconflict with ⟨d', hd', htype, hconflict⟩
  unfold RoleRegistry.declare
  rw [hholds]
  cases hentry : summary declarations d.messageType with
  | none =>
      exact absurd htype (summary_eq_none.1 hentry d' hd')
  | some entry =>
      rcases summary_eq_some hentry with ⟨⟨first, hfirst, hfirsttype, hdescriptor⟩, hhas⟩
      have htopic := topic_eq hcompatible hfirst hd' (hfirsttype.trans htype.symm)
      by_cases hsame : entry.descriptor.topic ≠ d.descriptor.topic
      · simp [hsame]
      · -- the topics agree, so the roles compete
        have hcompetes : d'.role.competes d.role = true := by
          refine hconflict.resolve_left fun hne => hsame ?_
          rw [hdescriptor, htopic]
          exact hne
        have hclean : ¬ (entry.cache = true ∧ (entry.handle = true ∨ entry.handleBefore = true)) := by
          rintro ⟨hcache, hhandle | hbefore⟩
          · exact not_cache_and_handle hcompatible d.messageType rfl
              ⟨(hhas .cache).symm.trans hcache, (hhas .handle).symm.trans hhandle⟩
          · exact not_cache_and_handle hcompatible d.messageType rfl
              ⟨(hhas .cache).symm.trans hcache, (hhas .handleBefore).symm.trans hbefore⟩
        have hpresent : entry.has d'.role = true := by
          rw [hhas]
          exact declares_iff.2 ⟨d', hd', htype, rfl⟩
        rcases RoleEntry.assign_of_competes d.messageType hclean hpresent hcompetes with ⟨e, hassign⟩
        exact ⟨e, by simp only [if_neg hsame, RoleRegistry.update, hassign]⟩

theorem declare_accepted (hfree : ∀ d' ∈ declarations, ¬ Conflicts d' d) :
    (registry.declare d).2 = .ok () ∧ Holds (registry.declare d).1 (declarations ++ [d]) := by
  unfold RoleRegistry.declare
  rw [hholds]
  cases hentry : summary declarations d.messageType with
  | none =>
      have hnone : ∀ role, declares declarations d.messageType role = false := by
        intro role
        refine Bool.eq_false_iff.2 fun hdeclares => ?_
        rcases declares_iff.1 hdeclares with ⟨d', hd', htype, -⟩
        exact summary_eq_none.1 hentry d' hd' htype
      rcases RoleEntry.assign_of_not_competes d.messageType
        (RoleEntry.not_competes_of_new d.descriptor d.role) with
        ⟨entry', hassign, hdescriptor, hhas⟩
      simp only [hassign]
      refine ⟨rfl, holds_update hholds ?_ ?_⟩
      · rw [hentry]
        exact hdescriptor
      · intro role
        rw [hhas, RoleEntry.has_new, hnone]
  | some entry =>
      rcases summary_eq_some hentry with ⟨⟨first, hfirst, hfirsttype, hdescriptor⟩, hdeclared⟩
      -- The entry carries the first descriptor; another topic would conflict with that declaration.
      have htopic : ¬ entry.descriptor.topic ≠ d.descriptor.topic := by
        intro hne
        rw [hdescriptor] at hne
        exact hfree first hfirst ⟨hfirsttype, .inl hne⟩
      -- Each role of the entry was declared, so it does not compete with this one.
      have hroles : ∀ existing, entry.has existing = true → existing.competes d.role = false := by
        intro existing hhas
        rw [hdeclared] at hhas
        rcases declares_iff.1 hhas with ⟨d', hd', htype, rfl⟩
        exact Bool.eq_false_iff.2 fun hcompetes => hfree d' hd' ⟨htype, .inr hcompetes⟩
      rcases RoleEntry.assign_of_not_competes d.messageType hroles with
        ⟨entry', hassign, hsame, hhas⟩
      simp only [if_neg htopic, hassign]
      refine ⟨rfl, holds_update hholds ?_ ?_⟩
      · rw [hentry]
        exact hsame
      · intro role
        rw [hhas, hdeclared]

end Step

/-! ## A sequence of declarations -/

theorem RoleRegistry.declareAll_cons_ok {registry : RoleRegistry} {d : Declaration}
    (h : (registry.declare d).2 = .ok ()) (rest : List Declaration) :
    registry.declareAll (d :: rest) = (registry.declare d).1.declareAll rest := by
  rw [declareAll]
  split
  · rename_i hdeclare
    rw [hdeclare]
  · rename_i hdeclare
    rw [hdeclare] at h
    cases h

theorem RoleRegistry.declareAll_cons_error {registry : RoleRegistry} {d : Declaration} {e : RoleError}
    (h : (registry.declare d).2 = .error e) (rest : List Declaration) :
    (registry.declareAll (d :: rest)).2 = .error e := by
  rw [declareAll]
  split
  · rename_i hdeclare
    rw [hdeclare] at h
    cases h
  · rename_i hdeclare
    rw [hdeclare] at h
    exact h

theorem declareAll_holds {registry : RoleRegistry} {before : List Declaration}
    (hholds : Holds registry before) (hcompatible : Compatible before) (rest : List Declaration) :
    ((registry.declareAll rest).2 = .ok () ↔ Compatible (before ++ rest)) ∧
      ((registry.declareAll rest).2 = .ok () → Holds (registry.declareAll rest).1 (before ++ rest)) := by
  induction rest generalizing registry before with
  | nil =>
      rw [List.append_nil]
      exact ⟨iff_of_true rfl hcompatible, fun _ => hholds⟩
  | cons d rest ih =>
      by_cases hconflict : ∃ d' ∈ before, Conflicts d' d
      · rcases declare_rejected hholds hcompatible hconflict with ⟨e, herror⟩
        rw [RoleRegistry.declareAll_cons_error herror]
        refine ⟨iff_of_false (fun h => by cases h) fun hall => ?_, fun h => by cases h⟩
        -- The conflicting pair stands in the whole sequence too.
        rcases hconflict with ⟨d', hd', hconflict⟩
        exact (List.pairwise_append.1 hall).2.2 d' hd' d List.mem_cons_self hconflict
      · have hfree : ∀ d' ∈ before, ¬ Conflicts d' d := fun d' hd' h => hconflict ⟨d', hd', h⟩
        rcases declare_accepted hholds hfree with ⟨hok, hnext⟩
        have hcompatible' : Compatible (before ++ [d]) := by
          refine List.pairwise_append.2 ⟨hcompatible, List.pairwise_singleton _ _, ?_⟩
          intro d' hd' d'' hd''
          rw [List.mem_singleton.1 hd'']
          exact hfree d' hd'
        rw [RoleRegistry.declareAll_cons_ok hok, List.append_cons before d rest]
        exact ih hnext hcompatible'

theorem declareAll_new (declarations : List Declaration) :
    ((RoleRegistry.new.declareAll declarations).2 = .ok () ↔ Compatible declarations) ∧
      ((RoleRegistry.new.declareAll declarations).2 = .ok () →
        Holds (RoleRegistry.new.declareAll declarations).1 declarations) := by
  have hempty : Holds RoleRegistry.new [] := fun _ => rfl
  exact declareAll_holds hempty List.Pairwise.nil declarations

/-! ## The order does not matter -/

theorem descriptor_eq {descriptor descriptor' : TopicDescriptor}
    (htype : descriptor.messageType = descriptor'.messageType)
    (htopic : descriptor.topic = descriptor'.topic)
    (hspec : descriptor.topicSpec = descriptor'.topicSpec) : descriptor = descriptor' := by
  rcases descriptor with ⟨⟨messageType, topic⟩, topicSpec⟩
  rcases descriptor' with ⟨⟨messageType', topic'⟩, topicSpec'⟩
  cases htype
  cases htopic
  cases hspec
  rfl

theorem declares_perm {declarations permuted : List Declaration}
    (hperm : permuted.Perm declarations) (messageType : String) (role : Role) :
    declares permuted messageType role = declares declarations messageType role :=
  hperm.any_eq

theorem summary_perm {declarations permuted : List Declaration}
    (hperm : permuted.Perm declarations)
    (hdescriptor : ∀ d ∈ declarations, ∀ d' ∈ declarations, d.messageType = d'.messageType →
      d.descriptor = d'.descriptor) (messageType : String) :
    summary permuted messageType = summary declarations messageType := by
  cases hsummary : summary permuted messageType with
  | none =>
      symm
      rw [summary_eq_none] at hsummary ⊢
      exact fun d hd => hsummary d (hperm.mem_iff.2 hd)
  | some entry =>
      cases hsummary' : summary declarations messageType with
      | none =>
          rcases (summary_eq_some hsummary).1 with ⟨first, hfirst, htype, -⟩
          exact absurd htype (summary_eq_none.1 hsummary' first (hperm.mem_iff.1 hfirst))
      | some entry' =>
          rcases summary_eq_some hsummary with ⟨⟨first, hfirst, htype, hsame⟩, hhas⟩
          rcases summary_eq_some hsummary' with ⟨⟨first', hfirst', htype', hsame'⟩, hhas'⟩
          refine congrArg some (RoleEntry.ext_has ?_ fun role => ?_)
          · rw [hsame, hsame']
            exact hdescriptor first (hperm.mem_iff.1 hfirst) first' hfirst' (htype.trans htype'.symm)
          · rw [hhas, hhas', declares_perm hperm]

/-- What makes declarations ambiguous for a type: two topics, two handlers at one position, or a
handler next to a declaration that the type is cached only. -/
def Ambiguous (declarations : List Declaration) (messageType : String) : Prop :=
  (∃ d ∈ declarations, ∃ d' ∈ declarations, d.messageType = messageType ∧
    d'.messageType = messageType ∧ d.descriptor.topic ≠ d'.descriptor.topic) ∨
  2 ≤ declarations.countP (fun d => d.messageType = messageType ∧ d.role = .handle) ∨
  2 ≤ declarations.countP (fun d => d.messageType = messageType ∧ d.role = .handleBefore) ∨
  (declares declarations messageType .cache = true ∧
    (declares declarations messageType .handle = true ∨
      declares declarations messageType .handleBefore = true))

theorem not_compatible_of_count {declarations : List Declaration} {messageType : String} {role : Role}
    (hrole : role.competes role = true)
    (hcount : 2 ≤ declarations.countP (fun d => d.messageType = messageType ∧ d.role = role)) :
    ¬ Compatible declarations := by
  intro hcompatible
  rw [List.countP_eq_length_filter] at hcount
  have hsublist := List.filter_sublist (p := fun d : Declaration =>
    decide (d.messageType = messageType ∧ d.role = role)) (l := declarations)
  have hchosen : ∀ d ∈ declarations.filter (fun d => d.messageType = messageType ∧ d.role = role),
      d.messageType = messageType ∧ d.role = role := fun d hd =>
    of_decide_eq_true (List.mem_filter.1 hd).2
  -- Two declarations of the role, one after the other.
  rcases hfilter : declarations.filter (fun d => d.messageType = messageType ∧ d.role = role) with
    _ | ⟨d, _ | ⟨d', rest⟩⟩
  · exact absurd hcount (by rw [hfilter]; decide)
  · exact absurd hcount (by rw [hfilter]; exact Nat.not_succ_le_self 1)
  · rw [hfilter] at hchosen hsublist
    have hd := hchosen d List.mem_cons_self
    have hd' := hchosen d' (List.mem_cons_of_mem _ List.mem_cons_self)
    have hpair := List.rel_of_pairwise_cons (hcompatible.sublist hsublist) List.mem_cons_self
    exact hpair ⟨hd.1.trans hd'.1.symm, .inr (by rw [hd.2, hd'.2, hrole])⟩

theorem not_compatible_iff (declarations : List Declaration) :
    ¬ Compatible declarations ↔ ∃ messageType, Ambiguous declarations messageType := by
  constructor
  · intro hnot
    rw [Compatible, List.pairwise_iff_forall_sublist] at hnot
    push Not at hnot
    rcases hnot with ⟨d, d', hsublist, htype, hconflict⟩
    have hd : d ∈ declarations := hsublist.subset List.mem_cons_self
    have hd' : d' ∈ declarations := hsublist.subset (List.mem_cons_of_mem _ List.mem_cons_self)
    have htwo : ∀ role, d.role = role → d'.role = role → 2 ≤ declarations.countP
        (fun e => e.messageType = d.messageType ∧ e.role = role) := by
      intro role hrole hrole'
      refine le_trans ?_ hsublist.countP_le
      simp [htype, hrole, hrole']
    refine ⟨d.messageType, ?_⟩
    rcases hconflict with htopic | hroles
    · exact .inl ⟨d, hd, d', hd', rfl, htype.symm, htopic⟩
    · have hdeclares := declares_iff.2 ⟨d, hd, rfl, rfl⟩
      have hdeclares' := declares_iff.2 ⟨d', hd', htype.symm, rfl⟩
      -- Roles that compete: a handler declared twice, or a cache beside a handler, in either order.
      rcases Role.competes_cases hroles with ⟨hrole, hrole'⟩ | ⟨hrole, hrole'⟩ | ⟨hrole, hrole'⟩ |
        ⟨hrole', hrole⟩
      · exact .inr (.inl (htwo _ hrole hrole'))
      · exact .inr (.inr (.inl (htwo _ hrole hrole')))
      · rw [hrole] at hdeclares
        rcases hrole' with hrole' | hrole' <;> rw [hrole'] at hdeclares'
        · exact .inr (.inr (.inr ⟨hdeclares, .inl hdeclares'⟩))
        · exact .inr (.inr (.inr ⟨hdeclares, .inr hdeclares'⟩))
      · rw [hrole'] at hdeclares'
        rcases hrole with hrole | hrole <;> rw [hrole] at hdeclares
        · exact .inr (.inr (.inr ⟨hdeclares', .inl hdeclares⟩))
        · exact .inr (.inr (.inr ⟨hdeclares', .inr hdeclares⟩))
  · rintro ⟨messageType, ⟨d, hd, d', hd', htype, htype', htopic⟩ | hcount | hcount |
      ⟨hcache, hhandle | hhandle⟩⟩ hcompatible
    · exact htopic (topic_eq hcompatible hd hd' (htype.trans htype'.symm))
    · exact not_compatible_of_count rfl hcount hcompatible
    · exact not_compatible_of_count rfl hcount hcompatible
    · exact not_cache_and_handle hcompatible messageType rfl ⟨hcache, hhandle⟩
    · exact not_cache_and_handle hcompatible messageType rfl ⟨hcache, hhandle⟩

/-- Declarations come to the same in any order, and are rejected for what they say, not for the
order they say it in. -/
theorem roles_order_independent (declarations : List Declaration)
    (hspec : ∀ d ∈ declarations, ∀ d' ∈ declarations, d.messageType = d'.messageType →
      d.descriptor.topicSpec = d'.descriptor.topicSpec) :
    (∀ permuted : List Declaration, permuted.Perm declarations →
      ((RoleRegistry.new.declareAll permuted).2 = .ok () ↔
        (RoleRegistry.new.declareAll declarations).2 = .ok ()) ∧
      ((RoleRegistry.new.declareAll declarations).2 = .ok () →
        let registry := (RoleRegistry.new.declareAll declarations).1
        let registry' := (RoleRegistry.new.declareAll permuted).1
        registry' = registry ∧ registry'.published = registry.published ∧
          registry'.consumed = registry.consumed ∧ registry'.tables = registry.tables ∧
          ∀ sha256, registry'.changelog sha256 = registry.changelog sha256)) ∧
    (∀ (registry : RoleRegistry) (d : Declaration) (e : RoleError),
      (registry.declare d).2 = .error e → (registry.declare d).1 = registry) ∧
    ((∃ e, (RoleRegistry.new.declareAll declarations).2 = .error e) ↔
      ∃ messageType, Ambiguous declarations messageType) := by
  refine ⟨fun permuted hperm => ?_, fun registry d e => RoleRegistry.declare_error, ?_⟩
  · have hcompatible : Compatible permuted ↔ Compatible declarations :=
      hperm.pairwise_iff fun hfree hconflict => hfree hconflict.symm
    have haccepted : (RoleRegistry.new.declareAll permuted).2 = .ok () ↔
        (RoleRegistry.new.declareAll declarations).2 = .ok () := by
      rw [(declareAll_new permuted).1, hcompatible, (declareAll_new declarations).1]
    refine ⟨haccepted, fun hok => ?_⟩
    -- An accepted list has one topic a type, so which declaration comes first cannot be seen.
    have hdescriptor : ∀ d ∈ declarations, ∀ d' ∈ declarations, d.messageType = d'.messageType →
        d.descriptor = d'.descriptor := by
      intro d hd d' hd' htype
      have htopic := topic_eq ((declareAll_new declarations).1.1 hok) hd hd' htype
      exact descriptor_eq htype htopic (hspec d hd d' hd' htype)
    have hregistry : (RoleRegistry.new.declareAll permuted).1 =
        (RoleRegistry.new.declareAll declarations).1 := by
      refine RoleRegistry.ext (SortedMap.ext_get? fun messageType => ?_)
      rw [(declareAll_new permuted).2 (haccepted.2 hok), (declareAll_new declarations).2 hok,
        summary_perm hperm hdescriptor]
    simp only [hregistry, true_and, implies_true]
  · rw [← not_compatible_iff, ← (declareAll_new declarations).1]
    cases (RoleRegistry.new.declareAll declarations).2 with
    | ok _ =>
        exact iff_of_false (fun ⟨_, h⟩ => by cases h) fun h => h rfl
    | error e =>
        exact iff_of_true ⟨e, rfl⟩ fun h => by cases h

/-- Orders that are published and handled at both positions. -/
def orderRoles : List Declaration :=
  let orders : TopicDescriptor :=
    { messageType := "order_snapshot", topic := "orders", topicSpec := .compacted }
  [⟨orders, .handle⟩, ⟨orders, .publish⟩, ⟨orders, .handleBefore⟩]

theorem roles_order_independent_orders :
    (∀ permuted : List Declaration, permuted.Perm orderRoles →
      ((RoleRegistry.new.declareAll permuted).2 = .ok () ↔
        (RoleRegistry.new.declareAll orderRoles).2 = .ok ()) ∧
      ((RoleRegistry.new.declareAll orderRoles).2 = .ok () →
        let registry := (RoleRegistry.new.declareAll orderRoles).1
        let registry' := (RoleRegistry.new.declareAll permuted).1
        registry' = registry ∧ registry'.published = registry.published ∧
          registry'.consumed = registry.consumed ∧ registry'.tables = registry.tables ∧
          ∀ sha256, registry'.changelog sha256 = registry.changelog sha256)) ∧
    (∀ (registry : RoleRegistry) (d : Declaration) (e : RoleError),
      (registry.declare d).2 = .error e → (registry.declare d).1 = registry) ∧
    ((∃ e, (RoleRegistry.new.declareAll orderRoles).2 = .error e) ↔
      ∃ messageType, Ambiguous orderRoles messageType) :=
  roles_order_independent orderRoles (by decide)

end Roles
end Kafkaman
