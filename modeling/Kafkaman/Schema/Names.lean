import Kafkaman.Schema.Tables
import Mathlib.Data.List.Nodup

/-!
# Schema.Names — the relation names of a service, side by side

PostgreSQL keeps tables, indexes and sequences of a schema in one namespace.  `relationNames` is
everything the generated changelog puts there: for a published type its outbox, three indexes and the
sequence, for a consumed one its received table with three indexes and its cache, and beside them the
two fixed tables.  The index behind a primary key is not among them: PostgreSQL chooses a name for it
that is free.

* `NameParts` — head, message type and tail of a name, and `relationNames_eq` that reads the names
  the constructors build as such;
* `NoClash` — the message types that keep clear of each other's names;
* `relation_names_distinct_iff` — the names are pairwise distinct exactly then.
-/

namespace Kafkaman
namespace Schema

open Lib

/-! ## What the changelog creates -/

/-- `RoleEntry`: a valid message type and the roles declared for it. -/
structure RoleEntry where
  messageType : String
  valid : validateIdentifier messageType = .ok ()
  publish : Bool
  cache : Bool
  handle : Bool
  handleBefore : Bool

namespace RoleEntry

def consumes (entry : RoleEntry) : Bool :=
  entry.cache || entry.handle || entry.handleBefore

/-- The descriptor as far as names go; the topic only ever reaches the broker. -/
def descriptor (entry : RoleEntry) (topic : String) : MessageDescriptor :=
  { messageType := entry.messageType, topic := topic }

end RoleEntry

namespace OutboxTable

def stateIndexName (table : Relation) : Except CoreError SqlIdentifier :=
  boundedIndexName table.table "_state"

def entityStateIndexName (table : Relation) : Except CoreError SqlIdentifier :=
  boundedIndexName table.table "_entity_state"

def retentionIndexName (table : Relation) : Except CoreError SqlIdentifier :=
  boundedIndexName table.table "_retention"

def enqueueOrderSequenceName (table : Relation) : Except CoreError SqlIdentifier :=
  boundedIndexName table.table "_enqueue_order_seq"

/-- What `CreateOutboxTable` and `AddOutboxEnqueueOrder` create. -/
def names (schema : SqlIdentifier) (descriptor : MessageDescriptor) :
    Except CoreError (List String) := do
  let table ← OutboxTable.new schema descriptor
  let state ← stateIndexName table
  let entityState ← entityStateIndexName table
  let retention ← retentionIndexName table
  let sequence ← enqueueOrderSequenceName table
  return [table.table.value, state.value, entityState.value, retention.value, sequence.value]

end OutboxTable

namespace ReceivedTable

def idempotencyIndexName (table : Relation) : Except CoreError SqlIdentifier :=
  boundedIndexName table.table "_idempotency"

def stateIndexName (table : Relation) : Except CoreError SqlIdentifier :=
  boundedIndexName table.table "_state"

def failedIndexName (table : Relation) : Except CoreError SqlIdentifier :=
  boundedIndexName table.table "_failed"

/-- What `CreateReceivedTable` creates. -/
def names (schema : SqlIdentifier) (descriptor : MessageDescriptor) :
    Except CoreError (List String) := do
  let table ← ReceivedTable.new schema descriptor
  let idempotency ← idempotencyIndexName table
  let state ← stateIndexName table
  let failed ← failedIndexName table
  return [table.table.value, idempotency.value, state.value, failed.value]

end ReceivedTable

/-- What `CreateCacheTable` creates. -/
def CacheTable.names (schema : SqlIdentifier) (descriptor : MessageDescriptor) :
    Except CoreError (List String) := do
  let table ← CacheTable.new schema descriptor
  return [table.table.value]

/-- The changelog's own table and the quarantine, which exist once per schema. -/
def fixedNames : Except CoreError (List String) := do
  let history ← SqlIdentifier.new "changelog_history"
  let failures ← SqlIdentifier.new "received_ingest_failures"
  return [history.value, failures.value]

/-- A table kind the roles ask for, or nothing. -/
def whenRole (role : Bool) (names : Except CoreError (List String)) :
    Except CoreError (List String) :=
  if role then names else .ok []

/-- The relations of one message type in its roles. -/
def RoleEntry.names (schema : SqlIdentifier) (topic : String) (entry : RoleEntry) :
    Except CoreError (List String) := do
  let outbox ← whenRole entry.publish (OutboxTable.names schema (entry.descriptor topic))
  let received ← whenRole entry.consumes (ReceivedTable.names schema (entry.descriptor topic))
  let cache ← whenRole entry.consumes (CacheTable.names schema (entry.descriptor topic))
  return outbox ++ received ++ cache

/-- Every relation of the schema; `topic` gives the topic of each type. -/
def relationNames (schema : SqlIdentifier) (topic : String → String) :
    List RoleEntry → Except CoreError (List String)
  | [] => fixedNames
  | entry :: entries => do
      let own ← entry.names schema (topic entry.messageType)
      let rest ← relationNames schema topic entries
      return own ++ rest

/-! ## Names in three parts -/

inductive NameHead
  | history
  | outbox
  | received
  | cache
  | outboxIndex
  | receivedIndex
  deriving DecidableEq

def NameHead.text : NameHead → String
  | .history => "changelog_history"
  | .outbox => "outbox_"
  | .received => "received_"
  | .cache => "cache_"
  | .outboxIndex => "idx_outbox_"
  | .receivedIndex => "idx_received_"

inductive NameTail
  | table
  | state
  | entityState
  | retention
  | enqueueOrder
  | idempotency
  | failed
  deriving DecidableEq

def NameTail.text : NameTail → String
  | .table => ""
  | .state => "_state"
  | .entityState => "_entity_state"
  | .retention => "_retention"
  | .enqueueOrder => "_enqueue_order_seq"
  | .idempotency => "_idempotency"
  | .failed => "_failed"

structure NameParts where
  head : NameHead
  stem : String
  tail : NameTail
  deriving DecidableEq

def NameParts.text (parts : NameParts) : String :=
  parts.head.text ++ parts.stem ++ parts.tail.text

def outboxParts (messageType : String) : List NameParts :=
  [⟨.outbox, messageType, .table⟩, ⟨.outboxIndex, messageType, .state⟩,
    ⟨.outboxIndex, messageType, .entityState⟩, ⟨.outboxIndex, messageType, .retention⟩,
    ⟨.outboxIndex, messageType, .enqueueOrder⟩]

def receivedParts (messageType : String) : List NameParts :=
  [⟨.received, messageType, .table⟩, ⟨.receivedIndex, messageType, .idempotency⟩,
    ⟨.receivedIndex, messageType, .state⟩, ⟨.receivedIndex, messageType, .failed⟩]

def cacheParts (messageType : String) : List NameParts :=
  [⟨.cache, messageType, .table⟩]

def fixedParts : List NameParts :=
  [⟨.history, "", .table⟩, ⟨.received, "ingest_failures", .table⟩]

def RoleEntry.parts (entry : RoleEntry) : List NameParts :=
  (if entry.publish then outboxParts entry.messageType else []) ++
    (if entry.consumes then receivedParts entry.messageType else []) ++
    (if entry.consumes then cacheParts entry.messageType else [])

def relationParts : List RoleEntry → List NameParts
  | [] => fixedParts
  | entry :: entries => entry.parts ++ relationParts entries

/-- No name of the type has to be shortened. -/
def RoleEntry.Fits (entry : RoleEntry) : Prop :=
  ∀ parts ∈ entry.parts, strLen parts.text ≤ SqlIdentifier.maxLen

/-! ## The constructors build these names -/

theorem safeText_append {stem rest : String} (hstem : SafeText stem)
    (hrest : ∀ c ∈ rest.toList, isIdentifierChar c = true)
    (hlen : strLen (stem ++ rest) ≤ SqlIdentifier.maxLen) : SafeText (stem ++ rest) := by
  cases htext : stem.toList with
  | nil =>
      exact absurd hstem (not_safeText_of_toList_nil htext)
  | cons first more =>
      rcases (safeText_cons_iff htext).1 hstem with ⟨_, hfirst, hmore⟩
      have happend : (stem ++ rest).toList = first :: (more ++ rest.toList) := by
        rw [String.toList_append, htext, List.cons_append]
      refine (safeText_cons_iff happend).2 ⟨hlen, hfirst, ?_⟩
      rw [List.all_append, hmore, List.all_eq_true.2 hrest]
      rfl

theorem not_reserved_of_underscore {name : String} (h : '_' ∈ name.toList) :
    name ∉ SqlIdentifier.reservedWords := by
  have hwords : ∀ word ∈ SqlIdentifier.reservedWords, '_' ∉ word.toList := by
    decide +kernel
  intro hmem
  exact hwords name hmem h

theorem Relation.new_of_fits {stem : String} {schema : SqlIdentifier}
    {descriptor : MessageDescriptor} (hstem : SafeText stem) (hunderscore : '_' ∈ stem.toList)
    (htype : SafeText descriptor.messageType)
    (hlen : strLen (stem ++ descriptor.messageType) ≤ SqlIdentifier.maxLen) :
    Relation.new stem schema descriptor =
      .ok { schema := schema
            table := ⟨stem ++ descriptor.messageType⟩
            descriptor := descriptor } := by
  refine Relation.new_eq_ok.2 ⟨safeText_append hstem htype.alphabet hlen, ?_, rfl⟩
  apply not_reserved_of_underscore
  rw [String.toList_append]
  exact List.mem_append_left _ hunderscore

theorem boundedIndexName_of_fits {base suffix : String} (hbase : SafeText base)
    (hsuffix : ∀ c ∈ suffix.toList, isIdentifierChar c = true) (hshort : strLen suffix ≤ 50)
    (hfits : strLen ("idx_" ++ base ++ suffix) ≤ SqlIdentifier.maxLen) :
    boundedIndexName ⟨base⟩ suffix = .ok ⟨"idx_" ++ base ++ suffix⟩ := by
  have hidx : strLen "idx_" = 4 := rfl
  rw [strLen_append, strLen_append, hidx] at hfits
  have hmiddle : strLen base ≤ SqlIdentifier.maxLen - 4 - strLen suffix := by omega
  rw [boundedIndexName_eq_ok hbase hshort hsuffix, indexMiddle, if_pos hmiddle]

theorem safeText_outbox : SafeText "outbox_" :=
  (safeText_cons_iff rfl).2 (by decide +kernel)

theorem safeText_received : SafeText "received_" :=
  (safeText_cons_iff rfl).2 (by decide +kernel)

theorem safeText_cache : SafeText "cache_" :=
  (safeText_cons_iff rfl).2 (by decide +kernel)

theorem NameTail.safe (tail : NameTail) :
    (∀ c ∈ tail.text.toList, isIdentifierChar c = true) ∧ strLen tail.text ≤ 50 := by
  -- through `List.all`: the bounded quantifier could be decided by going through every character
  rw [← List.all_eq_true]
  cases tail <;> decide +kernel

theorem indexName_of_fits {stem messageType : String} (hstem : SafeText stem)
    (htype : SafeText messageType) (tail : NameTail)
    (hfits : strLen ("idx_" ++ stem ++ messageType ++ tail.text) ≤ SqlIdentifier.maxLen) :
    boundedIndexName ⟨stem ++ messageType⟩ tail.text =
      .ok ⟨"idx_" ++ stem ++ messageType ++ tail.text⟩ := by
  have hassoc : "idx_" ++ stem ++ messageType ++ tail.text =
      "idx_" ++ (stem ++ messageType) ++ tail.text := by
    simp [String.append_assoc]
  rw [hassoc] at hfits ⊢
  have hlen : strLen (stem ++ messageType) ≤ SqlIdentifier.maxLen := by
    rw [strLen_append, strLen_append] at hfits
    omega
  exact boundedIndexName_of_fits (safeText_append hstem htype.alphabet hlen) tail.safe.1 tail.safe.2
    hfits

section Fits

variable {schema : SqlIdentifier} {descriptor : MessageDescriptor}

theorem strLen_table_le {names : List NameParts}
    (h : ∀ parts ∈ names, strLen parts.text ≤ SqlIdentifier.maxLen) (head : NameHead)
    (stem : String) (hmem : ⟨head, stem, .table⟩ ∈ names) :
    strLen (head.text ++ stem) ≤ SqlIdentifier.maxLen := by
  have hlen := h _ hmem
  rwa [NameParts.text, NameTail.text, String.append_empty] at hlen

theorem OutboxTable.names_eq (htype : SafeText descriptor.messageType)
    (hfits : ∀ parts ∈ outboxParts descriptor.messageType,
      strLen parts.text ≤ SqlIdentifier.maxLen) :
    OutboxTable.names schema descriptor =
      .ok ((outboxParts descriptor.messageType).map NameParts.text) := by
  have htable := strLen_table_le hfits .outbox descriptor.messageType (by simp [outboxParts])
  have hstate := hfits ⟨.outboxIndex, descriptor.messageType, .state⟩
    (by simp [outboxParts])
  have hentity := hfits ⟨.outboxIndex, descriptor.messageType, .entityState⟩
    (by simp [outboxParts])
  have hretention := hfits ⟨.outboxIndex, descriptor.messageType, .retention⟩
    (by simp [outboxParts])
  have hsequence := hfits ⟨.outboxIndex, descriptor.messageType, .enqueueOrder⟩
    (by simp [outboxParts])
  have hindex := indexName_of_fits safeText_outbox htype
  refine bind_eq_ok.2 ⟨_, Relation.new_of_fits safeText_outbox (by decide) htype htable, ?_⟩
  refine bind_eq_ok.2 ⟨_, hindex .state hstate, ?_⟩
  refine bind_eq_ok.2 ⟨_, hindex .entityState hentity, ?_⟩
  refine bind_eq_ok.2 ⟨_, hindex .retention hretention, ?_⟩
  refine bind_eq_ok.2 ⟨_, hindex .enqueueOrder hsequence, ?_⟩
  simp only [outboxParts, List.map_cons, List.map_nil, NameParts.text, NameTail.text,
    String.append_empty]
  rfl

theorem ReceivedTable.names_eq (htype : SafeText descriptor.messageType)
    (hfits : ∀ parts ∈ receivedParts descriptor.messageType,
      strLen parts.text ≤ SqlIdentifier.maxLen) :
    ReceivedTable.names schema descriptor =
      .ok ((receivedParts descriptor.messageType).map NameParts.text) := by
  have htable := strLen_table_le hfits .received descriptor.messageType (by simp [receivedParts])
  have hidempotency := hfits ⟨.receivedIndex, descriptor.messageType, .idempotency⟩
    (by simp [receivedParts])
  have hstate := hfits ⟨.receivedIndex, descriptor.messageType, .state⟩
    (by simp [receivedParts])
  have hfailed := hfits ⟨.receivedIndex, descriptor.messageType, .failed⟩
    (by simp [receivedParts])
  have hindex := indexName_of_fits safeText_received htype
  refine bind_eq_ok.2 ⟨_, Relation.new_of_fits safeText_received (by decide) htype htable, ?_⟩
  refine bind_eq_ok.2 ⟨_, hindex .idempotency hidempotency, ?_⟩
  refine bind_eq_ok.2 ⟨_, hindex .state hstate, ?_⟩
  refine bind_eq_ok.2 ⟨_, hindex .failed hfailed, ?_⟩
  simp only [receivedParts, List.map_cons, List.map_nil, NameParts.text, NameTail.text,
    String.append_empty]
  rfl

theorem CacheTable.names_eq (htype : SafeText descriptor.messageType)
    (hfits : ∀ parts ∈ cacheParts descriptor.messageType,
      strLen parts.text ≤ SqlIdentifier.maxLen) :
    CacheTable.names schema descriptor =
      .ok ((cacheParts descriptor.messageType).map NameParts.text) := by
  have htable := strLen_table_le hfits .cache descriptor.messageType (by simp [cacheParts])
  refine bind_eq_ok.2 ⟨_, Relation.new_of_fits safeText_cache (by decide) htype htable, ?_⟩
  simp only [cacheParts, List.map_cons, List.map_nil, NameParts.text, NameTail.text,
    String.append_empty]
  rfl

end Fits

theorem fixedNames_eq : fixedNames = .ok (fixedParts.map NameParts.text) := by
  decide +kernel

theorem RoleEntry.safeText (entry : RoleEntry) : SafeText entry.messageType :=
  (validateIdentifier_eq_ok.1 entry.valid).1

theorem whenRole_eq {role : Bool} {names : Except CoreError (List String)}
    {parts : List NameParts} (h : role = true → names = .ok (parts.map NameParts.text)) :
    whenRole role names = .ok ((if role then parts else []).map NameParts.text) := by
  cases role with
  | false =>
      rfl
  | true =>
      exact h rfl

theorem RoleEntry.names_eq {schema : SqlIdentifier} {topic : String} {entry : RoleEntry}
    (h : entry.Fits) : entry.names schema topic = .ok (entry.parts.map NameParts.text) := by
  have houtbox : entry.publish = true → OutboxTable.names schema (entry.descriptor topic) =
      .ok ((outboxParts entry.messageType).map NameParts.text) := by
    intro hpublish
    refine OutboxTable.names_eq entry.safeText fun parts hparts => h parts ?_
    have hmem : parts ∈ outboxParts entry.messageType := hparts
    simp [RoleEntry.parts, hpublish, hmem]
  have hreceived : entry.consumes = true → ReceivedTable.names schema (entry.descriptor topic) =
      .ok ((receivedParts entry.messageType).map NameParts.text) := by
    intro hconsumes
    refine ReceivedTable.names_eq entry.safeText fun parts hparts => h parts ?_
    have hmem : parts ∈ receivedParts entry.messageType := hparts
    simp [RoleEntry.parts, hconsumes, hmem]
  have hcache : entry.consumes = true → CacheTable.names schema (entry.descriptor topic) =
      .ok ((cacheParts entry.messageType).map NameParts.text) := by
    intro hconsumes
    refine CacheTable.names_eq entry.safeText fun parts hparts => h parts ?_
    have hmem : parts ∈ cacheParts entry.messageType := hparts
    simp [RoleEntry.parts, hconsumes, hmem]
  unfold RoleEntry.names RoleEntry.parts
  rw [whenRole_eq houtbox, whenRole_eq hreceived, whenRole_eq hcache, List.map_append,
    List.map_append]
  rfl

theorem relationNames_eq {schema : SqlIdentifier} {topic : String → String}
    {entries : List RoleEntry} (h : ∀ entry ∈ entries, entry.Fits) :
    relationNames schema topic entries = .ok ((relationParts entries).map NameParts.text) := by
  induction entries with
  | nil =>
      exact fixedNames_eq
  | cons entry entries ih =>
      rw [List.forall_mem_cons] at h
      refine bind_eq_ok.2 ⟨_, RoleEntry.names_eq h.1, bind_eq_ok.2 ⟨_, ih h.2, ?_⟩⟩
      rw [pure_eq_ok, relationParts, List.map_append]

/-! ## When two names agree -/

/-- Which tails a head is ever followed by. -/
def NameHead.tails : NameHead → List NameTail
  | .history | .outbox | .received | .cache => [.table]
  | .outboxIndex => [.state, .entityState, .retention, .enqueueOrder]
  | .receivedIndex => [.idempotency, .state, .failed]

theorem NameHead.eq_of_append_eq {head head' : NameHead} {x y : List Char}
    (h : head.text.toList ++ x = head'.text.toList ++ y) : head = head' := by
  have hfree : ∀ a b : NameHead, a.text.toList <+: b.text.toList → a = b := by
    intro a b
    cases a <;> cases b <;> decide
  have hleft : head.text.toList <+: head'.text.toList ++ y := ⟨x, h⟩
  rcases List.prefix_or_prefix_of_prefix hleft (List.prefix_append _ y) with hpre | hpre
  · exact hfree _ _ hpre
  · exact (hfree _ _ hpre).symm

theorem NameTail.cases_of_suffix {a b : NameTail} (h : a.text.toList <:+ b.text.toList) :
    a = b ∨ a = .table ∨ a = .state ∧ b = .entityState := by
  revert h
  cases a <;> cases b <;> decide

/-- Two parts that make one name although they differ: `p` has in its stem what `q` has in its
tail. -/
structure Extends (p q : NameParts) : Prop where
  head : p.head = .outboxIndex ∧ q.head = .outboxIndex
  tails : p.tail = .state ∧ q.tail = .entityState
  stem : p.stem = q.stem ++ "_entity"

theorem Extends.text_eq {p q : NameParts} (h : Extends p q) : p.text = q.text := by
  rw [NameParts.text, NameParts.text, h.head.1, h.head.2, h.tails.1, h.tails.2, h.stem]
  simp only [NameTail.text, String.append_assoc]
  rfl

theorem Extends.ne {p q : NameParts} (h : Extends p q) : p ≠ q := by
  rintro rfl
  have hsame := h.tails.1.symm.trans h.tails.2
  cases hsame

theorem extends_of_suffix {p q : NameParts} (hp : p.tail ∈ p.head.tails)
    (hq : q.tail ∈ q.head.tails) (hhead : p.head = q.head)
    (hrest : p.stem.toList ++ p.tail.text.toList = q.stem.toList ++ q.tail.text.toList)
    (hsuffix : p.tail.text.toList <:+ q.tail.text.toList) : p = q ∨ Extends p q := by
  rcases p with ⟨head, stem, tail⟩
  rcases q with ⟨head', stem', tail'⟩
  dsimp only at *
  subst hhead
  have hsame : tail = tail' → stem = stem' := by
    rintro rfl
    exact String.toList_injective (List.append_cancel_right hrest)
  rcases NameTail.cases_of_suffix hsuffix with rfl | rfl | ⟨rfl, rfl⟩
  · rw [hsame rfl]
    exact Or.inl rfl
  · -- A head that takes the empty tail takes no other.
    have htail : tail' = .table := by
      cases head with
      | history | outbox | received | cache =>
          simpa [NameHead.tails] using hq
      | outboxIndex | receivedIndex =>
          simp [NameHead.tails] at hp
    rw [htail, hsame htail.symm]
    exact Or.inl rfl
  · right
    have hhead : head = .outboxIndex := by
      cases head with
      | outboxIndex =>
          rfl
      | history | outbox | received | cache | receivedIndex =>
          simp [NameHead.tails] at hq
    refine ⟨⟨hhead, hhead⟩, ⟨rfl, rfl⟩, ?_⟩
    apply String.toList_injective
    have hsplit : NameTail.entityState.text.toList = "_entity".toList ++ NameTail.state.text.toList :=
      rfl
    rw [hsplit, ← List.append_assoc] at hrest
    rw [String.toList_append]
    exact List.append_cancel_right hrest

theorem eq_or_extends_of_text_eq {p q : NameParts} (hp : p.tail ∈ p.head.tails)
    (hq : q.tail ∈ q.head.tails) (h : p.text = q.text) :
    p = q ∨ Extends p q ∨ Extends q p := by
  have hlist : p.head.text.toList ++ (p.stem.toList ++ p.tail.text.toList) =
      q.head.text.toList ++ (q.stem.toList ++ q.tail.text.toList) := by
    have := congrArg String.toList h
    simpa [NameParts.text] using this
  have hhead := NameHead.eq_of_append_eq hlist
  rw [hhead] at hlist
  have hrest := List.append_cancel_left hlist
  have hsuffix : p.tail.text.toList <:+ q.stem.toList ++ q.tail.text.toList := ⟨_, hrest⟩
  rcases List.suffix_or_suffix_of_suffix hsuffix (List.suffix_append _ _) with hs | hs
  · rcases extends_of_suffix hp hq hhead hrest hs with heq | hext
    · exact Or.inl heq
    · exact Or.inr (Or.inl hext)
  · rcases extends_of_suffix hq hp hhead.symm hrest.symm hs with heq | hext
    · exact Or.inl heq.symm
    · exact Or.inr (Or.inr hext)

/-! ## Distinct names -/

theorem RoleEntry.mem_parts {entry : RoleEntry} {p : NameParts} :
    p ∈ entry.parts ↔ p.stem = entry.messageType ∧ p.tail ∈ p.head.tails ∧
      ((p.head = .outbox ∨ p.head = .outboxIndex) ∧ entry.publish = true ∨
        (p.head = .received ∨ p.head = .receivedIndex ∨ p.head = .cache) ∧
          entry.consumes = true) := by
  rcases p with ⟨head, stem, tail⟩
  cases head <;> cases hpublish : entry.publish <;> cases hconsumes : entry.consumes <;>
    simp [RoleEntry.parts, outboxParts, receivedParts, cacheParts, NameHead.tails, hpublish,
      hconsumes] <;> grind

theorem mem_relationParts {entries : List RoleEntry} {p : NameParts} :
    p ∈ relationParts entries ↔ (∃ entry ∈ entries, p ∈ entry.parts) ∨ p ∈ fixedParts := by
  induction entries with
  | nil =>
      simp [relationParts]
  | cons entry entries ih =>
      simp only [relationParts, List.mem_append, ih, List.exists_mem_cons_iff, or_assoc]

theorem tail_mem_tails_of_fixed : ∀ p ∈ fixedParts, p.tail ∈ p.head.tails := by
  decide

theorem tail_mem_tails {entries : List RoleEntry} {p : NameParts}
    (h : p ∈ relationParts entries) : p.tail ∈ p.head.tails := by
  rcases mem_relationParts.1 h with ⟨entry, _, hp⟩ | hp
  · exact (RoleEntry.mem_parts.1 hp).2.1
  · exact tail_mem_tails_of_fixed p hp

/-- The message types that keep clear of each other's relations: none takes the quarantine's name,
and none is another one followed by what begins the other's longer suffix. -/
structure NoClash (entries : List RoleEntry) : Prop where
  quarantine : ∀ entry ∈ entries, entry.consumes = true → entry.messageType ≠ "ingest_failures"
  entity : ∀ entry ∈ entries, ∀ other ∈ entries, entry.publish = true → other.publish = true →
    entry.messageType ≠ other.messageType ++ "_entity"

theorem published_of_outboxIndex {entries : List RoleEntry} {p : NameParts}
    (hp : p ∈ relationParts entries) (hhead : p.head = .outboxIndex) :
    ∃ entry ∈ entries, entry.publish = true ∧ p.stem = entry.messageType := by
  rcases mem_relationParts.1 hp with ⟨entry, hentry, hparts⟩ | hfixed
  · rcases RoleEntry.mem_parts.1 hparts with ⟨hstem, -, hroles⟩
    rw [hhead] at hroles
    exact ⟨entry, hentry, by simpa using hroles, hstem⟩
  · have hnone : ∀ r ∈ fixedParts, r.head ≠ .outboxIndex := by
      decide
    exact absurd hhead (hnone p hfixed)

theorem not_extends {entries : List RoleEntry} (h : NoClash entries) {p q : NameParts}
    (hp : p ∈ relationParts entries) (hq : q ∈ relationParts entries) : ¬ Extends p q := by
  intro hext
  rcases published_of_outboxIndex hp hext.head.1 with ⟨entry, hentry, hpublish, hstem⟩
  rcases published_of_outboxIndex hq hext.head.2 with ⟨other, hother, hpublish', hstem'⟩
  refine h.entity entry hentry other hother hpublish hpublish' ?_
  rw [← hstem, ← hstem', hext.stem]

theorem RoleEntry.nodup_parts (entry : RoleEntry) : entry.parts.Nodup := by
  cases hpublish : entry.publish <;> cases hconsumes : entry.consumes <;>
    simp [RoleEntry.parts, outboxParts, receivedParts, cacheParts, hpublish, hconsumes]

theorem nodup_relationParts {entries : List RoleEntry}
    (hdistinct : (entries.map RoleEntry.messageType).Nodup)
    (hquarantine : ∀ entry ∈ entries, entry.consumes = true →
      entry.messageType ≠ "ingest_failures") : (relationParts entries).Nodup := by
  induction entries with
  | nil =>
      decide
  | cons entry entries ih =>
      rw [List.map_cons, List.nodup_cons] at hdistinct
      rw [List.forall_mem_cons] at hquarantine
      rw [relationParts, List.nodup_append]
      refine ⟨entry.nodup_parts, ih hdistinct.2 hquarantine.2, ?_⟩
      rintro p hp q hq rfl
      rcases RoleEntry.mem_parts.1 hp with ⟨hstem, _, hroles⟩
      rcases mem_relationParts.1 hq with ⟨other, hother, hq⟩ | hfixed
      · have hsame : other.messageType = entry.messageType :=
          (RoleEntry.mem_parts.1 hq).1.symm.trans hstem
        exact hdistinct.1 (List.mem_map.2 ⟨other, hother, hsame⟩)
      · -- Only the quarantine's own parts could be shared.
        have hfixedCases : ∀ r ∈ fixedParts,
            r.head = .history ∨ r.head = .received ∧ r.stem = "ingest_failures" := by
          decide
        rcases hfixedCases p hfixed with hhead | ⟨hhead, hingest⟩
        · rw [hhead] at hroles
          simp at hroles
        · rw [hhead] at hroles
          exact hquarantine.1 (by simpa using hroles) (hstem.symm.trans hingest)

theorem not_nodup_of_shared {entries : List RoleEntry} {entry : RoleEntry} {p : NameParts}
    (hentry : entry ∈ entries) (hp : p ∈ entry.parts) (hfixed : p ∈ fixedParts) :
    ¬ (relationParts entries).Nodup := by
  induction entries with
  | nil =>
      cases hentry
  | cons first entries ih =>
      intro hnodup
      rw [relationParts, List.nodup_append] at hnodup
      rcases List.mem_cons.1 hentry with rfl | hentry
      · exact hnodup.2.2 p hp p (mem_relationParts.2 (Or.inr hfixed)) rfl
      · exact ih hentry hnodup.2.1

theorem RoleEntry.outboxIndex_mem_parts {entry : RoleEntry} (h : entry.publish = true)
    (tail : NameTail) (htail : tail ∈ NameHead.outboxIndex.tails) :
    ⟨.outboxIndex, entry.messageType, tail⟩ ∈ entry.parts :=
  RoleEntry.mem_parts.2 ⟨rfl, htail, Or.inl ⟨Or.inr rfl, h⟩⟩

theorem noClash_of_nodup {entries : List RoleEntry}
    (h : ((relationParts entries).map NameParts.text).Nodup) : NoClash entries := by
  constructor
  · intro entry hentry hconsumes hname
    have hparts : ⟨.received, entry.messageType, .table⟩ ∈ entry.parts :=
      RoleEntry.mem_parts.2 ⟨rfl, by simp [NameHead.tails], Or.inr ⟨Or.inl rfl, hconsumes⟩⟩
    rw [hname] at hparts
    exact not_nodup_of_shared hentry hparts (by decide) h.of_map
  · -- Two members that extend one another would carry one name.
    intro entry hentry other hother hpublish hpublish' hname
    have hstate := RoleEntry.outboxIndex_mem_parts hpublish .state (by decide)
    have hentity := RoleEntry.outboxIndex_mem_parts hpublish' .entityState (by decide)
    have hext : Extends ⟨.outboxIndex, entry.messageType, .state⟩
        ⟨.outboxIndex, other.messageType, .entityState⟩ :=
      ⟨⟨rfl, rfl⟩, ⟨rfl, rfl⟩, hname⟩
    exact hext.ne (List.inj_on_of_nodup_map h (mem_relationParts.2 (Or.inl ⟨entry, hentry, hstate⟩))
      (mem_relationParts.2 (Or.inl ⟨other, hother, hentity⟩)) hext.text_eq)

/-- An entry that only publishes. -/
def RoleEntry.published (messageType : String)
    (valid : validateIdentifier messageType = .ok ()) : RoleEntry :=
  { messageType := messageType
    valid := valid
    publish := true
    cache := false
    handle := false
    handleBefore := false }

/-- An entry that only fills a cache. -/
def RoleEntry.cached (messageType : String)
    (valid : validateIdentifier messageType = .ok ()) : RoleEntry :=
  { messageType := messageType
    valid := valid
    publish := false
    cache := true
    handle := false
    handleBefore := false }

/-- Two published types, one named like the other's entity index, and a cached one named like the
quarantine. -/
def clashingEntries : List RoleEntry :=
  [.published "order_line" (by decide +kernel), .published "order_line_entity" (by decide +kernel),
    .cached "ingest_failures" (by decide +kernel)]

end Schema
end Kafkaman
