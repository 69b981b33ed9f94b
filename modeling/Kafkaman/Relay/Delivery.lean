import Kafkaman.Broker.RoundTrip
import Kafkaman.Outbox.Contents
import Kafkaman.Relay.Order

/-!
# Relay.Delivery — what the topic holds of the outbox

Every request stems from a committed row, every record from a request, and a row is `Published` only
after a record of it was appended.  The lease ties the append to the row: a worker whose claim is live
appends a row that is still `Publishing`, so the topic is in publish order.

* `Carried` — rows in batches, requests and records;
* `Positions` — where records land;
* `Delivered` — published rows have a record;
* `delivery_of_live` — all of it, in every run whose appends happen under a live lease.
-/

namespace Kafkaman
namespace Relay

open Lib Outbox Broker

/-- If the step is an append, the claim it was sent under is still the row's. -/
def LeaseLive {P : Type} (w : World) : Action P → Prop
  | .append id =>
      ∀ request ∈ w.inFlight, request.id = id →
        ∃ r ∈ w.outbox.table, r.messageId = request.claimed.messageId ∧
          r.status = .publishing ∧ r.claimId = some request.claimed.claimId
  | _ => True

instance {P : Type} (w : World) (a : Action P) : Decidable (LeaseLive w a) :=
  match a with
  | .append id =>
      inferInstanceAs (Decidable (∀ request ∈ w.inFlight, request.id = id →
        ∃ r ∈ w.outbox.table.rows, r.messageId = request.claimed.messageId ∧
          r.status = .publishing ∧ r.claimId = some request.claimed.claimId))
  | .enqueue _ _ _ _ | .enqueueRolledBack | .purge _ _ _ | .claim _ _ | .publish _ _
  | .acknowledge _ | .fail _ _ | .mark _ _ _ | .crash _ =>
      isTrue trivial

/-- Distinct rows were enqueued under distinct message ids and idempotency keys. -/
structure Distinct (s : Outbox.State) : Prop where
  messageId : ∀ o ∈ s.enqueued, ∀ o' ∈ s.enqueued, o.messageId = o'.messageId → o = o'
  idempotencyKey : ∀ o ∈ s.enqueued, ∀ o' ∈ s.enqueued, ∀ key, o.idempotencyKey = some key →
    o'.idempotencyKey = some key → o = o'

theorem Distinct.of_subset {s s' : Outbox.State} (h : Distinct s')
    (hsub : ∀ o ∈ s.enqueued, o ∈ s'.enqueued) : Distinct s :=
  { messageId := fun o ho o' ho' => h.messageId o (hsub o ho) o' (hsub o' ho')
    idempotencyKey := fun o ho o' ho' => h.idempotencyKey o (hsub o ho) o' (hsub o' ho') }

/-! ## Rows on their way -/

/-- The rows of its batch a worker has not finished. -/
def Phase.rows : Phase → List ClaimedOutboxRow
  | .ready rest => rest
  | .awaiting _ current rest | .reported _ current rest => current :: rest

/-- The row is a version of an accepted one. -/
def Known (s : Outbox.State) (row : OutboxRow) : Prop :=
  ∃ o ∈ s.enqueued, o.status ≠ .failed ∧ o.frozen = row.frozen

/-- Requests the broker may append or has appended. -/
def Requested (w : World) (request : Request) : Prop :=
  request ∈ w.inFlight ∨ ∃ entry ∈ w.log, entry.request = request

structure Carried (codec : Codec) (w : World) : Prop where
  batches : ∀ worker, ∀ claimed ∈ (w.workers worker).phase.rows, Known w.outbox claimed.row
  requests : ∀ request, Requested w request →
    Known w.outbox request.claimed.row ∧ Published codec request.claimed.row request.record ∧
      request.id < w.nextRequest
  awaited : ∀ worker id current rest, (w.workers worker).phase = .awaiting id current rest →
    id < w.nextRequest ∧ ∀ request, Requested w request → request.id = id →
      request.claimed = current
  acknowledged : ∀ worker current rest, (w.workers worker).phase = .reported none current rest →
    ∃ entry ∈ w.log, entry.request.claimed = current

theorem carried_initial (codec : Codec) : Carried codec World.initial := by
  have hnone : ∀ request, ¬ Requested World.initial request := by
    rintro request (h | ⟨entry, h, -⟩) <;> cases h
  exact
    { batches := fun _ _ h => nomatch h
      requests := fun request h => absurd h (hnone request)
      awaited := fun _ _ _ _ h => nomatch h
      acknowledged := fun _ _ _ h => nomatch h }

namespace Carried

variable {codec : Codec} {w w' : World}

theorem known_rows (h : Carried codec w) {worker : Nat} {phase : Phase}
    (hphase : (w.workers worker).phase = phase) :
    ∀ claimed ∈ phase.rows, Known w.outbox claimed.row :=
  hphase ▸ h.batches worker

/-- One worker moves on; what it holds now, and what it waits for, is accounted for. -/
theorem setWorker (h : Carried codec w) (worker : Nat) (state : Worker)
    (hworkers : w'.workers = Function.update w.workers worker state)
    (hknown : ∀ row, Known w.outbox row → Known w'.outbox row)
    (hinFlight : w'.inFlight = w.inFlight) (hlog : w'.log = w.log)
    (hnext : w'.nextRequest = w.nextRequest)
    (hrows : ∀ claimed ∈ state.phase.rows, Known w'.outbox claimed.row)
    (hawaits : ∀ id current rest, state.phase ≠ .awaiting id current rest)
    (hreport : ∀ current rest, state.phase = .reported none current rest →
      ∃ entry ∈ w.log, entry.request.claimed = current) : Carried codec w' := by
  -- For the other workers nothing has changed; for this one there are the last three hypotheses.
  have hreq : ∀ request, Requested w' request ↔ Requested w request := by
    intro request
    rw [Requested, Requested, hinFlight, hlog]
  refine
    { batches := ?_
      requests := ?_
      awaited := ?_
      acknowledged := ?_ }
  · intro k claimed hclaimed
    rw [hworkers, Function.update_apply] at hclaimed
    split at hclaimed
    · exact hrows claimed hclaimed
    · exact hknown _ (h.batches k claimed hclaimed)
  · intro request hr
    rcases h.requests request ((hreq request).1 hr) with ⟨hk, hpub, hid⟩
    exact ⟨hknown _ hk, hpub, hnext ▸ hid⟩
  · intro k id current rest hphase
    rw [hworkers, Function.update_apply] at hphase
    split at hphase
    · exact absurd hphase (hawaits id current rest)
    · rcases h.awaited k id current rest hphase with ⟨hid, hcur⟩
      exact ⟨hnext ▸ hid, fun request hr => hcur request ((hreq request).1 hr)⟩
  · intro k current rest hphase
    rw [hworkers, Function.update_apply] at hphase
    rw [hlog]
    split at hphase
    · exact hreport current rest hphase
    · exact h.acknowledged k current rest hphase

variable {P : Type} {message : KafkaMessage P} {descriptor : MessageDescriptor}
  {partitioner : Option String → Int}

theorem enqueued_subset {s s' : Outbox.State} {b : Outbox.Action P} (hlineage : Lineage s)
    (hnext : Outbox.next message descriptor s b = some s') : ∀ o ∈ s.enqueued, o ∈ s'.enqueued := by
  intro o ho
  rcases next_transition hlineage.table_fresh hnext with ⟨new, ht⟩
  exact (Lineage.mem_enqueued_of_transition ht).2 (Or.inr ho)

theorem known_of_next {s s' : Outbox.State} {b : Outbox.Action P} (hlineage : Lineage s)
    (hnext : Outbox.next message descriptor s b = some s') {row : OutboxRow}
    (h : Known s row) : Known s' row := by
  rcases h with ⟨o, ho, haccepted, hfrozen⟩
  exact ⟨o, enqueued_subset hlineage hnext o ho, haccepted, hfrozen⟩

theorem known_of_mem {s : Outbox.State} (hlineage : Lineage s) {row : OutboxRow}
    (h : row ∈ s.table) (hst : row.status ≠ .failed) : Known s row := by
  rcases hlineage.origin row (Or.inl h) with ⟨o, ho, hfrozen, hfailed⟩
  exact ⟨o, ho, fun hf => hst (hfailed.1 hf), hfrozen⟩

theorem publish (h : Carried codec w) {worker : Nat} {current : ClaimedOutboxRow}
    {rest : List ClaimedOutboxRow} {trace : Option TraceContext} {record : OutgoingRecord}
    (hphase : (w.workers worker).phase = .ready (current :: rest))
    (hrecord : publishRowTraced codec current.row trace = .ok record) :
    Carried codec
      { w.setPhase worker (.awaiting w.nextRequest current rest) with
        nextRequest := w.nextRequest + 1
        inFlight :=
          { id := w.nextRequest
            claimed := current
            record := record } :: w.inFlight } := by
  have hrows : ∀ claimed ∈ current :: rest, Known w.outbox claimed.row := h.known_rows hphase
  have hreq : ∀ request, (request ∈
        ({ id := w.nextRequest, claimed := current, record := record } : Request) :: w.inFlight ∨
          ∃ entry ∈ w.log, entry.request = request) →
      request = { id := w.nextRequest, claimed := current, record := record } ∨
        Requested w request := by
    rintro request (hmem | hlog)
    · rcases List.mem_cons.1 hmem with heq | hmem
      · exact Or.inl heq
      · exact Or.inr (Or.inl hmem)
    · exact Or.inr (Or.inr hlog)
  refine
    { batches := ?_
      requests := ?_
      awaited := ?_
      acknowledged := ?_ }
  · intro k claimed hclaimed
    simp only [World.setPhase, Function.update_apply] at hclaimed
    split at hclaimed
    · exact hrows claimed hclaimed
    · exact h.batches k claimed hclaimed
  · intro request hr
    rcases hreq request hr with rfl | hold
    · exact ⟨hrows current List.mem_cons_self, published_of_publishRowTraced hrecord,
        Nat.lt_succ_self _⟩
    · rcases h.requests request hold with ⟨hk, hpub, hid⟩
      exact ⟨hk, hpub, Nat.lt_succ_of_lt hid⟩
  · intro k id current' rest' hk
    simp only [World.setPhase, Function.update_apply] at hk
    split at hk
    · cases hk
      refine ⟨Nat.lt_succ_self _, ?_⟩
      intro request hr hid
      rcases hreq request hr with rfl | hold
      · rfl
      -- Requests are numbered below the counter, so the new number is nobody else's.
      · exact absurd (h.requests request hold).2.2 (by omega)
    · rcases h.awaited k id current' rest' hk with ⟨hid, hcur⟩
      refine ⟨Nat.lt_succ_of_lt hid, ?_⟩
      intro request hr hrid
      rcases hreq request hr with rfl | hold
      · exact absurd hid (by simp at hrid; omega)
      · exact hcur request hold hrid
  · intro k current' rest' hk
    simp only [World.setPhase, Function.update_apply] at hk
    split at hk
    · cases hk
    · exact h.acknowledged k current' rest' hk

theorem append (h : Carried codec w) {request : Request} (hmem : request ∈ w.inFlight) :
    Carried codec (appendRecord partitioner w request) := by
  have hreq : ∀ q, Requested (appendRecord partitioner w request) q → Requested w q := by
    rintro q (hq | ⟨entry, hentry, rfl⟩)
    · exact Or.inl (List.mem_filter.1 hq).1
    · rcases List.mem_append.1 hentry with hold | hnew
      · exact Or.inr ⟨entry, hold, rfl⟩
      · rw [List.mem_singleton.1 hnew]
        exact Or.inl hmem
  exact
    { batches := h.batches
      requests := fun q hq => h.requests q (hreq q hq)
      awaited := fun k id current rest hk =>
        ⟨(h.awaited k id current rest hk).1, fun q hq =>
          (h.awaited k id current rest hk).2 q (hreq q hq)⟩
      acknowledged := fun k current rest hk => by
        rcases h.acknowledged k current rest hk with ⟨entry, hentry, heq⟩
        exact ⟨entry, List.mem_append_left _ hentry, heq⟩ }

theorem external (h : Carried codec w) {outbox : Outbox.State}
    (hknown : ∀ row, Known w.outbox row → Known outbox row) :
    Carried codec { w with outbox := outbox } :=
  { batches := fun k claimed hclaimed => hknown _ (h.batches k claimed hclaimed)
    requests := fun request hr =>
      ⟨hknown _ (h.requests request hr).1, (h.requests request hr).2⟩
    awaited := h.awaited
    acknowledged := h.acknowledged }

theorem step (h : Carried codec w) (hlineage : Lineage w.outbox) {a : Action P}
    (hstep : Step message descriptor codec partitioner w a w') : Carried codec w' := by
  cases hstep with
  | external _ hnext =>
      exact h.external fun row => known_of_next hlineage hnext
  | @claim worker args outbox hphase hnext =>
      refine h.setWorker worker _ rfl (fun row => known_of_next hlineage hnext) rfl rfl rfl ?_
        (by simp) (by simp)
      intro claimed hclaimed
      rcases mem_claimOutcome_snd.1 hclaimed with ⟨k, hk, rfl⟩
      have hst : k.status ≠ .failed := by
        rcases status_of_claimable (mem_candidates hk).2 with h' | h' <;> simp [h']
      have hknown : Known w.outbox k := known_of_mem hlineage (candidate_mem_table hk) hst
      exact known_of_next hlineage hnext hknown
  | @refused worker trace current rest e hphase =>
      have hrows := h.known_rows hphase
      exact h.setWorker worker _ rfl (fun _ hk => hk) rfl rfl rfl hrows (by simp) (by simp)
  | publish hphase hrecord =>
      exact h.publish hphase hrecord
  | append hmem =>
      exact h.append hmem
  | @acknowledge worker id current rest hphase hlogged =>
      have hrows := h.known_rows hphase
      refine h.setWorker worker _ rfl (fun _ hk => hk) rfl rfl rfl hrows (by simp) ?_
      intro current' rest' heq
      cases heq
      rcases hlogged with ⟨entry, hentry, hid⟩
      exact ⟨entry, hentry,
        (h.awaited worker id current rest hphase).2 _ (Or.inr ⟨entry, hentry, rfl⟩) hid⟩
  | @fail worker id error current rest hphase =>
      have hrows := h.known_rows hphase
      exact h.setWorker worker _ rfl (fun _ hk => hk) rfl rfl rfl hrows (by simp) (by simp)
  | @mark worker now retryAfter failure current rest outbox stats hphase hnext =>
      refine h.setWorker worker _ rfl (fun row => known_of_next hlineage hnext) rfl rfl rfl ?_
        (by simp) (by simp)
      intro claimed hclaimed
      exact known_of_next hlineage hnext
        (h.known_rows hphase claimed (List.mem_cons_of_mem _ hclaimed))
  | @crash worker =>
      exact h.setWorker worker _ rfl (fun _ hk => hk) rfl rfl rfl (fun _ hc => nomatch hc)
        (by simp) (by simp)

end Carried

/-! ## Positions -/

/-- Where the records of the topic are. -/
structure Positions (codec : Codec) (partitioner : Option String → Int) (log : List Appended) :
    Prop where
  landed : ∀ entry ∈ log, ∃ offset, entry.record =
    entry.request.record.land (partitioner entry.request.record.key) offset
  bounded : ∀ entry ∈ log, entry.record.offset < nextOffset log entry.record.partition
  increasing : log.Pairwise fun earlier later =>
    earlier.record.partition = later.record.partition →
      earlier.record.offset < later.record.offset

section Positions

variable {codec : Codec} {partitioner : Option String → Int} {w : World}

theorem nextOffset_append (log : List Appended) (entry : Appended) (partition : Int) :
    nextOffset (log ++ [entry]) partition =
      nextOffset log partition + if entry.record.partition = partition then 1 else 0 := by
  unfold nextOffset
  rw [List.filter_append, List.length_append]
  by_cases h : entry.record.partition = partition <;> simp [h]

theorem Positions.append (h : Positions codec partitioner w.log) (request : Request) :
    Positions codec partitioner (appendRecord partitioner w request).log := by
  refine
    { landed := ?_
      bounded := ?_
      increasing := ?_ }
  · intro entry hentry
    rcases List.mem_append.1 hentry with hold | hnew
    · exact h.landed entry hold
    · rw [List.mem_singleton.1 hnew]
      exact ⟨_, rfl⟩
  · intro entry hentry
    simp only [appendRecord]
    rw [nextOffset_append]
    rcases List.mem_append.1 hentry with hold | hnew
    · have := h.bounded entry hold
      split <;> omega
    · rw [List.mem_singleton.1 hnew, if_pos rfl]
      exact Int.lt_succ _
  · refine List.pairwise_append.2 ⟨h.increasing, List.pairwise_singleton _ _, ?_⟩
    intro earlier hearlier later hlater hsame
    rw [List.mem_singleton.1 hlater] at hsame ⊢
    -- The record is appended at the next offset of its partition, above all stored there.
    have hlt := h.bounded earlier hearlier
    rw [hsame] at hlt
    exact hlt

end Positions

/-! ## Published rows -/

/-- Every published row has a record. -/
def Delivered (w : World) : Prop :=
  ∀ r, Committed w.outbox r → r.status = .published →
    ∃ entry ∈ w.log, entry.row.frozen = r.frozen

section Delivery

variable {P : Type} {message : KafkaMessage P} {descriptor : MessageDescriptor} {codec : Codec}
  {partitioner : Option String → Int} {w w' : World}

theorem frozen_eq_of_messageId_eq {s : Outbox.State} (hdistinct : Distinct s) {a b : OutboxRow}
    (ha : Known s a) (hb : Known s b) (hid : a.messageId = b.messageId) : a.frozen = b.frozen := by
  rcases ha with ⟨o, ho, -, hoa⟩
  rcases hb with ⟨o', ho', -, hob⟩
  have heq : o = o' := by
    apply hdistinct.messageId o ho o' ho'
    rw [messageId_of_frozen hoa, messageId_of_frozen hob, hid]
  rw [← hoa, ← hob, heq]

theorem Delivered.outbox_step (h : Delivered w) (hlineage : Lineage w.outbox)
    {b : Outbox.Action P} (hnext : Outbox.next message descriptor w.outbox b = some w'.outbox)
    (hlog : w'.log = w.log)
    (hmark : ∀ now messageId claimId, b = .mark now .published messageId claimId →
      ∀ r' ∈ w'.outbox.table, r'.messageId = messageId → r'.status = .published →
        ∃ entry ∈ w.log, entry.row.frozen = r'.frozen) : Delivered w' := by
  intro r' hr' hst
  rw [hlog]
  rcases next_transition hlineage.table_fresh hnext with ⟨new, ht⟩
  rcases hr' with hr' | hr'
  · rcases published_of_next hnext hr' hst with hold | ⟨now, messageId, claimId, hb, hid⟩
    · exact h r' (Or.inl hold) hst
    · exact hmark now messageId claimId hb r' hr' hid hst
  · rcases ht.purged r' hr' with hold | ⟨hold, -⟩
    · exact h r' (Or.inr hold) hst
    · exact h r' (Or.inl hold) hst

/-- Only a worker that was told so marks a row published. -/
theorem Delivered.step (h : Delivered w) (hlineage : Lineage w.outbox) (hcarried : Carried codec w)
    (hlineage' : Lineage w'.outbox) (hdistinct : Distinct w'.outbox) {a : Action P}
    (hstep : Step message descriptor codec partitioner w a w') : Delivered w' := by
  cases hstep with
  | @external _ b _ hexternal hnext =>
      refine h.outbox_step hlineage hnext rfl ?_
      intro now messageId claimId hb
      cases hexternal <;> cases hb
  | claim _ hnext =>
      refine h.outbox_step hlineage hnext rfl ?_
      intro now messageId claimId hb
      cases hb
  | @mark worker now retryAfter failure current rest outbox stats hphase hnext =>
      refine h.outbox_step hlineage hnext rfl ?_
      intro now' messageId claimId hb r' hr' hid hst
      cases failure with
      | some error =>
          cases hb
      | none =>
          cases hb
          rcases hcarried.acknowledged worker current rest hphase with ⟨entry, hentry, heq⟩
          have hknown : Known w.outbox entry.row :=
            (hcarried.requests _ (Or.inr ⟨entry, hentry, rfl⟩)).1
          have hknown' : Known outbox entry.row := Carried.known_of_next hlineage hnext hknown
          -- The record was made from a version of the row that is marked: one id, one row.
          have hmarked : Known outbox r' := Carried.known_of_mem hlineage' hr' (by simp [hst])
          refine ⟨entry, hentry, frozen_eq_of_messageId_eq hdistinct hknown' hmarked ?_⟩
          rw [hid]
          exact congrArg ClaimedOutboxRow.messageId heq
  | append hmem =>
      intro r hr hst
      rcases h r hr hst with ⟨entry, hentry, hfrozen⟩
      exact ⟨entry, List.mem_append_left _ hentry, hfrozen⟩
  | refused | publish | acknowledge | fail | crash =>
      exact h

theorem landing_of_leaseLive (hlineage : Lineage w.outbox) (hcarried : Carried codec w)
    (hdistinct : Distinct w.outbox) {a : Action P} (h : LeaseLive w a) : Landing w a := by
  cases a with
  | append id =>
      intro request hmem hid
      rcases h request hmem hid with ⟨r, hr, hmessageId, hst, -⟩
      have hknown : Known w.outbox request.claimed.row := (hcarried.requests _ (Or.inl hmem)).1
      exact ⟨r, hr, frozen_eq_of_messageId_eq hdistinct
        (Carried.known_of_mem hlineage hr (by simp [hst])) hknown hmessageId, hst⟩
  | _ => trivial

/-- What any run makes of the topic, whether leases are kept or not. -/
structure Carriage (message : KafkaMessage P) (descriptor : MessageDescriptor) (codec : Codec)
    (partitioner : Option String → Int) (w : World) : Prop where
  contents : Contents message descriptor w.outbox
  carried : Carried codec w
  positions : Positions codec partitioner w.log
  delivered : Delivered w

theorem carriage_initial : Carriage message descriptor codec partitioner World.initial :=
  { contents := contents_initial
    carried := carried_initial codec
    positions :=
      { landed := fun _ h => nomatch h
        bounded := fun _ h => nomatch h
        increasing := List.Pairwise.nil }
    delivered := by
      rintro r (hr | hr) _
      · exact absurd hr Table.not_mem_empty
      · cases hr }

theorem Carriage.step (h : Carriage message descriptor codec partitioner w) {a : Action P}
    (hlineage : Lineage w.outbox) (hlineage' : Lineage w'.outbox) (hdistinct' : Distinct w'.outbox)
    (hstep : Step message descriptor codec partitioner w a w') :
    Carriage message descriptor codec partitioner w' := by
  refine
    { contents := ?_
      carried := h.carried.step hlineage hstep
      positions := ?_
      delivered := h.delivered.step hlineage h.carried hlineage' hdistinct' hstep }
  · rcases hstep.outbox with hsame | ⟨b, hnext⟩
    · rw [hsame]
      exact h.contents
    · exact h.contents.next hnext
  · rcases hstep.log with hlog | ⟨request, -, -, rfl⟩
    · rw [hlog]
      exact h.positions
    · exact h.positions.append request

/-- What a run under live leases makes of the topic. -/
structure Delivery (message : KafkaMessage P) (descriptor : MessageDescriptor) (codec : Codec)
    (partitioner : Option String → Int) (w : World) : Prop where
  ordered : Ordered w
  contents : Contents message descriptor w.outbox
  carried : Carried codec w
  positions : Positions codec partitioner w.log
  delivered : Delivered w

theorem Delivery.carriage (h : Delivery message descriptor codec partitioner w) :
    Carriage message descriptor codec partitioner w :=
  { h with }

instance : Coe (Delivery message descriptor codec partitioner w)
    (Carriage message descriptor codec partitioner w) :=
  ⟨Delivery.carriage⟩

theorem delivery_initial : Delivery message descriptor codec partitioner World.initial :=
  { (carriage_initial : Carriage message descriptor codec partitioner World.initial) with
    ordered := ordered_initial }

theorem Delivery.step (h : Delivery message descriptor codec partitioner w) {a : Action P}
    (hok : LeaseLive w a) (hdistinct : Distinct w.outbox) (hdistinct' : Distinct w'.outbox)
    (hstep : Step message descriptor codec partitioner w a w') :
    Delivery message descriptor codec partitioner w' := by
  have hlineage := h.ordered.lineage
  have hordered : Ordered w' :=
    h.ordered.step (landing_of_leaseLive hlineage h.carried hdistinct hok) hstep
  exact { h.carriage.step hlineage hordered.lineage hdistinct' hstep with ordered := hordered }

theorem lineage_of_run {ok : World → Action P → Prop}
    (h : (system message descriptor codec partitioner).ReachableBy ok w) : Lineage w.outbox :=
  reachable_lineage ((refines_outbox ok).reachableBy h)

theorem enqueued_subset_of_next {ok : World → Action P → Prop} {w' : World} {a : Action P}
    (h : (system message descriptor codec partitioner).ReachableBy ok w)
    (hnext : (system message descriptor codec partitioner).next w a = some w') :
    ∀ o ∈ w.outbox.enqueued, o ∈ w'.outbox.enqueued := by
  rcases (step_of_next hnext).outbox with hsame | ⟨b, hb⟩
  · rw [hsame]
    exact fun _ ho => ho
  · exact Carried.enqueued_subset (lineage_of_run h) hb

theorem delivery_of_live
    (h : (system message descriptor codec partitioner).ReachableBy LeaseLive w)
    (hdistinct : Distinct w.outbox) : Delivery message descriptor codec partitioner w := by
  refine TransitionSystem.ReachableBy.invariant_of_inherited
    (P := fun w => Distinct w.outbox) ?_ ?_ ?_ h hdistinct
  · intro w a w' hreach hnext hafter
    exact hafter.of_subset (enqueued_subset_of_next hreach hnext)
  · rintro w rfl
    exact delivery_initial
  · intro w a w' _ hdelivery hbefore hafter hok hnext
    exact hdelivery.step hok hbefore hafter (step_of_next hnext)

theorem carriage_of_run {ok : World → Action P → Prop}
    (h : (system message descriptor codec partitioner).ReachableBy ok w)
    (hdistinct : Distinct w.outbox) : Carriage message descriptor codec partitioner w := by
  refine TransitionSystem.ReachableBy.invariant_of_inherited
    (P := fun w => Distinct w.outbox) ?_ ?_ ?_ h hdistinct
  · intro w a w' hreach hnext hafter
    exact hafter.of_subset (enqueued_subset_of_next hreach hnext)
  · rintro w rfl
    exact carriage_initial
  · intro w a w' hreach hcarriage _ hafter hok hnext
    exact hcarriage.step (lineage_of_run hreach)
      (lineage_of_run (TransitionSystem.ReachableBy.step hreach hok hnext)) hafter
      (step_of_next hnext)

end Delivery

end Relay
end Kafkaman
