import Kafkaman.Dispatch.Budget

/-!
# Dispatch.Ownership — who may write a received row, and when it is final

A dispatcher writes the row it has claimed, in the transaction that claimed it or, where its savepoint
could not be rolled back, later and without the lock.  Every such write asks for an unsettled row, so
it finds the claimed row while the claim is open, and nothing once somebody has settled it.

* `mark_of_claim` — the mark of an open claim is made, and to its row alone;
* `claims_own_rows` — that, and that a settled row stays, along every run.
-/

namespace Kafkaman
namespace Dispatch
namespace Sessions

open Lib Received

variable {s s' : State} {a : Action} {r row : ReceivedRow}

/-- The rows after the mark of an open claim. -/
theorem mark_of_claim (h : Held s) (hrow : row ∈ s.claims) (processedAt : Instant) :
    (markReceivedProcessed row.messageId processedAt s.received).2 = .updated ∧
      ∀ r', r' ∈ (markReceivedProcessed row.messageId processedAt s.received).1 ↔
        r' = processedRow processedAt row ∨ r' ∈ s.received ∧ r' ≠ row := by
  rcases h.stored row hrow with ⟨hmem, hunsettled⟩
  have hmark : ∀ r ∈ s.received, markable row.messageId r = true ↔ r = row := by
    intro r hr
    constructor
    · exact fun h => ReceivedTable.eq_of_messageId_eq hr hmem (markable_iff.1 h).1
    · rintro rfl
      exact markable_iff.2 ⟨rfl, hunsettled⟩
  constructor
  · have hone : s.received.toTable.rowsAffected (markable row.messageId) = 1 :=
      (Table.rowsAffected_eq_one fun r h => (markable_iff.1 h).1).2
        ⟨row, hmem, (hmark row hmem).2 rfl⟩
    simp [markReceivedProcessed, markOutcome, hone]
  · intro r'
    rw [mem_markReceivedProcessed]
    constructor
    · rintro ⟨r, hr, rfl⟩
      by_cases hr' : r = row
      · rw [if_pos ((hmark r hr).2 hr'), hr']
        exact Or.inl rfl
      · rw [if_neg fun h => hr' ((hmark r hr).1 h)]
        exact Or.inr ⟨hr, hr'⟩
    · rintro (rfl | ⟨hr', hne⟩)
      · exact ⟨row, hmem, if_pos ((hmark row hmem).2 rfl)⟩
      · exact ⟨r', hr', if_neg fun h => hne ((hmark r' hr').1 h)⟩

/-- **A claim owns its row, and a settled row is final**: whatever any number of dispatchers, ingests
and redrives do, no two open claims are about one row, and the mark of an open claim is made, to the
row it claimed and no other.  From then on a processed row is never written again, and a failed row
not before a redrive; a failure that is recorded late, without the lock, changes neither. -/
theorem claims_own_rows (h : system.Reachable s) :
    (s.claims.map ReceivedRow.messageId).Nodup ∧
      (∀ row ∈ s.claims, ∀ processedAt,
        (markReceivedProcessed row.messageId processedAt s.received).2 = .updated ∧
          ∀ r', r' ∈ (markReceivedProcessed row.messageId processedAt s.received).1 ↔
            r' = processedRow processedAt row ∨ r' ∈ s.received ∧ r' ≠ row) ∧
      ∀ as s', system.run s as = some s' → ∀ r ∈ s.received,
        (r.status = .processed → r ∈ s'.received) ∧
          (r.status = .failed → r ∈ s'.received ∨ ∃ replay held, .redrive replay held ∈ as) := by
  have hheld : Held s := TransitionSystem.Reachable.invariant
    (fun s hs => hs ▸ held_initial) (fun s a s' hs hnext => held_step hs (step_of_next hnext)) h
  refine ⟨hheld.distinct, fun row hrow => mark_of_claim hheld hrow, ?_⟩
  intro as s' hrun r hr
  constructor
  · intro hprocessed
    exact processed_run hrun hr hprocessed
  · intro hfailed
    refine TransitionSystem.invariant_of_run
      (I := fun as s => r ∈ s.received ∨ ∃ replay held, .redrive replay held ∈ as)
      (Or.inl hr) ?_ hrun
    rintro as s a s' (hr | ⟨replay, held, hmem⟩) hnext
    · by_cases hredrive : ∃ replay held, a = .redrive replay held
      · rcases hredrive with ⟨replay, held, rfl⟩
        exact Or.inr ⟨replay, held, by simp⟩
      · push Not at hredrive
        exact Or.inl (settled_row_stays (step_of_next hnext) hr (by simp [unsettled, hfailed])
          fun _ => hredrive)
    · exact Or.inr ⟨replay, held, List.mem_append_left _ hmem⟩

/-- The savepoint of a claim cannot be rolled back; before its failure is recorded, another
dispatcher processes the row. -/
theorem claims_own_rows_recorded_late :
    ∃ s, system.Reachable s ∧ s.received.rows.map ReceivedRow.status = [.processed] ∧
      s.pending.length = 1 ∧ ∀ s', system.run s [.record 0 twice 10000] = some s' →
        ∀ r ∈ s.received, r ∈ s'.received := by
  obtain ⟨s, hreach, hstatus, hpending⟩ := TransitionSystem.exists_reachable_of_run
    (Q := fun s => s.received.rows.map ReceivedRow.status = [.processed] ∧ s.pending.length = 1)
    (TransitionSystem.Reachable.start (S := system) rfl)
    [.ingest (Counting.insert "texts" 1) 0, .claim 10000 (fun _ => false),
      .unwind 0 refusal "refused" 10000, .claim 10000 (fun _ => false), .settle 0 10000]
    (by decide +kernel)
  refine ⟨s, hreach, hstatus, hpending, fun s' hrun r hr => ?_⟩
  refine ((claims_own_rows hreach).2.2 _ s' hrun r hr).1 ?_
  have hmem : r.status ∈ s.received.rows.map ReceivedRow.status := List.mem_map_of_mem hr
  simpa [hstatus] using hmem

end Sessions
end Dispatch
end Kafkaman
