/-
# The small steps of making room

Making room changes books, buffers and counts, takes records, and calls the memory for the two
things that it needs of it: bytes are read to be handed over, and a range is dropped. A relation
that is kept by each of these steps is kept by the whole (`Worker.Easing.evictFor`), whatever is
refused and wherever it ends.

Key definitions: `Worker.Easing`.
Key theorems: `Worker.Easing.writeBackChunk`, `Worker.Easing.dropOldest`, `Worker.Easing.evictFor`.
-/
import DemandPager.Proofs.Ends

namespace DemandPager
namespace Worker

variable {π γ : Type}

/-- The small steps of making room keep the relation. -/
structure Easing [Paging π] (R : Worker π γ → Worker π γ → Prop) : Prop where
  books : ∀ (w : Worker π γ) (client : γ) (used : Nat) (spill : Buffer) (stats : Stats),
    R w { w with client, used, spill, exchange := { w.exchange with stats } }
  pop : ∀ {w : Worker π γ} {record : ChunkRecord} {ring : Ring},
    w.ring.pop = .ok (record, ring) → R w { w with ring }
  handed : ∀ (w : Worker π γ) (id first stop : Nat) (bytes : Bytes),
    R w { w with journal := w.journal ++ [.writeBack id first stop bytes] }
  read : ∀ {w : Worker π γ} {start len : Nat} {result : Except PagerError Bytes} {pages : π},
    Called (Paging.readResident start len) w.pages result pages →
      R w { w with pages, journal := w.journal ++ [.readResident start len result] }
  discard : ∀ {w : Worker π γ} {start len : Nat} {result : Except PagerError Unit} {pages : π},
    Called (Paging.discard start len) w.pages result pages →
      R w { w with pages, journal := w.journal ++ [.discard start len result] }

variable {R : Worker π γ → Worker π γ → Prop} [IsPreorder (Worker π γ) R] {w : Worker π γ}

theorem leads_checkTotals : Leads R (checkTotals : WorkerM π γ Unit) w :=
  leads_get_bind <| leads_checked_bind fun _ =>
    leads_bind (leads_ensure ..) fun _ _ => leads_ensure ..

namespace Easing

variable [Paging π]

theorem spillResident (h : Easing R) (address len : Nat) :
    Leads R (spillResident address len : WorkerM π γ Bytes) w := by
  unfold Worker.spillResident
  refine leads_get_bind (leads_checked_bind fun spill => ?_)
  refine leads_bind (leads_modify (h.books ..)) fun _ v => ?_
  refine leads_bind (leads_callPages fun _ _ => h.read) fun result v => ?_
  refine leads_settle_bind fun bytes => ?_
  exact leads_bind (leads_modify (h.books ..)) fun _ v => leads_get_bind (leads_pure _)

theorem handOver (h : Easing R) (object : Object γ) (span : Span) (bytes : Bytes) :
    Leads R (handOver object span bytes : WorkerM π γ Unit) w := by
  unfold Worker.handOver
  split
  · exact leads_pure _
  · refine leads_bind (leads_modify (h.handed ..)) fun _ v => leads_get_bind ?_
    exact leads_bind (leads_set (h.books ..)) fun _ _ => leads_ensure ..

theorem writeBackChunk (h : Easing R) (address : Nat) :
    Leads R (writeBackChunk address : WorkerM π γ Unit) w := by
  unfold Worker.writeBackChunk
  refine leads_get_bind ?_
  cases w.objects.find? address with
  | none => exact leads_refuse _
  | some entry =>
    dsimp only
    split
    · refine leads_checked_bind fun chunk => leads_bind (leads_ensure ..) fun _ v => ?_
      refine leads_bind (h.spillResident ..) fun bytes v => ?_
      exact leads_bind (h.handOver ..) fun _ v => h.books ..
    · exact leads_pure _

theorem dropChunk (h : Easing R) (record : ChunkRecord) :
    Leads R (dropChunk record : WorkerM π γ Unit) w := by
  unfold Worker.dropChunk
  refine leads_get_bind (leads_checked_bind fun used => ?_)
  refine leads_bind (leads_modify (h.books ..)) fun _ v => ?_
  refine leads_bind (leads_callPages fun _ _ => h.discard) fun result v => ?_
  refine leads_settle_bind fun _ => ?_
  exact leads_bind (h.books ..) fun _ v => leads_checkTotals

theorem dropOldest (h : Easing R) : Leads R (dropOldest : WorkerM π γ Unit) w := by
  unfold Worker.dropOldest
  refine leads_get_bind ?_
  cases hpop : w.ring.pop with
  | error cause => exact refl_of R w
  | ok popped =>
    obtain ⟨record, ring⟩ := popped
    unfold Leads
    rw [ends_bind, ends_settle_ok]
    refine leads_bind (leads_modify (h.pop hpop)) fun _ v => ?_
    split
    · exact leads_bind (h.writeBackChunk _) fun _ v => h.dropChunk _
    · exact leads_pure _

theorem dropWhileCrowded (h : Easing R) (fill : Nat) : ∀ (records : Nat) (w : Worker π γ),
    Leads R (dropWhileCrowded fill records : WorkerM π γ Unit) w
  | 0, w => by
    unfold Worker.dropWhileCrowded
    refine leads_get_bind ?_
    split
    · exact leads_refuse _
    · exact leads_pure _
  | records + 1, w => by
    unfold Worker.dropWhileCrowded
    refine leads_get_bind ?_
    split
    · exact leads_bind h.dropOldest fun _ v => h.dropWhileCrowded fill records v
    · exact leads_pure _

/-- **What the small steps of making room keep is kept when room is made.** -/
theorem evictFor (h : Easing R) (fill : Nat) : Leads R (evictFor fill : WorkerM π γ Unit) w := by
  unfold Worker.evictFor
  refine leads_get_bind (leads_checked_bind fun needed => ?_)
  split
  · exact h.dropWhileCrowded ..
  · exact leads_pure _

end Easing
end Worker
end DemandPager
