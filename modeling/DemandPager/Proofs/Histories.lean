/-
# Histories

A worker begins with new books, and then creates objects, releases them and handles faults, in any
order and with or without success. In between callers and the host change the site. What they may
do there, and which objects the worker may be asked for, is left open (`Surroundings`); each result
about histories says what it takes.

Whatever the surroundings are, the books stay `Upright`: they are filed and may owe bytes, namely
those of chunks whose read was refused when they were to be dropped. An invariant of the memory, the
objects and the records holds of all histories if every move and every placing keeps it
(`Worker.History.view_induction`).

Key definitions: `Surroundings`, `Worker.History`, `Worker.Upright`.
Key theorems: `Worker.History.upright`, `Worker.History.view_induction`.
-/
import DemandPager.Proofs.Serving
import DemandPager.Proofs.Settled
import DemandPager.Proofs.Sizes

namespace DemandPager

variable {π γ : Type}

/-- What callers and the host may do to a worker. -/
structure Surroundings (π γ : Type) where
  /-- A new worker may find such a site. -/
  begins : Site π γ → Prop
  /-- The first site may become the second between operations. -/
  drifts : Site π γ → Site π γ → Prop
  /-- The worker may be asked for the object. -/
  asks : Worker π γ → Object γ → Prop

namespace Worker

variable [Paging π] {σ : Surroundings π γ} {w w' : Worker π γ}

/-- The states of a worker between its operations. -/
inductive History (σ : Surroundings π γ) : Worker π γ → Prop
  /-- The books are new. -/
  | start {pageSize : Nat} {limits : WaterMarks} {o : Options} {desk : Desk γ} {site : Site π γ}
      (hdesk : Desk.ofOptions pageSize limits o = .ok desk) (hmarks : limits.low < limits.high)
      (hsite : σ.begins site) : History σ { toSite := site, toDesk := desk }
  /-- Callers and the host change the site, and the worker may come to another phase. -/
  | meanwhile {w : Worker π γ} {site : Site π γ} {phase : Phase} (h : History σ w)
      (hsite : σ.drifts w.toSite site) : History σ { w with toSite := site, phase }
  | allocate {w w' : Worker π γ} {object : Object γ} (h : History σ w)
      (hbuilt : object.geometry.Built) (hasked : σ.asks w object)
      (hstep : Returns (allocate object) w w') : History σ w'
  | free {w w' : Worker π γ} {id start : Nat} (h : History σ w)
      (hstep : Returns (free id start) w w') : History σ w'
  | fault {w w' : Worker π γ} {address : Nat} (h : History σ w)
      (hstep : Returns (handleFault address) w w') : History σ w'

/-! ### The books -/

omit [Paging π] in
/-- The books are filed within a budget; they may owe bytes. -/
structure Upright (w : Worker π γ) : Prop where
  filed : w.toDesk.Filed
  owes : ∃ lost, w.toDesk.Owes lost
  marks : w.limits.low < w.limits.high

namespace Upright

omit [Paging π] in
theorem of_kept {es : List JournalEntry} {lost : Nat} (h : w.Upright) (hkept : Kept w w' es)
    (hfiled : w'.toDesk.Filed) (howes : w'.toDesk.Owes lost) : w'.Upright where
  filed := hfiled
  owes := ⟨lost, howes⟩
  marks := by
    rw [hkept.limits]
    exact h.marks

/-- The books stay upright when an object is created or is not. -/
theorem allocate {o : Object γ} (h : w.Upright) (ho : o.geometry.Built)
    (hstep : Returns (allocate o) w w') :
    w'.Upright ∧ w'.limits = w.limits ∧ Placing o w.view w'.view := by
  obtain ⟨lost, howes⟩ := h.owes
  refine Ends.of_returns (P := fun v => v.Upright ∧ v.limits = w.limits ∧ Placing o w.view v.view)
    ((allocate_ends h.filed howes ho).mono ?_ ?_) hstep
  · rintro _ v ⟨es, hv⟩
    exact ⟨h.of_kept hv.toKept hv.filed hv.owes, hv.limits, hv.placing⟩
  · rintro f v (⟨breach, rfl, -⟩ | ⟨cause, es, rfl, hv⟩) _ hcause
    · cases hcause
    · exact ⟨h.of_kept hv.toKept hv.filed hv.owes, hv.limits, hv.placing⟩

/-- The books stay upright when an object is released or is not. -/
theorem free {id start : Nat} (h : w.Upright) (hstep : Returns (free id start) w w') :
    w'.Upright ∧ w'.limits = w.limits ∧ Moves w.view w'.view := by
  obtain ⟨lost, howes⟩ := h.owes
  refine Ends.of_returns (P := fun v => v.Upright ∧ v.limits = w.limits ∧ Moves w.view v.view)
    ((free_ends h.filed howes).mono ?_ ?_) hstep
  · rintro _ v ⟨-, e, -, -, -, es, hv⟩
    exact ⟨h.of_kept hv.toKept hv.filed hv.owes, hv.limits, hv.moves⟩
  · rintro f v (⟨rfl, -⟩ | ⟨rfl, -⟩ | ⟨cause, es, rfl, hv⟩) _ hcause
    · cases hcause
    · cases hcause
    · exact ⟨h.of_kept hv.toKept hv.filed hv.owes, hv.limits, hv.moves⟩

/-- The books stay upright when a fault is handled or is not. -/
theorem fault {address : Nat} (h : w.Upright) (hstep : Returns (handleFault address) w w') :
    w'.Upright ∧ w'.limits = w.limits ∧ Moves w.view w'.view := by
  obtain ⟨lost, howes⟩ := h.owes
  refine Ends.of_returns (P := fun v => v.Upright ∧ v.limits = w.limits ∧ Moves w.view v.view)
    ((handleFault_ends h.filed howes h.marks.le).mono ?_ ?_) hstep
  · rintro _ v ⟨es, hv⟩
    exact ⟨h.of_kept hv.toKept hv.filed hv.owes, hv.limits, hv.moves⟩
  · rintro f v (⟨breach, rfl, -⟩ | ⟨cause, es, rfl, hv⟩) _ hcause
    · cases hcause
    · rcases hv.owes with ⟨-, howes⟩ | ⟨-, ⟨r, -, -, howes⟩, -⟩
      · exact ⟨h.of_kept hv.toKept hv.filed howes, hv.limits, hv.moves⟩
      · exact ⟨h.of_kept hv.toKept hv.filed howes, hv.limits, hv.moves⟩

end Upright

namespace History

/-- **In every history the books are upright.** -/
theorem upright (h : History σ w) : w.Upright := by
  induction h with
  | start hdesk hmarks =>
    obtain ⟨hfiled, howes⟩ := Desk.ofOptions_filed hdesk
    obtain ⟨-, -, -, -, rfl, -⟩ := Desk.ofOptions_eq_ok hdesk
    exact ⟨hfiled, ⟨0, howes⟩, hmarks⟩
  | meanwhile _ _ ih =>
    obtain ⟨lost, howes⟩ := ih.owes
    exact ⟨ih.filed.of_eq rfl rfl rfl, ⟨lost, howes.of_eq rfl rfl rfl⟩, ih.marks⟩
  | allocate _ hbuilt _ hstep ih => exact (ih.allocate hbuilt hstep).1
  | free _ hstep ih => exact (ih.free hstep).1
  | fault _ hstep ih => exact (ih.fault hstep).1

/-- **In every history the chunks of the objects fit within the budget.** -/
theorem sized (h : History σ w) : w.toDesk.Sized := by
  induction h with
  | start hdesk =>
    intro e he
    obtain ⟨hobjects, -⟩ := Desk.ofOptions_eq_ok hdesk
    rw [hobjects] at he
    cases he
  | meanwhile _ _ ih => exact ih
  | @allocate v v' o h hbuilt _ hstep ih =>
    obtain ⟨-, hlimits, hplacing⟩ := h.upright.allocate hbuilt hstep
    have hfits : v' = v ∨ ∀ k, (o.geometry.chunk k).bytes ≤ v.limits.high :=
      Ends.of_returns (P := fun u => u = v ∨ ∀ k, (o.geometry.chunk k).bytes ≤ v.limits.high)
        (allocate_fits.mono (fun _ _ hfits => .inr hfits) fun _ _ hfits _ _ => hfits) hstep
    rcases hfits with rfl | hfits
    · exact ih
    intro e he k
    rw [hlimits]
    rcases hplacing.mem_objects h.upright.filed.objects he with hold | rfl
    · exact ih e hold k
    · exact hfits k
  | free h hstep ih =>
    obtain ⟨-, hlimits, hmoves⟩ := h.upright.free hstep
    exact ih.of_subset hmoves.objects_subset hlimits
  | fault h hstep ih =>
    obtain ⟨-, hlimits, hmoves⟩ := h.upright.fault hstep
    exact ih.of_subset hmoves.objects_subset hlimits

/-- **What moves and placings keep holds in every history**, if it holds of new books and callers
and the host keep it. -/
theorem view_induction {P : View π γ → Prop} (h : History σ w)
    (hstart : ∀ (site : Site π γ) (growable : Bool), σ.begins site →
      P ⟨site.pages, site.client, [], [], growable⟩)
    (hdrift : ∀ (w : Worker π γ) (site : Site π γ), σ.drifts w.toSite site → P w.view →
      P { w.view with pages := site.pages, client := site.client })
    (hplace : ∀ (w : Worker π γ) (o : Object γ) (s : View π γ), w.Upright → o.geometry.Built →
      σ.asks w o → Placing o w.view s → P w.view → P s)
    (hmove : ∀ s s' : View π γ, Move s s' → P s → P s') : P w.view := by
  have hmoves : ∀ s s' : View π γ, Moves s s' → P s → P s' := by
    intro s s' hrun hs
    induction hrun with
    | refl => exact hs
    | tail _ hstep ih => exact hmove _ _ hstep ih
  induction h with
  | @start _ _ _ desk site hdesk _ hsite =>
    obtain ⟨hobjects, hrecords, -⟩ := Desk.ofOptions_eq_ok hdesk
    have hnew : Worker.view { toSite := site, toDesk := desk } =
        ⟨site.pages, site.client, [], [], desk.ringGrowable⟩ := by
      unfold Worker.view
      rw [hobjects, hrecords]
    exact hnew ▸ hstart site _ hsite
  | @meanwhile v site _ _ hsite ih => exact hdrift v site hsite ih
  | allocate h hbuilt hasked hstep ih =>
    exact hplace _ _ _ h.upright hbuilt hasked (h.upright.allocate hbuilt hstep).2.2 ih
  | free h hstep ih => exact hmoves _ _ (h.upright.free hstep).2.2 ih
  | fault h hstep ih => exact hmoves _ _ (h.upright.fault hstep).2.2 ih

end History
end Worker
end DemandPager
