/-
# Operations over a memory that refuses nothing

A worker is `Settled` if its books are in order, apart from bytes that are owed, and
the pages with content are those that the books say. Creating an object, releasing one
and handling a fault keep it so, however they end, as long as each new object has a new
number and a reservation that meets no other (`Fresh`).

Key definitions: `Fresh`, `View.Paged`, `Worker.Settled`.
Key theorems: `Placing.resides`, `Worker.Settled.allocate`, `Worker.Settled.free`,
`Worker.Settled.fault`.
-/
import DemandPager.Proofs.Residency
import DemandPager.Proofs.Serving

namespace DemandPager

open Worker (Returns)

variable {γ : Type} {p : Nat} {e : Interval (Object γ)} {s s' : View ScriptedMemory γ}

/-! ### New objects -/

/-- The number of the object is new, and its reservation will meet no other. -/
structure Fresh (o : Object γ) (s : View ScriptedMemory γ) : Prop where
  id : ∀ e ∈ s.objects, e.value.id ≠ o.id
  apart : ∀ e ∈ s.objects, e.Apart s.pages.nextStart o.geometry.trueSize

theorem Fresh.of_nil {o : Object γ} {s : View ScriptedMemory γ} (h : s.objects = []) :
    Fresh o s := by
  constructor
  all_goals
    rw [h]
    exact fun _ he => absurd he List.not_mem_nil

/-- A reservation lies where it was to lie, and its header is filled with zeros. -/
theorem Laid.contains {o : Object γ} {pages pages' : ScriptedMemory} {start : Nat}
    (h : Laid o pages start pages') (hwilling : pages.Willing) (ho : o.geometry.Regular)
    (hpage : o.geometry.pageSize = pages.pageSize) :
    start = pages.nextStart ∧ pages'.Willing ∧ pages'.pageSize = pages.pageSize ∧
      ∀ p, pages'.table.contains p ↔ (start ≤ p ∧ p < start + o.geometry.paddedHeader ∧
        p % pages.pageSize = start % pages.pageSize) ∨ pages.table.contains p := by
  obtain ⟨reserved, registered, hreserve, hregister, hzero⟩ := h
  obtain ⟨hstart, htable, hsize, hreserved⟩ := ScriptedMemory.called_reserve hwilling hreserve
  obtain ⟨-, rfl⟩ := ScriptedMemory.called_register hreserved hregister
  cases hstart
  have hps : 0 < registered.pageSize := by
    rw [hsize, ← hpage]
    exact ho.page_pos
  have hdvd : registered.pageSize ∣ o.geometry.paddedHeader := by
    rw [hsize, ← hpage]
    exact ho.header_dvd
  by_cases hheader : 0 < o.geometry.paddedHeader
  · rw [if_pos hheader] at hzero
    obtain ⟨-, rfl⟩ := ScriptedMemory.called_zero hreserved hzero
    refine ⟨rfl, hreserved.withTable _, hsize, fun p => ?_⟩
    rw [← hsize, ← htable]
    exact ScriptedMemory.contains_zeroed hps hdvd
  · rw [if_neg hheader] at hzero
    subst hzero
    refine ⟨rfl, hreserved, hsize, fun p => ?_⟩
    rw [htable]
    exact ⟨.inr, fun hp => hp.resolve_left fun hin => by omega⟩

/-- No address of an old object lies in the header of a new one. -/
theorem Object.not_in_header {o : Object γ} {start : Nat}
    (h : e.Apart start o.geometry.trueSize) (hp : e.Holds p) :
    ¬(start ≤ p ∧ p < start + o.geometry.paddedHeader) := by
  intro hin
  have hheader : o.geometry.paddedHeader ≤ o.geometry.trueSize := Nat.le_add_right ..
  exact h.not_within hp ⟨hin.1, hin.2.trans_le (Nat.add_le_add_left hheader start)⟩

/-- An object is placed: its header has content, and its body has none. -/
theorem Resides.place (h : Resides s) {o : Object γ} {start : Nat} {pages : ScriptedMemory}
    {objects : IntervalMap (Object γ)} (ho : o.geometry.Built)
    (hpage : o.geometry.pageSize = s.pages.pageSize) (hid : ∀ e ∈ s.objects, e.value.id ≠ o.id)
    (hlaid : Laid o s.pages start pages)
    (hinsert : (IntervalMap.mk s.objects).insert start o.geometry.trueSize o = .ok objects) :
    Resides { s with pages, objects := objects.toList } := by
  obtain ⟨-, hwilling, hsize, hcontains⟩ := hlaid.contains h.willing ho.regular hpage
  obtain ⟨-, -, hapart, -⟩ := (IntervalMap.insert_eq_ok h.objects).mp hinsert
  set new : Interval (Object γ) := { start, len := o.geometry.trueSize, value := o } with hnew
  have hmem : ∀ e, e ∈ objects.toList ↔ e = new ∨ e ∈ s.objects := fun e =>
    IntervalMap.mem_insert h.objects hinsert
  -- no page of the new reservation had content before
  have hempty : ∀ p, new.Holds p → ¬s.pages.table.contains p := by
    intro p hp hold
    obtain ⟨e, he, hholds, -⟩ := h.keyed p hold
    exact (hapart e he).not_within hholds hp
  refine ⟨h.toArranged.place hwilling hsize ho hpage hid hinsert, h.apart, ?_, ?_, ?_, ?_⟩
  all_goals simp only [hsize, hcontains]
  · rintro p (⟨hle, hlt, hmod⟩ | hold)
    · refine ⟨new, (hmem new).mpr (.inl rfl), ⟨hle, ?_⟩, hmod⟩
      have hheader : o.geometry.paddedHeader ≤ o.geometry.trueSize := Nat.le_add_right ..
      exact hlt.trans_le (Nat.add_le_add_left hheader start)
    · obtain ⟨e, he, hholds, hmod⟩ := h.keyed p hold
      exact ⟨e, (hmem e).mpr (.inr he), hholds, hmod⟩
  · intro e he p hp hmod
    rcases (hmem e).mp he with rfl | hold
    · exact .inl ⟨hp.1, hp.2, hmod⟩
    · exact .inr (h.header e hold p hp hmod)
  · exact fun r hr p hp hmod => .inr (h.covered r hr p hp hmod)
  · intro e he hstart p hbody hp hin
    rcases (hmem e).mp he with rfl | hold
    · rcases hin with ⟨-, hlt, -⟩ | hin
      · exact absurd hlt (Nat.not_lt.mpr hbody)
      · exact absurd hin (hempty p hp)
    · rcases hin with ⟨hle, hlt, -⟩ | hin
      · exact absurd ⟨hle, hlt⟩ (Object.not_in_header (hapart e hold) hp)
      · exact h.recorded e hold hstart p hbody hp hin

/-- A reservation is given back: its header is gone, and nothing else is. -/
theorem Resides.withdraw (h : Resides s) {o : Object γ} {start : Nat} {laid : ScriptedMemory}
    (ho : o.geometry.Built) (hpage : o.geometry.pageSize = s.pages.pageSize) (hfresh : Fresh o s)
    (hlaid : Laid o s.pages start laid) :
    Resides { s with
      pages := laid.withTable (laid.table.dropRange start o.geometry.trueSize) } := by
  obtain ⟨rfl, hwilling, hsize, hcontains⟩ := hlaid.contains h.willing ho.regular hpage
  have hdropped := hwilling.withTable (laid.table.dropRange s.pages.nextStart o.geometry.trueSize)
  refine h.withSite hdropped hsize (fun p => ?_) s.client
  refine PageTable.contains_dropRange.trans ?_
  rw [hcontains]
  constructor
  · rintro ⟨hin, hout⟩
    refine hin.resolve_left fun hnew => hout ⟨hnew.1, ?_⟩
    exact Nat.lt_of_lt_of_le hnew.2.1 (Nat.add_le_add_left (Nat.le_add_right ..) _)
  · intro hold
    refine ⟨.inr hold, fun hnew => ?_⟩
    obtain ⟨e, he, hholds, -⟩ := h.keyed p hold
    exact (hfresh.apart e he).not_within hholds hnew

/-- **The creation of an object, or the attempt, keeps the pages with content in
agreement with the records.** -/
theorem Placing.resides {o : Object γ} (h : Placing o s s') (hs : Resides s)
    (ho : o.geometry.Built) (hfresh : Fresh o s) : Resides s' := by
  cases h with
  | unfit => exact hs
  | placed hpage hlaid hinsert => exact hs.place ho hpage hfresh.id hlaid hinsert
  | unreserved hreserve =>
    cases (ScriptedMemory.called_reserve hs.willing hreserve).1
  | unregistered hreserve hregister =>
    obtain ⟨-, -, -, hreserved⟩ := ScriptedMemory.called_reserve hs.willing hreserve
    cases (ScriptedMemory.called_register hreserved hregister).1
  | unzeroed hreserve hregister hzero =>
    obtain ⟨-, -, -, hreserved⟩ := ScriptedMemory.called_reserve hs.willing hreserve
    obtain ⟨-, rfl⟩ := ScriptedMemory.called_register hreserved hregister
    cases (ScriptedMemory.called_zero hreserved hzero).1
  | unrecorded hpage hlaid _ hunregister hrelease =>
    obtain ⟨-, hwilling, -, -⟩ := hlaid.contains hs.willing ho.regular hpage
    obtain ⟨-, rfl⟩ := ScriptedMemory.called_unregister hwilling hunregister
    obtain ⟨-, rfl⟩ := ScriptedMemory.called_release hwilling hrelease
    exact hs.withdraw ho hpage hfresh hlaid

/-! ### Operations -/

/-- All objects begin on pages. -/
def View.Paged (s : View ScriptedMemory γ) : Prop :=
  ∀ e ∈ s.objects, e.value.geometry.pageSize ∣ e.start

/-- Moves leave no object that was not there. -/
theorem Move.objects_subset {π : Type} [Paging π] {s s' : View π γ} (h : Move s s') :
    s'.objects ⊆ s.objects := by
  cases h with
  | lose hlose =>
    cases hlose
    exact List.Subset.refl _
  | strike => exact List.filter_sublist.subset
  | _ => exact List.Subset.refl _

theorem Moves.objects_subset {π : Type} [Paging π] {s s' : View π γ} (h : Moves s s') :
    s'.objects ⊆ s.objects := by
  induction h with
  | refl => exact List.Subset.refl _
  | tail _ hmove ih => exact List.Subset.trans hmove.objects_subset ih

/-- A new object that begins on a page leaves all objects on pages. -/
theorem Placing.paged {o : Object γ} (h : Placing o s s') (hs : Resides s) (ho : o.geometry.Built)
    (hpaged : s.Paged) (haligned : o.geometry.pageSize ∣ s.pages.nextStart) : s'.Paged := by
  cases h with
  | placed hpage hlaid hinsert =>
    obtain ⟨rfl, -⟩ := hlaid.contains hs.willing ho.regular hpage
    intro e he
    rcases (IntervalMap.mem_insert hs.objects hinsert).mp he with rfl | hold
    · exact haligned
    · exact hpaged e hold
  | _ => exact hpaged

namespace Worker

variable {w w' : Worker ScriptedMemory γ} {lost : Nat}

/-- The books are in order and say which pages have content; they owe `lost` bytes. -/
structure Settled (lost : Nat) (w : Worker ScriptedMemory γ) : Prop where
  filed : w.toDesk.Filed
  owes : w.toDesk.Owes lost
  marks : w.limits.low < w.limits.high
  resides : Resides w.view

theorem Kept.marks {es : List JournalEntry} (h : Kept w w' es)
    (hmarks : w.limits.low < w.limits.high) : w'.limits.low < w'.limits.high := by
  rw [h.limits]
  exact hmarks

/-- A step that keeps the books keeps the worker settled. -/
theorem Settled.step {more : Nat} {es : List JournalEntry} (h : Settled lost w)
    (hkept : Kept w w' es)
    (hfiled : w'.toDesk.Filed) (howes : w'.toDesk.Owes more) (hmoves : Moves w.view w'.view) :
    Settled more w' := ⟨hfiled, howes, hkept.marks h.marks, hmoves.resides h.resides⟩

/-- Creating an object keeps the worker settled, with or without success. -/
theorem Settled.allocate {o : Object γ} (h : Settled lost w) (ho : o.geometry.Built)
    (hfresh : Fresh o w.view) (hstep : Returns (allocate o) w w') :
    Settled lost w' ∧ Placing o w.view w'.view := by
  have hends : Ends (Worker.allocate o) w (fun _ w' => ∃ es, Allocated lost o w w' es)
      (fun f w' => ∀ cause, f = .error cause → ∃ es, Allocated lost o w w' es) := by
    refine (allocate_ends h.filed h.owes ho).mono (fun _ _ h => h) ?_
    rintro f v (⟨breach, rfl, -⟩ | ⟨cause, es, rfl, hv⟩)
    · intro cause herr
      cases herr
    · exact fun _ _ => ⟨es, hv⟩
  obtain ⟨es, hv⟩ := hends.of_returns hstep
  exact ⟨⟨hv.filed, hv.owes, hv.toKept.marks h.marks, hv.placing.resides h.resides ho hfresh⟩,
    hv.placing⟩

/-- Releasing an object keeps the worker settled, with or without success. -/
theorem Settled.free {id start : Nat} (h : Settled lost w)
    (hstep : Returns (free id start) w w') : Settled lost w' ∧ Moves w.view w'.view := by
  have hends : Ends (Worker.free id start) w
      (fun _ w' => Settled lost w' ∧ Moves w.view w'.view)
      (fun f w' => ∀ cause, f = .error cause → Settled lost w' ∧ Moves w.view w'.view) := by
    apply (free_ends h.filed h.owes).mono
    · rintro _ v ⟨-, e, -, -, -, es, hv⟩
      exact ⟨h.step hv.toKept hv.filed hv.owes hv.moves, hv.moves⟩
    · rintro f v (⟨rfl, -⟩ | ⟨rfl, -⟩ | ⟨cause, es, rfl, hv⟩)
      · intro cause herr
        cases herr
      · intro cause herr
        cases herr
      · exact fun _ _ => ⟨h.step hv.toKept hv.filed hv.owes hv.moves, hv.moves⟩
  exact hends.of_returns hstep

/-- Handling a fault keeps the worker settled, with or without success. It owes more only
if a chunk was lost, which takes an object that begins within a page. -/
theorem Settled.fault {address : Nat} (h : Settled lost w)
    (hstep : Returns (handleFault address) w w') :
    Moves w.view w'.view ∧ (Settled lost w' ∨ (∃ more, Settled more w') ∧ ¬w.view.Paged) := by
  have hends : Ends (handleFault address) w
      (fun _ w' => Moves w.view w'.view ∧
        (Settled lost w' ∨ (∃ more, Settled more w') ∧ ¬w.view.Paged))
      (fun f w' => ∀ cause, f = .error cause → Moves w.view w'.view ∧
        (Settled lost w' ∨ (∃ more, Settled more w') ∧ ¬w.view.Paged)) := by
    apply (handleFault_ends h.filed h.owes (Nat.le_of_lt h.marks)).mono
    · rintro _ v ⟨es, hv⟩
      exact ⟨hv.moves, .inl (h.step hv.toKept hv.filed hv.owes hv.moves)⟩
    · rintro f v (⟨breach, rfl, -⟩ | ⟨cause, es, rfl, hv⟩)
      · intro cause herr
        cases herr
      · intro _ _
        refine ⟨hv.moves, ?_⟩
        rcases hv.owes with ⟨-, howes⟩ | ⟨-, ⟨r, -, -, howes⟩, s, hmoves, hlose⟩
        · exact .inl (h.step hv.toKept hv.filed howes hv.moves)
        · refine .inr ⟨⟨_, h.step hv.toKept hv.filed howes hv.moves⟩, fun hpaged => ?_⟩
          have hs := hmoves.resides h.resides
          obtain ⟨-, e, he, hstart⟩ := hs.lose hlose
          apply hstart
          rw [← hs.page e he]
          exact Nat.mod_eq_zero_of_dvd (hpaged e (hmoves.objects_subset he))
  exact hends.of_returns hstep

end Worker
end DemandPager
