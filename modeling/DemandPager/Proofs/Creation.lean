/-
# Creating objects keeps the books

To create an object its memory is reserved and registered, its header is filled with
zeros, and the object is recorded. Where one of these fails, what was done before is
undone. Either way the bytes in use and the records are as they were, and the books
hold at most one more object (`Worker.allocate_ends`).

Key definitions: `Worker.Asked`, `Worker.Allocated`.
Key theorems: `Worker.unwind_ends`, `Worker.recordObject_ends`,
`Worker.allocate_ends`.
-/
import DemandPager.Proofs.Faults

namespace DemandPager
namespace Worker

variable {π γ : Type} [Paging π] {w v w' : Worker π γ} {es es' : List JournalEntry} {lost : Nat}

/-! ### Calls -/

omit [Paging π] in
/-- The memory was called, and nothing else happened. -/
structure Asked (w w' : Worker π γ) (es : List JournalEntry) : Prop extends SameBooks w w' es where
  client : w'.client = w.client

omit [Paging π] in
theorem asked_call (w : Worker π γ) (pages : π) (x : JournalEntry) :
    Asked w { w with pages, journal := w.journal ++ [x] } [x] :=
  ⟨⟨⟨rfl, rfl, rfl, rfl, rfl⟩, rfl, rfl, rfl, rfl, rfl⟩, rfl⟩

omit [Paging π] in
theorem Asked.trans (h : Asked w v es) (h' : Asked v w' es') : Asked w w' (es ++ es') where
  toSameBooks := h.toSameBooks.trans h'.toSameBooks
  client := h'.client.trans h.client

omit [Paging π] in
theorem Asked.view (h : Asked w w' es) : w'.view = { w.view with pages := w'.pages } := by
  rw [h.toSameBooks.view, h.client]
  rfl

/-- A registered reservation is given back, whatever the answers are. -/
theorem unwind_ends {start len : Nat} {post : PUnit → Worker π γ → Prop}
    {fail : Failure → Worker π γ → Prop}
    (h : ∀ v es asked result result', Asked w v es →
      Called (Paging.unregister start len) w.pages result asked →
      Called (Paging.release start len) asked result' v.pages → post ⟨⟩ v) :
    Ends (unwind start len) w post fail := by
  unfold unwind
  rw [ends_bind]
  refine ends_callPages fun result asked hasked => ?_
  rw [ends_bind]
  refine ends_callPages fun result' pages hcalled => ?_
  exact h _ _ asked result result'
    ((asked_call w asked _).trans (asked_call _ pages _)) hasked hcalled

/-! ### Creating an object -/

/-- An object was created, or what was done for it was undone. -/
structure Allocated (lost : Nat) (o : Object γ) (w w' : Worker π γ) (es : List JournalEntry) :
    Prop extends Kept w w' es where
  filed : w'.toDesk.Filed
  owes : w'.toDesk.Owes lost
  placing : Placing o w.view w'.view

/-- An attempt after which the memory alone is changed. -/
theorem Asked.allocated {o : Object γ} (h : Asked w w' es) (hw : w.toDesk.Filed)
    (ho : w.toDesk.Owes lost) (hplacing : Placing o w.view { w.view with pages := w'.pages }) :
    Allocated lost o w w' es where
  toKept := h.toKept
  filed := h.filed hw
  owes := h.owes ho
  placing := by
    rw [h.view]
    exact hplacing

theorem permitObject_ends {o : Object γ} (ho : o.geometry.Regular) :
    Ends (permitObject o) w
      (fun _ w' => w' = w ∧ o.geometry.pageSize = Paging.pageSize w.pages)
      (fun f w' => f = .abort .overflow ∨ ∃ cause, f = .error cause ∧ w' = w) := by
  unfold permitObject
  simp only [ends_bind, ends_get]
  rw [ends_ite]
  refine ⟨fun _ => .inr ⟨_, rfl, rfl⟩, fun hpage => ?_⟩
  simp only [ends_bind, ends_checked]
  refine ⟨fun chunk _ => ?_, fun f hf => .inl ?_⟩
  · rw [ends_ite]
    exact ⟨fun _ => .inr ⟨_, rfl, rfl⟩, fun _ => ⟨rfl, not_not.mp hpage⟩⟩
  · unfold Geometry.chunkBytes at hf
    rcases Checked.bind_eq_error.mp hf with h | ⟨_, -, h⟩
    · exact Word.exact_eq_error h
    · exact Word.roundUp_eq_error ho.page_pos h

theorem registerOrRelease_ends {start len : Nat} :
    Ends (registerOrRelease start len) w
      (fun _ w' => ∃ es, Asked w w' es ∧
        Called (Paging.register start len) w.pages (.ok ()) w'.pages)
      (fun f w' => ∃ cause es asked result, f = .error cause ∧ Asked w w' es ∧
        Called (Paging.register start len) w.pages (.error cause) asked ∧
        Called (Paging.release start len) asked result w'.pages) := by
  unfold registerOrRelease
  rw [ends_bind]
  refine ends_callPages fun result asked hasked => ?_
  cases result with
  | ok => exact ⟨_, asked_call w asked _, hasked⟩
  | error cause =>
    simp only [ends_bind, ends_refuse]
    refine ends_callPages fun result pages hcalled => ?_
    exact ⟨cause, _, asked, result, rfl, (asked_call w asked _).trans (asked_call _ pages _),
      hasked, hcalled⟩

theorem zeroHeader_ends {start len header : Nat} :
    Ends (zeroHeader start len header) w
      (fun _ w' => ∃ es, Asked w w' es ∧
        if 0 < header then CalledBreakable (Paging.zero start header) w.pages (.ok ()) w'.pages
        else w'.pages = w.pages)
      (fun f w' => f = .abort .memory ∨ ∃ cause es zeroed freed result result',
        f = .error cause ∧ Asked w w' es ∧
        CalledBreakable (Paging.zero start header) w.pages (.error cause) zeroed ∧
        Called (Paging.unregister start len) zeroed result freed ∧
        Called (Paging.release start len) freed result' w'.pages) := by
  unfold zeroHeader
  rw [ends_ite]
  refine ⟨fun hpos => ?_, fun hnone => ?_⟩
  · rw [ends_bind]
    refine ends_callBreakable (fun result zeroed hzeroed => ?_) fun _ => .inl rfl
    cases result with
    | ok => exact ⟨_, asked_call w zeroed _, by rwa [if_pos hpos]⟩
    | error cause =>
      rw [ends_bind]
      refine unwind_ends fun v es freed result result' hv hfreed hreleased => ?_
      rw [ends_refuse]
      exact .inr ⟨cause, _, zeroed, freed, result, result', rfl, (asked_call w zeroed _).trans hv,
        hzeroed, hfreed, hreleased⟩
  · exact ⟨[], ⟨SameBooks.refl w, rfl⟩, by rw [if_neg hnone]⟩

theorem recordObject_ends {start len : Nat} {o : Object γ} :
    Ends (recordObject start len o) w
      (fun _ w' => ∃ objects, w.objects.insert start len o = .ok objects ∧
        w' = { w with objects })
      (fun f w' => ∃ cause es freed result result', f = .error cause ∧ Asked w w' es ∧
        w.objects.insert start len o = .error cause ∧
        Called (Paging.unregister start len) w.pages result freed ∧
        Called (Paging.release start len) freed result' w'.pages) := by
  unfold recordObject
  simp only [ends_bind, ends_get]
  cases hinsert : w.objects.insert start len o with
  | ok objects => exact ⟨objects, rfl, rfl⟩
  | error cause =>
    simp only [ends_bind, ends_refuse]
    refine unwind_ends fun v es freed result result' hv hfreed hreleased => ?_
    exact ⟨cause, es, freed, result, result', rfl, hv, rfl, hfreed, hreleased⟩

omit [Paging π] in
/-- The books with one more object. -/
theorem inserted_filed {d : Desk γ} {o : Object γ} {start : Nat} {objects : IntervalMap (Object γ)}
    (hd : d.Filed) (ho : o.geometry.Built)
    (h : d.objects.insert start o.geometry.trueSize o = .ok objects) :
    { d with objects }.Filed := by
  have hmem := fun e => IntervalMap.mem_insert (e := e) hd.objects h
  refine ⟨IntervalMap.sound_insert hd.objects h, fun e he => ?_, fun e he => ?_, hd.ring,
    fun r hr hlive => ?_, hd.fits, hd.scratch⟩
  · rcases (hmem e).mp he with rfl | hold
    · exact ho
    · exact hd.built e hold
  · rcases (hmem e).mp he with rfl | hold
    · rfl
    · exact hd.len e hold
  · obtain ⟨e, he, k, hk⟩ := hd.chunks r hr hlive
    exact ⟨e, (hmem e).mpr (.inr he), k, hk⟩

/-- **Creating an object keeps the books, whatever comes of it.** -/
theorem allocate_ends {o : Object γ} (hw : w.toDesk.Filed) (howes : w.toDesk.Owes lost)
    (ho : o.geometry.Built) :
    Ends (allocate o) w (fun _ w' => ∃ es, Allocated lost o w w' es)
      (fun f w' => (∃ breach, f = .abort breach ∧ breach.isOuter) ∨
        ∃ cause es, f = .error cause ∧ Allocated lost o w w' es) := by
  unfold allocate
  rw [ends_bind]
  refine (permitObject_ends ho.regular).mono ?_ ?_
  · rintro _ w ⟨rfl, hpage⟩
    rw [ends_bind]
    refine ends_callBreakable (fun result reserved hreserve => ?_)
      fun _ => .inl ⟨.memory, rfl, rfl⟩
    have hreserved := asked_call w reserved
      (.reserve o.geometry.trueSize o.geometry.paddedHeader (!o.geometry.readOnly) result)
    simp only [ends_bind, ends_settle]
    refine ⟨fun start hok => ?_, fun cause herr => ?_⟩
    · subst hok
      apply registerOrRelease_ends.mono
      · rintro _ v ⟨es, hv, hregister⟩
        apply zeroHeader_ends.mono
        · rintro _ u ⟨es', hu, hzero⟩
          have hu' := (hreserved.trans hv).trans hu
          have hlaid : Laid o w.pages start u.pages := ⟨_, _, hreserve, hregister, hzero⟩
          apply recordObject_ends.mono
          · rintro _ _ ⟨objects, hinsert, rfl⟩
            simp only [ends_count, ends_pure]
            rw [hu'.objects] at hinsert
            have hfiled : { w.toDesk with objects }.Filed := inserted_filed hw ho hinsert
            refine ⟨_, ⟨hu'.journal, ?_, hu'.limits, hu'.ringGrowable, hu'.phase⟩,
              hfiled.of_eq rfl hu'.ring hu'.scratch, howes.of_eq hu'.ring hu'.used hu'.limits, ?_⟩
            · rw [hu'.exchange]
            · have hview : ({ u with objects } : Worker π γ).view =
                  { w.view with pages := u.pages, objects := objects.toList } := by
                unfold Worker.view
                rw [hu'.client, hu'.ring, hu'.ringGrowable]
              exact hview ▸ .placed hpage hlaid hinsert
          · rintro f w' ⟨cause, es'', freed, result, result', rfl, hw', hinsert, hfreed, hreleased⟩
            rw [hu'.objects] at hinsert
            exact .inr ⟨cause, _, rfl, (hu'.trans hw').allocated hw howes
              (.unrecorded hpage hlaid hinsert hfreed hreleased)⟩
        · rintro f w' (rfl | ⟨cause, es', zeroed, freed, result, result', rfl, hw', hzero, hfreed,
            hreleased⟩)
          · exact .inl ⟨.memory, rfl, rfl⟩
          · exact .inr ⟨cause, _, rfl, ((hreserved.trans hv).trans hw').allocated hw howes
              (.unzeroed hreserve hregister hzero hfreed hreleased)⟩
      · rintro f w' ⟨cause, es, asked, result, rfl, hw', hregister, hreleased⟩
        exact .inr ⟨cause, _, rfl, (hreserved.trans hw').allocated hw howes
          (.unregistered hreserve hregister hreleased)⟩
    · subst herr
      exact .inr ⟨cause, _, rfl, hreserved.allocated hw howes (.unreserved hreserve)⟩
  · rintro f w' (rfl | ⟨cause, rfl, rfl⟩)
    · exact .inl ⟨.overflow, rfl, rfl⟩
    · exact .inr ⟨cause, [], rfl, Kept.refl w', hw, howes, .unfit⟩

end Worker
end DemandPager
