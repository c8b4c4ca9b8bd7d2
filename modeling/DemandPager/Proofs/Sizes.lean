/-
# Chunks fit within the budget

An object is created only if its largest chunk fits within the budget, and the budget never
changes. So in every state that is reached no chunk of an object is larger than the budget
(`Worker.Reachable.sized`).

A property of the books is `Lasting` if creating an object, releasing one and handling a
fault keep it. Then serving messages keeps it too, and what holds of new books and lasts
holds in every state that is reached (`Worker.Lasting.reachable`).

Key definitions: `Worker.Lasting`, `Desk.Sized`.
Key theorems: `Worker.Lasting.reachable`, `Worker.allocate_sized`, `Worker.Reachable.sized`.
-/
import DemandPager.Proofs.Budget

namespace DemandPager

variable {π γ : Type}

namespace Worker

theorem Ends.of_forall {α : Type} {act : WorkerM π γ α} {w : Worker π γ}
    {post : α → Worker π γ → Prop} {fail : Failure → Worker π γ → Prop} (hpost : ∀ a v, post a v)
    (hfail : ∀ f v, fail f v) : Ends act w post fail := by
  unfold Ends
  cases act w with
  | ok a v => exact hpost a v
  | error f v => exact hfail f v

variable [Paging π]

/-! ### What lasts -/

/-- Operations of a worker in order keep what holds of its books, unless they break off. -/
structure Lasting (π : Type) [Paging π] (P : Desk γ → Prop) : Prop where
  phase : ∀ {d : Desk γ} {phase : Phase}, P d → P { d with phase }
  allocate : ∀ {w : Worker π γ} {o : Object γ}, w.InOrder → P w.toDesk → o.geometry.Built →
    Ends (allocate o) w (fun _ w' => P w'.toDesk)
      fun f w' => ∀ cause, f = .error cause → P w'.toDesk
  free : ∀ {w : Worker π γ} {id start : Nat}, w.InOrder → P w.toDesk →
    Ends (free id start) w (fun _ w' => P w'.toDesk)
      fun f w' => ∀ cause, f = .error cause → P w'.toDesk
  fault : ∀ {w w' : Worker π γ} {address : Nat}, w.InOrder → P w.toDesk →
    handleFault address w = .ok () w' → P w'.toDesk

variable {P : Desk γ → Prop} {w : Worker π γ}

omit [Paging π] in
/-- To serve a request keeps what the request keeps. -/
theorem serveRequest_keeps {request : WorkerM π γ Answer} {ticket : Nat} (hw : w.InOrder)
    (hP : P w.toDesk) (hrequest : ∀ v : Worker π γ, v.InOrder → P v.toDesk →
      Ends request v (fun _ v' => P v'.toDesk)
        fun f v' => ∀ cause, f = .error cause → P v'.toDesk) :
    Ends (serveRequest ticket request) w (fun _ w' => P w'.toDesk) fun _ _ => True := by
  unfold serveRequest
  simp only [ends_bind, ends_note, ends_attempt]
  refine (hrequest { w with journal := w.journal ++ [.serve ticket] }
    ⟨hw.filed, hw.owes, hw.marks, hw.posted⟩ hP).mono ?_ ?_
  · intro answer v hv
    exact hv
  · intro f v hv
    exact ⟨fun cause hf => hv cause hf, fun _ _ => trivial⟩

namespace Lasting

theorem serveMessage (h : Lasting π P) {m : Message γ} (hw : w.InOrder) (hP : P w.toDesk)
    (hm : m.Posted w.exchange.completions.length) :
    Ends (serveMessage m) w (fun _ w' => P w'.toDesk) fun _ _ => True := by
  cases m with
  | allocate object ticket =>
    refine serveRequest_keeps hw hP fun v hv hPv => ?_
    rw [ends_bind]
    exact h.allocate hv hPv hm.1
  | free id start ticket =>
    refine serveRequest_keeps hw hP fun v hv hPv => ?_
    rw [ends_bind]
    exact h.free hv hPv
  | shutdown => exact h.phase hP

theorem serveMessages (h : Lasting π P) : ∀ (n : Nat) (w : Worker π γ), w.InOrder → P w.toDesk →
    Ends (serveMessages n) w (fun _ w' => P w'.toDesk) fun _ _ => True
  | 0, _, _, hP => hP
  | n + 1, w, hw, hP => by
    have hnext : Ends nextMessage w (fun _ v => v.toDesk = w.toDesk) fun _ _ => True := by
      unfold nextMessage
      simp only [ends_bind, ends_get]
      cases w.exchange.channel.next <;> rfl
    unfold Worker.serveMessages
    rw [ends_bind]
    refine ((nextMessage_ends hw).and hnext).mono ?_ fun _ _ _ => trivial
    rintro next v ⟨⟨hv, hposted⟩, hdesk⟩
    have hPv : P v.toDesk := hdesk ▸ hP
    cases next with
    | none => exact hPv
    | some m =>
      simp only [ends_bind]
      refine ((serveMessage_ends hv (hposted m rfl)).and
        (h.serveMessage hv hPv (hposted m rfl))).mono
        ?_ fun _ _ _ => trivial
      rintro flow u ⟨hu, hPu⟩
      cases flow with
      | stop => exact hPu
      | proceed => exact h.serveMessages n u hu hPu

/-- **What holds of new books and lasts holds in every state that is reached.** -/
theorem reachable (h : Lasting π P) (hnew : ∀ {pageSize : Nat} {limits : WaterMarks} {o : Options}
      {d : Desk γ}, Desk.ofOptions pageSize limits o = .ok d → P d)
    (hw : Reachable w) : P w.toDesk := by
  induction hw with
  | start hdesk => exact hnew hdesk
  | meanwhile _ _ ih => exact ih
  | allocate hw hbuilt hstep ih => exact (h.allocate hw.inOrder ih hbuilt).of_returns hstep
  | free hw hstep ih => exact (h.free hw.inOrder ih).of_returns hstep
  | fault hw hstep ih => exact h.fault hw.inOrder ih hstep
  | serve hw hstep ih => exact (h.serveMessages _ _ hw.inOrder ih).of_ok hstep

end Lasting
end Worker

/-! ### Sizes of chunks -/

/-- All chunks of all objects fit within the budget. -/
def Desk.Sized (d : Desk γ) : Prop :=
  ∀ e ∈ d.objects.toList, ∀ k, (e.value.geometry.chunk k).bytes ≤ d.limits.high

theorem Desk.Sized.of_subset {d d' : Desk γ} (h : d.Sized)
    (hobjects : d'.objects.toList ⊆ d.objects.toList) (hlimits : d'.limits = d.limits) :
    d'.Sized := by
  intro e he k
  rw [hlimits]
  exact h e (hobjects he) k

namespace Worker

variable [Paging π] {w : Worker π γ}

/-- An object is permitted only if its chunks fit. -/
theorem permitObject_fits {o : Object γ} :
    Ends (permitObject o) w (fun _ _ => ∀ k, (o.geometry.chunk k).bytes ≤ w.limits.high)
      fun _ w' => w' = w := by
  unfold permitObject
  simp only [ends_bind, ends_get]
  rw [ends_ite]
  refine ⟨fun _ => rfl, fun _ => ?_⟩
  simp only [ends_bind, ends_checked]
  refine ⟨fun chunk hchunk => ?_, fun _ _ => trivial⟩
  rw [ends_ite]
  refine ⟨fun _ => rfl, fun hfits k => ?_⟩
  exact (Geometry.bytes_le_chunkBytes hchunk k).trans (Nat.le_of_not_lt hfits)

/-- An object that is created has chunks that fit. -/
theorem allocate_fits {o : Object γ} :
    Ends (allocate o) w (fun _ _ => ∀ k, (o.geometry.chunk k).bytes ≤ w.limits.high)
      fun _ w' => w' = w ∨ ∀ k, (o.geometry.chunk k).bytes ≤ w.limits.high := by
  unfold allocate
  rw [ends_bind]
  refine permitObject_fits.mono (fun _ v hfits => ?_) fun _ _ h => .inl h
  exact .of_forall (fun _ _ => hfits) fun _ _ => .inr hfits

end Worker

/-- An attempt to create an object adds it to the objects, or nothing. -/
theorem Placing.mem_objects [Paging π] {o : Object γ} {s s' : View π γ} (h : Placing o s s')
    (hs : (IntervalMap.mk s.objects).Sound) {e : Interval (Object γ)} (he : e ∈ s'.objects) :
    e ∈ s.objects ∨ e.value = o := by
  cases h with
  | placed _ _ hinsert =>
    rcases (IntervalMap.mem_insert hs hinsert).mp he with rfl | hold
    · exact .inr rfl
    · exact .inl hold
  | unfit | unreserved | unregistered | unzeroed | unrecorded => exact .inl he

namespace Worker

variable [Paging π] {w w' : Worker π γ}

theorem Allocated.sized {lost : Nat} {o : Object γ} {es : List JournalEntry}
    (h : Allocated lost o w w' es) (hw : w.toDesk.Filed) (hsized : w.toDesk.Sized)
    (hfits : ∀ k, (o.geometry.chunk k).bytes ≤ w.limits.high) : w'.toDesk.Sized := by
  intro e he k
  rw [h.limits]
  rcases h.placing.mem_objects hw.objects he with hold | rfl
  · exact hsized e hold k
  · exact hfits k

/-- Creating an object keeps the chunks within the budget. -/
theorem allocate_sized {o : Object γ} (hw : w.InOrder) (hsized : w.toDesk.Sized)
    (ho : o.geometry.Built) : Ends (allocate o) w (fun _ w' => w'.toDesk.Sized)
      fun f w' => ∀ cause, f = .error cause → w'.toDesk.Sized := by
  refine ((allocate_ends hw.filed hw.owes ho).and allocate_fits).mono ?_ ?_
  · rintro _ w' ⟨⟨es, ha⟩, hfits⟩
    exact ha.sized hw.filed hsized hfits
  · rintro f w' ⟨⟨breach, rfl, -⟩ | ⟨cause, es, rfl, ha⟩, rfl | hfits⟩
    · exact fun _ h => by cases h
    · exact fun _ h => by cases h
    · exact fun _ _ => hsized
    · exact fun _ _ => ha.sized hw.filed hsized hfits

theorem sized_lasting : Lasting π (Desk.Sized (γ := γ)) where
  phase h := h
  allocate := allocate_sized
  free {w id start} hw hsized := by
    refine (free_ends hw.filed hw.owes).mono ?_ ?_
    · rintro _ w' ⟨-, e, -, -, -, es, hf⟩
      refine hsized.of_subset ?_ hf.limits
      rw [hf.objects]
      exact List.filter_subset_self _
    · rintro f w' (⟨rfl, -⟩ | ⟨rfl, -⟩ | ⟨cause, es, rfl, hh⟩)
      · exact fun _ h => by cases h
      · exact fun _ h => by cases h
      · exact fun _ _ => hsized.of_subset (by rw [hh.objects]; exact fun _ h => h) hh.limits
  fault {w w' address} hw hsized hok := by
    obtain ⟨es, hh⟩ := (handleFault_ends hw.filed hw.owes hw.marks.le).of_ok hok
    exact hsized.of_subset (by rw [hh.objects]; exact fun _ h => h) hh.limits

/-- **No chunk of an object is larger than the budget.** -/
theorem Reachable.sized (h : Reachable w) : w.toDesk.Sized := by
  refine sized_lasting.reachable (fun hdesk e he => ?_) h
  obtain ⟨hobjects, -⟩ := Desk.ofOptions_eq_ok hdesk
  rw [hobjects] at he
  cases he

end Worker
end DemandPager
