/-
# No due is forgotten

`Errand.Withstands post fail` follows an errand of the worker while others interfere: before
each part they do to the site what they may do, and all that is owed by then becomes due. The
predicate `post` holds at a success, and `fail` at an error. Of an errand that breaks off
nothing is said.

What others do and what the worker does on the side cannot harm a `Stable` predicate. So an
errand is gone through part by part, and what counts is only what a part does about the dues:
releases, services and the teardown forget none (`Worker.freeErrand_minds`,
`Worker.serveErrand_minds`), and after the teardown none is left
(`Worker.shutdownErrand_pays`).

Key definitions: `Unmoved`, `Errand.Withstands`, `Stable`, `Errand.Quiet`, `PaidOff`.
Key theorems: `Errand.withstands_bind`, `Errand.Withstands.attempt`, `Stable.quiet`,
`Worker.freeErrand_minds`, `Worker.serveErrand_minds`, `Worker.shutdownErrand_pays`.
-/
import DemandPager.Proofs.Dues

namespace DemandPager

variable {π γ α β : Type}

/-- The books and the queue are the same, no gate is turned, and what was entered stays. -/
structure Unmoved (w w' : Worker π γ) : Prop where
  journal : w.journal <+: w'.journal
  gates : w'.gates = w.gates
  objects : w'.objects = w.objects
  pending : w'.exchange.channel.pending = w.exchange.channel.pending
  closed : w'.exchange.channel.closed = w.exchange.channel.closed

instance : IsPreorder (Worker π γ) Unmoved where
  refl _ := ⟨List.prefix_rfl, rfl, rfl, rfl, rfl⟩
  trans := fun _ _ _ h h' =>
    ⟨h.journal.trans h'.journal, h'.gates.trans h.gates, h'.objects.trans h.objects,
      h'.pending.trans h.pending, h'.closed.trans h.closed⟩

theorem Unmoved.carries {w w' : Worker π γ} (h : Unmoved w w') : Carries w.toSite w'.toSite :=
  .of_eq h.journal h.gates

theorem AtRest.unmoved {w w' : Worker π γ} (h : AtRest w w') : Unmoved w w' := by
  obtain ⟨es, hstill⟩ := h
  exact ⟨hstill.journal ▸ List.prefix_append .., hstill.turns, hstill.objects,
    congrArg _ hstill.channel, congrArg _ hstill.channel⟩

theorem Worker.Leads.unmoved {act : WorkerM π γ α} {w : Worker π γ} (h : Leads AtRest act w) :
    Leads Unmoved act w :=
  h.mono fun _ hv => hv.unmoved

/-- A change of what is not looked at here. -/
theorem Unmoved.of_eq {w w' : Worker π γ} (hjournal : w'.journal = w.journal)
    (hgates : w'.gates = w.gates) (hobjects : w'.objects = w.objects)
    (hpending : w'.exchange.channel.pending = w.exchange.channel.pending)
    (hclosed : w'.exchange.channel.closed = w.exchange.channel.closed) : Unmoved w w' :=
  ⟨hjournal ▸ List.prefix_rfl, hgates, hobjects, hpending, hclosed⟩

theorem Worker.unmoved_note (entry : JournalEntry) {w : Worker π γ} :
    Ends (note entry) w (fun _ => Unmoved w) fun _ _ => False :=
  ⟨List.prefix_append .., rfl, rfl, rfl, rfl⟩

theorem Worker.unmoved_callPages {call : EStateM PagerError π α}
    {entry : Except PagerError α → JournalEntry} {w : Worker π γ} :
    Ends (callPages call entry) w (fun _ => Unmoved w) fun _ _ => False :=
  ends_callPages fun _ _ _ => ⟨List.prefix_append .., rfl, rfl, rfl, rfl⟩

theorem Worker.unmoved_finish (object : Object γ) {w : Worker π γ} :
    Ends (finish object) w (fun _ => Unmoved w) fun _ _ => False := by
  unfold finish
  cases object.callbacks.destructor with
  | none => exact refl_of Unmoved w
  | some destructor => exact ⟨List.prefix_append .., rfl, rfl, rfl, rfl⟩

/-! ### Errands while others interfere -/

namespace Errand

open Worker (Ends)

/-- Whatever others do before each part, `post` holds at a success and `fail` at an error. -/
def Withstands (post : α → (Due → Prop) → Worker π γ → Prop)
    (fail : (Due → Prop) → Worker π γ → Prop) : Errand π γ α → (Due → Prop) → Worker π γ → Prop
  | .ret a, D, w => post a D w
  | .part step next, D, w => ∀ s : Site π γ, Interferes w.toSite s → Ends step ⟨s, w.toDesk⟩
      (fun b v => (next b).Withstands post fail (Charged D ⟨s, w.toDesk⟩) v)
      (fun f v => ∀ cause, f = .error cause → fail (Charged D ⟨s, w.toDesk⟩) v)
  | .turn _ number t next, D, w => ∀ s : Site π γ, Interferes w.toSite s →
      next.Withstands post fail (Charged D ⟨s, w.toDesk⟩)
        ⟨s.modifyGate number t.apply, w.toDesk⟩

variable {post post' : α → (Due → Prop) → Worker π γ → Prop}
  {fail fail' : (Due → Prop) → Worker π γ → Prop} {D : Due → Prop} {w : Worker π γ}

theorem Withstands.mono {p : Errand π γ α} (h : p.Withstands post fail D w)
    (hpost : ∀ a D w, post a D w → post' a D w) (hfail : ∀ D w, fail D w → fail' D w) :
    p.Withstands post' fail' D w := by
  induction p generalizing D w with
  | ret a => exact hpost a D w h
  | part step next ih =>
    exact fun s hs => (h s hs).mono (fun b v hv => ih b hv) fun f v hf cause hcause =>
      hfail _ _ (hf cause hcause)
  | turn start number t next ih => exact fun s hs => ih (h s hs)

/-- **An errand put together withstands if its second half does after the first.** -/
theorem withstands_bind {p : Errand π γ α} {next : α → Errand π γ β}
    {post : β → (Due → Prop) → Worker π γ → Prop} :
    (p >>= next).Withstands post fail D w ↔
      p.Withstands (fun a => (next a).Withstands post fail) fail D w := by
  show (p.bind next).Withstands post fail D w ↔ _
  induction p generalizing D w with
  | ret a => rfl
  | part step rest ih => simp only [bind, Withstands, ih]
  | turn start number t rest ih => simp only [bind, Withstands, ih]

theorem Withstands.bind {p : Errand π γ α} {next : α → Errand π γ β}
    {post : β → (Due → Prop) → Worker π γ → Prop}
    {between : α → (Due → Prop) → Worker π γ → Prop} (h : p.Withstands between fail D w)
    (hnext : ∀ a D w, between a D w → (next a).Withstands post fail D w) :
    (p >>= next).Withstands post fail D w :=
  withstands_bind.mpr (h.mono hnext fun _ _ h => h)

/-- **A tried errand goes on after an error**, and has none itself. -/
theorem Withstands.attempt {p : Errand π γ α}
    {post : Except PagerError α → (Due → Prop) → Worker π γ → Prop}
    (h : p.Withstands (fun a => post (.ok a)) (fun D w => ∀ cause, post (.error cause) D w) D w) :
    p.attempt.Withstands post fail D w := by
  induction p generalizing D w with
  | ret a => exact h
  | part step next ih =>
    unfold Errand.attempt Withstands
    intro s hs
    rw [Worker.ends_attempt]
    refine (h s hs).mono (fun b v hv => ih b hv) fun f v hf => ⟨fun cause hcause => ?_, ?_⟩
    · exact hf cause hcause cause
    · rintro breach rfl cause hcause
      cases hcause
  | turn start number t next ih => exact fun s hs => ih (h s hs)

/-- Objects and gates stand still in all parts, and no gate is turned. -/
def Quiet : Errand π γ α → Prop
  | .ret _ => True
  | .part step next => (∀ w, Worker.Leads AtRest step w) ∧ ∀ b, (next b).Quiet
  | .turn .. => False

theorem quiet_pure (a : α) : (pure a : Errand π γ α).Quiet := trivial

theorem quiet_lift {step : WorkerM π γ α} (h : ∀ w, Worker.Leads AtRest step w) :
    (lift step).Quiet :=
  ⟨h, fun _ => trivial⟩

/-- To ask the worker for something is quiet. -/
theorem quiet_ask (f : Worker π γ → α) : (lift (return f (← get)) : Errand π γ α).Quiet :=
  quiet_lift fun _ => Worker.leads_get_bind (Worker.leads_pure _)

theorem quiet_bind {p : Errand π γ α} {next : α → Errand π γ β} (h : p.Quiet)
    (hnext : ∀ a, (next a).Quiet) : (p >>= next).Quiet := by
  show (p.bind next).Quiet
  induction p with
  | ret a => exact hnext a
  | part step rest ih => exact ⟨h.1, fun b => ih b (h.2 b)⟩
  | turn => exact h.elim

theorem Quiet.leads {p : Errand π γ α} (h : p.Quiet) : p.Leads AtRest := by
  induction p with
  | ret a => trivial
  | part step next ih => exact ⟨h.1, fun b => ih b (h.2 b)⟩
  | turn => exact h.elim

end Errand

open Worker (Ends)

/-! ### Stable predicates -/

/-- Nobody else makes it fail, even when what is owed becomes due, and nothing that is done on
the side does. -/
structure Stable (P : (Due → Prop) → Worker π γ → Prop) : Prop where
  meanwhile : ∀ {D : Due → Prop} {w : Worker π γ} {s : Site π γ}, P D w →
    Interferes w.toSite s → P (Charged D ⟨s, w.toDesk⟩) ⟨s, w.toDesk⟩
  aside : ∀ {D : Due → Prop} {w w' : Worker π γ}, P D w → Unmoved w w' → P D w'

namespace Stable

variable {P Q : (Due → Prop) → Worker π γ → Prop} {D : Due → Prop} {w : Worker π γ}
  {post : α → (Due → Prop) → Worker π γ → Prop} {fail : (Due → Prop) → Worker π γ → Prop}

protected theorem and (hP : Stable P) (hQ : Stable Q) : Stable fun D w => P D w ∧ Q D w where
  meanwhile := fun h hs => ⟨hP.meanwhile h.1 hs, hQ.meanwhile h.2 hs⟩
  aside := fun h h' => ⟨hP.aside h.1 h', hQ.aside h.2 h'⟩

/-- A predicate on the books. -/
theorem of_objects (p : IntervalMap (Object γ) → Prop) :
    Stable fun _ (w : Worker π γ) => p w.objects where
  meanwhile := fun h _ => h
  aside := fun h h' => h'.objects ▸ h

theorem met (d : Due) : Stable fun _ (w : Worker π γ) => w.Met d where
  meanwhile := fun h hs => (Carries.of_interferes hs).met h
  aside := fun h h' => h'.carries.met h

theorem housed (m : Message γ) : Stable fun _ (w : Worker π γ) => m.Housed w.gates.length where
  meanwhile := fun h hs => h.mono hs.length_le
  aside := fun h h' => h'.gates ▸ h

theorem minding (tickets gates : List Nat) :
    Stable (Minding tickets gates : (Due → Prop) → Worker π γ → Prop) where
  meanwhile := fun h hs => h.meanwhile hs
  aside := fun h h' => h.same h'.carries h'.objects h'.pending

/-- An errand of one part. -/
theorem lift (hP : Stable P) (hw : P D w) {step : WorkerM π γ α}
    (h : ∀ D w, P D w →
      Ends step w (fun a => post a D) fun f w => ∀ cause, f = .error cause → fail D w) :
    (Errand.lift step).Withstands post fail D w :=
  fun _ hs => h _ _ (hP.meanwhile hw hs)

/-- An errand that turns a gate. -/
theorem gate (hP : Stable P) (hw : P D w) {start number : Nat} {t : GateTurn}
    {post : Unit → (Due → Prop) → Worker π γ → Prop}
    (h : ∀ D w, P D w → post () D (w.onSite (·.modifyGate number t.apply))) :
    (Errand.gate start number t).Withstands post fail D w :=
  fun _ hs => h _ _ (hP.meanwhile hw hs)

/-- A part that has no error and does something on the side. -/
theorem sure (hP : Stable P) (hw : P D w) {step : WorkerM π γ α}
    (h : ∀ w, Ends step w (fun _ => Unmoved w) fun _ _ => False) :
    (Errand.lift step).Withstands (fun _ => P) fail D w :=
  hP.lift hw fun _ w hw => (h w).mono (fun _ _ hv => hP.aside hw hv) fun _ _ hf => hf.elim

/-- A part that does something on the side, and may end in an error. -/
theorem part (hP : Stable P) (hw : P D w) {step : WorkerM π γ α}
    (h : ∀ w, Worker.Leads Unmoved step w) :
    (Errand.lift step).Withstands (fun _ => P) P D w :=
  hP.lift hw fun _ w hw =>
    Ends.mono (h w) (fun _ _ hv => hP.aside hw hv) fun _ _ hv _ _ => hP.aside hw hv

/-- **What is done on the side while others interfere.** -/
theorem quiet (hP : Stable P) {p : Errand π γ α} (hp : p.Quiet) (hw : P D w) :
    p.Withstands (fun _ => P) P D w := by
  induction p generalizing D w with
  | ret a => exact hw
  | part step next ih =>
    intro s hs
    have hs' := hP.meanwhile hw hs
    exact Ends.mono (hp.1 _) (fun b v hv => ih b (hp.2 b) (hP.aside hs' hv.unmoved))
      fun f v hv _ _ => hP.aside hs' hv.unmoved
  | turn => exact hp.elim

end Stable

namespace Worker

open Errand (lift withstands_bind quiet_bind quiet_lift quiet_ask quiet_pure)

variable [Paging π] {tickets gates : List Nat} {D : Due → Prop} {w : Worker π γ}

/-! ### Handing chunks over -/

theorem still_snapshot (address : Nat) :
    Leads AtRest (snapshot address : WorkerM π γ _) w := by
  unfold snapshot
  refine leads_get_bind ?_
  cases w.objects.find? address with
  | none => exact leads_refuse _
  | some entry =>
    dsimp only
    split
    · refine leads_checked_bind fun chunk => leads_bind (leads_ensure ..) fun _ v => ?_
      exact leads_bind (still_easing.spillResident ..) fun _ v => leads_pure _
    · exact leads_pure _

theorem quiet_writeBackErrand (address : Nat) :
    (writeBackErrand address : Errand π γ Unit).Quiet := by
  refine quiet_bind (quiet_lift fun w => still_snapshot address) fun read => ?_
  cases read with
  | none => exact quiet_pure _
  | some read =>
    exact quiet_lift fun w =>
      leads_bind (still_easing.handOver ..) fun _ v => still_count _

theorem quiet_writeBackAllErrand : ∀ addresses : List Nat,
    (writeBackAllErrand addresses : Errand π γ Unit).Quiet
  | [] => quiet_pure _
  | address :: rest =>
    quiet_bind (quiet_writeBackErrand address) fun _ => quiet_writeBackAllErrand rest

theorem quiet_handOverAllErrand (entry : Interval (Object γ)) :
    (handOverAllErrand entry : Errand π γ Unit).Quiet := by
  unfold handOverAllErrand
  split
  · exact quiet_bind (quiet_ask _) fun _ => quiet_writeBackAllErrand _
  · exact quiet_pure _

/-! ### Releasing -/

/-- The object is still on the books, and its gate is barred. -/
def Barred (e : Interval (Object γ)) (w : Worker π γ) : Prop :=
  e ∈ w.objects.toList ∧ w.Met (.bar e.value.gate)

omit [Paging π] in
theorem stable_minding_there (e : Interval (Object γ)) :
    Stable fun D (w : Worker π γ) => Minding tickets gates D w ∧ e ∈ w.objects.toList :=
  (Stable.minding ..).and (.of_objects fun objects => e ∈ objects.toList)

omit [Paging π] in
theorem stable_minding_barred (e : Interval (Object γ)) :
    Stable fun D (w : Worker π γ) => Minding tickets gates D w ∧ Barred e w :=
  (Stable.minding ..).and ((Stable.of_objects fun objects => e ∈ objects.toList).and (.met _))

theorem unmapErrand_minds {e : Interval (Object γ)} (h : Minding tickets gates D w)
    (he : e ∈ w.objects.toList) :
    (unmapErrand e).Withstands (fun _ D w => Minding tickets gates D w ∧ Barred e w)
      (Minding tickets gates) D w := by
  have hnumber : ∀ {w : Worker π γ}, e ∈ w.objects.toList → e.value.gate ∈ gates ++ w.gateNumbers :=
    fun he => List.mem_append_right _ (List.mem_map_of_mem he)
  unfold unmapErrand
  rw [withstands_bind]
  refine (stable_minding_there e).gate ⟨h, he⟩ fun D w hw => ?_
  have hbarred : Barred e (w.onSite (·.modifyGate e.value.gate Gate.beginUnmap)) :=
    ⟨hw.2, Site.met_beginUnmap (hw.1.housed _ (hnumber hw.2))⟩
  rw [withstands_bind]
  refine ((stable_minding_barred e).quiet (quiet_lift fun w => ?_)
    ⟨hw.1.turned _ (by decide), hbarred⟩).mono (fun result D w hw => ?_) fun _ _ hw => hw.1
  · exact still_callPages fun _ => ⟨rfl, rfl⟩
  · cases result with
    | ok =>
      refine (stable_minding_barred e).gate hw fun D w hw => ?_
      exact ⟨hw.1.turned _ (by decide), hw.2.1, (Carries.of_turn _ _ (by decide)).met hw.2.2⟩
    | error cause =>
      dsimp only
      rw [withstands_bind]
      refine (stable_minding_barred e).gate hw fun D w hw => ?_
      refine (Stable.minding ..).lift (hw.1.aborted (hnumber hw.2.1)) fun D w hw => ?_
      exact fun _ _ => hw

omit [Paging π] in
theorem strike_minds {e : Interval (Object γ)} (h : Minding tickets gates D w) (he : Barred e w) :
    Ends (strike e.value.id e.start) w (fun _ => Minding tickets gates D)
      fun _ => Minding tickets gates D := by
  unfold strike
  rw [ends_bind, ends_get, ends_bind, ends_settle]
  refine ⟨fun struck hstruck => ?_, fun _ _ => h⟩
  rw [ends_bind, ends_modify]
  have hminding := h.struck he.1 he.2 hstruck
  refine Ends.mono (?_ : Leads Unmoved _ _) (fun _ _ hv => (Stable.minding ..).aside hminding hv)
    fun _ _ hv => (Stable.minding ..).aside hminding hv
  refine leads_get_bind (leads_bind (leads_set (.of_eq rfl rfl rfl rfl rfl)) fun _ v => ?_)
  refine leads_checked_bind fun _ => leads_checked_bind fun _ => ?_
  exact leads_bind (leads_modify (.of_eq rfl rfl rfl rfl rfl)) fun _ _ => leads_pure _

theorem dischargeErrand_minds {e : Interval (Object γ)} (h : Minding tickets gates D w)
    (he : Barred e w) :
    (dischargeErrand e).Withstands (fun _ => Minding tickets gates)
      (Minding tickets gates) D w := by
  unfold dischargeErrand
  rw [withstands_bind]
  refine (stable_minding_barred e).lift ⟨h, he⟩ fun D w hw => ?_
  refine (strike_minds hw.1 hw.2).mono (fun object v hv => ?_) fun _ _ hv _ _ => hv
  refine (Stable.minding ..).quiet
    (quiet_bind (quiet_lift fun w => ?_) fun _ => quiet_lift fun w => ?_) hv
  · exact still_callPages fun _ => ⟨rfl, rfl⟩
  · refine leads_bind (still_finish _) fun _ v => ?_
    exact leads_bind (still_count _) fun _ v => leads_checkTotals

/-- **A release forgets no due**, whether it is refused or not. -/
theorem freeErrand_minds {id start : Nat} (h : Minding tickets gates D w) :
    (freeErrand id start).Withstands (fun _ => Minding tickets gates)
      (Minding tickets gates) D w := by
  unfold freeErrand
  rw [withstands_bind]
  refine (Stable.minding ..).lift h fun D w hw => ?_
  rw [ends_bind, ends_get, ends_pure]
  cases hat : w.objectAt id start with
  | none => exact (Stable.minding ..).lift hw fun D w hw _ _ => hw
  | some e =>
    have he := (mem_of_objectAt hat).1
    dsimp only
    rw [withstands_bind]
    refine ((stable_minding_there e).quiet (quiet_handOverAllErrand e) ⟨hw, he⟩).mono
      (fun _ D w hw => ?_) fun _ _ hw => hw.1
    refine (unmapErrand_minds hw.1 hw.2).bind fun _ D w hw => ?_
    exact dischargeErrand_minds hw.1 hw.2

theorem freeAllErrand_minds : ∀ (entries : List (Interval (Object γ))) (D : Due → Prop)
    (w : Worker π γ), Minding tickets gates D w → (freeAllErrand entries).Withstands
      (fun _ => Minding tickets gates) (fun _ _ => False) D w
  | [], _, _, h => h
  | entry :: rest, D, w, h => by
    unfold freeAllErrand
    rw [withstands_bind]
    refine ((freeErrand_minds h).mono (fun _ D w hw => ?_) fun D w hw _ => ?_).attempt
    · exact freeAllErrand_minds rest D w hw
    · exact freeAllErrand_minds rest D w hw

/-! ### Serving -/

/-- **To serve a message is to answer it**, whether it is refused or not. -/
theorem serveErrand_minds {m : Message γ} (h : Minding (m.ticket?.toList ++ tickets) gates D w)
    (hm : m.Housed w.gates.length) :
    (serveErrand m).Withstands (fun _ => Minding tickets gates) (fun _ _ => False) D w := by
  have hreplied : ∀ {t : Nat} {a : Answer} {D : Due → Prop} {w : Worker π γ},
      Minding (t :: tickets) gates D w →
      Ends (reply t a) w (fun _ => Minding tickets gates D) fun _ _ => False :=
    fun hw => hw.replied rfl rfl rfl rfl
  cases m with
  | allocate object t =>
    refine ((Stable.minding (t :: tickets) gates).and (.housed (.allocate object t))).lift ⟨h, hm⟩
      fun D w ⟨hw, hgate⟩ => ?_
    unfold serveMessage serveRequest
    rw [ends_bind, ends_note, ends_bind, ends_attempt, ends_bind]
    have hnoted : Minding (t :: tickets) gates D { w with journal := w.journal ++ [.serve t] } :=
      (Stable.minding ..).aside hw (unmoved_note _)
    refine Ends.mono (furnished_allocate object) (fun start v hv => ?_)
      fun f v hv => ⟨fun cause _ => ?_, ?_⟩
    · exact hreplied (hnoted.placed hv hgate)
    · exact hreplied (hnoted.placed hv hgate)
    · rintro breach rfl cause hcause
      cases hcause
  | free id start t =>
    unfold serveErrand
    rw [withstands_bind]
    refine (Stable.minding (t :: tickets) gates).lift h fun D w hw => ?_
    rw [ends_note]
    have hnoted : Minding (t :: tickets) gates D { w with journal := w.journal ++ [.serve t] } :=
      (Stable.minding ..).aside hw (unmoved_note _)
    show Errand.Withstands _ _ (_ >>= _) _ _
    rw [withstands_bind]
    refine ((freeErrand_minds hnoted).mono (fun _ D w hw => ?_) fun D w hw _ => ?_).attempt
    all_goals
      dsimp only
      rw [withstands_bind]
      refine (Stable.minding ..).lift hw fun D w hw => ?_
      exact hreplied hw
  | shutdown =>
    refine (Stable.minding tickets gates).lift h fun D w hw => ?_
    exact (Stable.minding ..).aside hw (.of_eq rfl rfl rfl rfl rfl)

/-! ### The teardown -/

/-- There are no objects on the books. -/
def Bare (w : Worker π γ) : Prop := w.objects = .empty

omit [Paging π] in
theorem stable_minding_bare : Stable fun D (w : Worker π γ) => Minding tickets gates D w ∧ Bare w :=
  (Stable.minding ..).and (.of_objects fun objects => objects = .empty)

/-- To give an object up is to let its accesses go. -/
theorem abandonErrand_minds {e : Interval (Object γ)}
    (h : Minding tickets (e.value.gate :: gates) D w) (hbare : Bare w) :
    (abandonErrand e).Withstands (fun _ D w => Minding tickets gates D w ∧ Bare w)
      (fun _ _ => False) D w := by
  unfold abandonErrand
  rw [withstands_bind]
  refine stable_minding_bare.gate ⟨h, hbare⟩ fun D w hw => ?_
  have hbarred : (w.onSite (·.modifyGate e.value.gate Gate.beginUnmap)).Met (.bar e.value.gate) :=
    Site.met_beginUnmap (hw.1.housed _ List.mem_cons_self)
  have hleft : Minding tickets gates D (w.onSite (·.modifyGate e.value.gate Gate.beginUnmap)) :=
    (hw.1.turned e.value.gate (by decide : GateTurn.beginUnmap ≠ .abortUnmap)).barred hbarred
  refine (stable_minding_bare.sure ⟨hleft, hw.2⟩ fun w => unmoved_callPages).bind
    fun result D w hw => ?_
  cases result with
  | ok =>
    dsimp only
    rw [withstands_bind]
    refine stable_minding_bare.gate hw fun D w hw => ?_
    refine (stable_minding_bare.sure ⟨hw.1.turned _ (by decide), hw.2⟩
      fun w => unmoved_callPages).bind fun _ D w hw => ?_
    exact stable_minding_bare.sure hw fun w => unmoved_finish _
  | error cause => exact stable_minding_bare.sure hw fun w => unmoved_finish _

theorem abandonAllErrand_minds : ∀ (entries : List (Interval (Object γ))) (D : Due → Prop)
    (w : Worker π γ), Minding tickets (entries.map (·.value.gate) ++ gates) D w → Bare w →
    (abandonAllErrand entries).Withstands (fun _ D w => Minding tickets gates D w ∧ Bare w)
      (fun _ _ => False) D w
  | [], _, _, h, hbare => ⟨h, hbare⟩
  | entry :: rest, D, w, h, hbare => by
    unfold abandonAllErrand
    refine (abandonErrand_minds h hbare).bind fun _ D w hw => ?_
    exact abandonAllErrand_minds rest D w hw.1 hw.2

omit [Paging π] in
/-- Nothing is queued, and nothing will be. -/
def Shut (w : Worker π γ) : Prop :=
  w.exchange.channel.closed = true ∧ w.exchange.channel.pending = []

omit [Paging π] in
theorem stable_shut : Stable fun _ (w : Worker π γ) => Shut w where
  meanwhile := fun h hs => ⟨hs.closed h.1, (hs.pending_eq h.1).trans h.2⟩
  aside := fun h h' => ⟨h'.closed.trans h.1, h'.pending.trans h.2⟩

omit [Paging π] in
/-- Messages that come too late are answered. -/
theorem dismissAllErrand_minds : ∀ (messages : List (Message γ)) (D : Due → Prop) (w : Worker π γ),
    Minding (ticketsOf messages ++ tickets) gates D w → Bare w → Shut w →
    (dismissAllErrand messages : Errand π γ Unit).Withstands
      (fun _ D w => (Minding tickets gates D w ∧ Bare w) ∧ Shut w) (fun _ _ => False) D w
  | [], _, _, h, hbare, hshut => ⟨⟨h, hbare⟩, hshut⟩
  | message :: rest, D, w, h, hbare, hshut => by
    unfold dismissAllErrand
    rw [withstands_bind]
    refine (stable_minding_bare.and stable_shut).lift ⟨⟨h, hbare⟩, hshut⟩ fun D w hwhole => ?_
    obtain ⟨⟨hw, hbare⟩, hshut⟩ := hwhole
    cases message with
    | allocate object t =>
      exact dismissAllErrand_minds rest D _ (hw.replied rfl rfl rfl rfl) hbare hshut
    | free id start t =>
      exact dismissAllErrand_minds rest D _ (hw.replied rfl rfl rfl rfl) hbare hshut
    | shutdown => exact dismissAllErrand_minds rest D _ hw hbare hshut

end Worker

/-- Nothing is owed any more, and nothing ever will be: all dues are met. -/
structure PaidOff (D : Due → Prop) (w : Worker π γ) : Prop where
  objects : w.objects = .empty
  closed : w.exchange.channel.closed = true
  pending : w.exchange.channel.pending = []
  met : ∀ d, D d → w.Met d

theorem stable_paidOff : Stable (PaidOff : (Due → Prop) → Worker π γ → Prop) where
  meanwhile := fun {D w s} h hs => by
    have hpending := (hs.pending_eq h.closed).trans h.pending
    refine ⟨h.objects, hs.closed h.closed, hpending, fun d hd => ?_⟩
    rcases hd with hd | howed
    · exact (Carries.of_interferes hs).met (h.met d hd)
    · exact absurd howed (Worker.not_owed (w := ⟨s, w.toDesk⟩) h.objects hpending d)
  aside := fun h h' => ⟨h'.objects.trans h.objects, h'.closed.trans h.closed,
    h'.pending.trans h.pending, fun d hd => h'.carries.met (h.met d hd)⟩

/-- What is owed now are no dues any more. -/
theorem PaidOff.of_charged {D D' : Due → Prop} {w : Worker π γ} (h : PaidOff D' w)
    (hD : ∀ d, D d → Charged D' w d) : PaidOff D w :=
  { h with met := fun d hd => (hD d hd).elim (h.met d) fun howed =>
      absurd howed (Worker.not_owed h.objects h.pending d) }

theorem PaidOff.meanwhile {D : Due → Prop} {w : Worker π γ} {s : Site π γ} (h : PaidOff D w)
    (hs : Interferes w.toSite s) : PaidOff D ⟨s, w.toDesk⟩ :=
  (stable_paidOff.meanwhile h hs).of_charged fun _ hd => .inl (.inl hd)

/-- What others do before an errand is begun makes no difference. -/
theorem Errand.Withstands.meanwhile {p : Errand π γ α} {D : Due → Prop} {w : Worker π γ}
    {s : Site π γ} (h : p.Withstands (fun _ => PaidOff) PaidOff D w) (hs : Interferes w.toSite s) :
    p.Withstands (fun _ => PaidOff) PaidOff D ⟨s, w.toDesk⟩ := by
  cases p with
  | ret a => exact PaidOff.meanwhile h hs
  | part step next => exact fun s' hs' => h s' (hs.trans hs')
  | turn start number t next => exact fun s' hs' => h s' (hs.trans hs')

namespace Worker

variable [Paging π] {D : Due → Prop} {w : Worker π γ}

/-- **After the teardown nothing is owed.** -/
theorem shutdownErrand_pays (h : Minding [] [] D w) :
    (shutdownErrand : Errand π γ Unit).Withstands (fun _ => PaidOff) (fun _ _ => False) D w := by
  have hminding : Stable (Minding [] [] : (Due → Prop) → Worker π γ → Prop) := .minding [] []
  have hempty : Stable fun D (w : Worker π γ) => Minding [] [] D w ∧ Bare w := stable_minding_bare
  unfold shutdownErrand
  refine (hminding.sure h fun w => ?_).bind fun _ D w hw => ?_
  · exact Unmoved.of_eq rfl rfl rfl rfl rfl
  refine (hminding.sure hw fun w => ?_).bind fun _ D w hw => ?_
  · exact Unmoved.of_eq rfl rfl rfl rfl rfl
  refine (hminding.sure hw fun w => ?_).bind fun entries D w hw => ?_
  · exact refl_of Unmoved w
  refine (freeAllErrand_minds entries D w hw).bind fun _ D w hw => ?_
  refine Errand.withstands_bind.mpr (hminding.lift hw fun D w hw => ?_)
  refine (abandonAllErrand_minds w.objects.toList D _ hw.cleared rfl).bind fun _ D w hw => ?_
  refine (hempty.sure hw fun w => ?_).bind fun _ D w hw => ?_
  · exact Unmoved.of_eq rfl rfl rfl rfl rfl
  refine (hempty.sure hw fun w => ?_).bind fun _ D w hw => ?_
  · exact Unmoved.of_eq rfl rfl rfl rfl rfl
  refine Errand.withstands_bind.mpr (hempty.lift hw fun D w hw => ?_)
  refine (dismissAllErrand_minds w.exchange.channel.pending D _ hw.1.drained hw.2 ⟨rfl, rfl⟩).bind
    fun _ D w hw => ?_
  refine (hempty.and stable_shut).lift hw fun D w ⟨⟨hw, hbare⟩, hclosed, hpending⟩ => ?_
  exact ⟨hbare, hclosed, hpending, fun d hd => hw.met hbare hpending hd⟩

end Worker
end DemandPager
