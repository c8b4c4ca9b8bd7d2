/-
# However the thread ends

The thread of the worker and all others, step by step (`Station.Step`): the thread does the
next part of its errand, or others do to the site what they may do. The thread is over once it
returns, with an error or without, or it breaks off, in a callback for instance.

If it returns, everything that was owed at any time before is done: the requests that were
queued are answered, each by a step that fills its completion, nobody gets a request into the
queue any more, and no access to an object that was on the books reports success. If it breaks
off nothing of this is done, then or later: what is queued stays there, and whoever could access
an object still can (`Station.ends_or_breaks`).

Key definitions: `Life`, `Station`, `Station.Step`, `Station.Reaches`, `Worker.Orderly`,
`Station.Answered`, `Station.Discharged`, `Station.Stranded`.
Key theorems: `Station.reaches_run`, `Station.Step.keeps`, `Station.Reaches.answered`,
`Station.ends_or_breaks`.
-/
import Mathlib.Logic.Relation
import DemandPager.Proofs.Fulfilment

namespace DemandPager

variable {π γ : Type}

/-- How far the thread of the worker is. -/
inductive Life (π γ : Type) : Type 1
  /-- This is left of its errand. -/
  | running (rest : Errand π γ Unit)
  /-- It returned, or it broke off. -/
  | ended (result : Checked Unit)

/-- The worker, and how far its thread is. -/
structure Station (π γ : Type) : Type 1 where
  worker : Worker π γ
  life : Life π γ

namespace Station

/-- The next step of the thread, or of others. -/
inductive Step : Station π γ → Station π γ → Prop
  | others {w : Worker π γ} {s : Site π γ} {life : Life π γ} (h : Interferes w.toSite s) :
    Step ⟨w, life⟩ ⟨⟨s, w.toDesk⟩, life⟩
  | part {β : Type} {w w' : Worker π γ} {step : WorkerM π γ β} {next : β → Errand π γ Unit} {b : β}
      (h : step w = .ok b w') : Step ⟨w, .running (.part step next)⟩ ⟨w', .running (next b)⟩
  | fails {β : Type} {w w' : Worker π γ} {step : WorkerM π γ β} {next : β → Errand π γ Unit}
      {f : Failure} (h : step w = .error f w') :
      Step ⟨w, .running (.part step next)⟩ ⟨w', .ended (.error f)⟩
  | turn {w : Worker π γ} {start number : Nat} {t : GateTurn} {next : Errand π γ Unit} :
    Step ⟨w, .running (.turn start number t next)⟩
      ⟨w.onSite (·.modifyGate number t.apply), .running next⟩
  | returns {w : Worker π γ} : Step ⟨w, .running (.ret ())⟩ ⟨w, .ended (.ok ())⟩

/-- A station that comes after another. -/
def Reaches : Station π γ → Station π γ → Prop := Relation.ReflTransGen Step

/-- **With nobody in between an errand comes to the end to which its parts come in a row.** -/
theorem reaches_run (p : Errand π γ Unit) (w : Worker π γ) :
    Worker.Ends p.run w (fun _ w' => Reaches ⟨w, .running p⟩ ⟨w', .ended (.ok ())⟩)
      fun f w' => Reaches ⟨w, .running p⟩ ⟨w', .ended (.error f)⟩ := by
  induction p generalizing w with
  | ret a => exact .single .returns
  | part step next ih =>
    rw [Errand.run, Worker.ends_bind]
    unfold Worker.Ends
    cases hact : step w with
    | ok b v =>
      exact (ih b v).mono (fun _ _ h => .head (.part hact) h) fun _ _ h => .head (.part hact) h
    | error f v => exact .single (.fails hact)
  | turn start number t next ih =>
    rw [Errand.run, Worker.ends_bind, Worker.ends_changeGate]
    exact (ih _).mono (fun _ _ h => .head .turn h) fun _ _ h => .head .turn h

/-- The dues will be met if the thread returns: as long as it runs none of them is forgotten. -/
def Keeps (D : Due → Prop) (st : Station π γ) : Prop :=
  match st.life with
  | .running rest => ∃ D' : Due → Prop, (∀ d, D d → Charged D' st.worker d) ∧
      rest.Withstands (fun _ => PaidOff) PaidOff D' st.worker
  | .ended (.error (.abort _)) => True
  | .ended _ => PaidOff D st.worker

theorem keeps_running {D D' : Due → Prop} {w : Worker π γ} {rest : Errand π γ Unit}
    (h : rest.Withstands (fun _ => PaidOff) PaidOff D' w) (hD : ∀ d, D d → Charged D' w d) :
    Keeps D ⟨w, .running rest⟩ := ⟨D', hD, h⟩

/-- **No step makes the dues be forgotten.** -/
theorem Step.keeps {D : Due → Prop} {st st' : Station π γ} (h : Step st st') (hst : st.Keeps D) :
    st'.Keeps D := by
  cases h with
  | @others w s life hs =>
    cases life with
    | running rest =>
      obtain ⟨D', hD, hrest⟩ := hst
      exact keeps_running (hrest.meanwhile hs) fun d hd => (hD d hd).imp_right (·.meanwhile hs)
    | ended result =>
      match result, hst with
      | .ok _, hst => exact PaidOff.meanwhile hst hs
      | .error (.error _), hst => exact PaidOff.meanwhile hst hs
      | .error (.abort _), _ => trivial
  | @part β w w' step next b hact =>
    obtain ⟨D', hD, hrest⟩ := hst
    exact keeps_running ((hrest w.toSite (.refl _)).of_ok hact) fun d hd => .inl (hD d hd)
  | @fails β w w' step next f hact =>
    obtain ⟨D', hD, hrest⟩ := hst
    have hfailed := (hrest w.toSite (.refl _)).of_error hact
    cases f with
    | abort breach => trivial
    | error cause => exact (hfailed cause rfl).of_charged fun d hd => .inl (hD d hd)
  | @turn w start number t next =>
    obtain ⟨D', hD, hrest⟩ := hst
    exact keeps_running (hrest w.toSite (.refl _)) fun d hd => .inl (hD d hd)
  | returns =>
    obtain ⟨D', hD, hrest⟩ := hst
    exact PaidOff.of_charged hrest hD

theorem Reaches.keeps {D : Due → Prop} {st st' : Station π γ} (h : Reaches st st')
    (hst : st.Keeps D) : st'.Keeps D := by
  induction h with
  | refl => exact hst
  | tail _ hstep ih => exact hstep.keeps ih

/-- What is owed at any time can become due. -/
theorem Keeps.owed {D : Due → Prop} {st : Station π γ} (h : st.Keeps D) :
    st.Keeps st.worker.Owed := by
  obtain ⟨w, life⟩ := st
  cases life with
  | running rest =>
    obtain ⟨D', -, hrest⟩ := h
    exact keeps_running hrest fun d hd => .inr hd
  | ended result =>
    match result, h with
    | .ok _, h => exact (show PaidOff D w from h).of_charged fun d hd => .inr hd
    | .error (.error _), h => exact (show PaidOff D w from h).of_charged fun d hd => .inr hd
    | .error (.abort _), _ => trivial

/-! ### Answers -/

/-- A request was answered between two stations: one step entered the answer, and the completion
of the request, if it was there, holds it from that step on unless it held one before. -/
def Answered (t : Nat) (st st' : Station π γ) : Prop :=
  ∃ before after : Station π γ, Reaches st before ∧ Step before after ∧ Reaches after st' ∧
    ∃ es a, after.worker.journal = before.worker.journal ++ es ∧ .answer t a ∈ es ∧
      (t < before.worker.exchange.completions.length → after.worker.exchange.answerTo t =
        (before.worker.exchange.answerTo t).or (some a))

theorem Answered.tail {t : Nat} {st mid st' : Station π γ} (h : Answered t st mid)
    (hstep : Step mid st') : Answered t st st' := by
  obtain ⟨before, after, hbefore, hanswer, hafter, hfilled⟩ := h
  exact ⟨before, after, hbefore, hanswer, hafter.tail hstep, hfilled⟩

/-- What is left of the thread gives the answers that it enters. -/
def Fulfilling (st : Station π γ) : Prop :=
  match st.life with
  | .running rest => rest.Leads Fulfils
  | .ended _ => True

/-- **A step that enters answers gives them**, and so do all that follow. -/
theorem Step.fulfilling {st st' : Station π γ} (h : Step st st') (hst : st.Fulfilling) :
    st'.Fulfilling ∧ (st'.worker.journal = st.worker.journal ∨ Fulfils st.worker st'.worker) := by
  cases h with
  | others hs => exact ⟨hst, .inl hs.journal⟩
  | @part β w w' step next b hact =>
    have hstep : Worker.Ends step w (fun _ => Fulfils w) (fun _ => Fulfils w) := hst.1 w
    exact ⟨hst.2 b, .inr (hstep.of_ok hact)⟩
  | @fails β w w' step next f hact =>
    have hstep : Worker.Ends step w (fun _ => Fulfils w) (fun _ => Fulfils w) := hst.1 w
    exact ⟨trivial, .inr (hstep.of_error hact)⟩
  | turn => exact ⟨hst, .inl rfl⟩
  | returns => exact ⟨trivial, .inl rfl⟩

theorem Reaches.fulfilling {st st' : Station π γ} (h : Reaches st st') (hst : st.Fulfilling) :
    st'.Fulfilling ∧ st.worker.journal <+: st'.worker.journal := by
  induction h with
  | refl => exact ⟨hst, List.prefix_rfl⟩
  | tail _ hstep ih =>
    obtain ⟨hkept, hjournal⟩ := hstep.fulfilling ih.1
    refine ⟨hkept, ih.2.trans ?_⟩
    rcases hjournal with hsame | ⟨es, hes⟩
    · exact hsame ▸ List.prefix_rfl
    · exact hes.journal ▸ List.prefix_append ..

/-- **What was entered as an answer between two stations was given by one of the steps.** -/
theorem Reaches.answered {st st' : Station π γ} (h : Reaches st st') (hst : st.Fulfilling)
    {t : Nat} {a : Answer} (ha : .answer t a ∈ st'.worker.journal.drop st.worker.journal.length) :
    Answered t st st' := by
  induction h with
  | refl =>
    rw [List.drop_length] at ha
    cases ha
  | @tail before after hbefore hstep ih =>
    obtain ⟨hkept, hgrown⟩ := Reaches.fulfilling hbefore hst
    rcases (hstep.fulfilling hkept).2 with hsame | ⟨es, hes⟩
    · exact (ih (hsame ▸ ha)).tail hstep
    · rw [hes.journal, List.drop_append_of_le_length hgrown.length_le] at ha
      rcases List.mem_append.mp ha with hold | hnew
      · exact (ih hold).tail hstep
      · obtain ⟨b, hb, hfilled⟩ := hes.answered hnew
        exact ⟨before, after, hbefore, hstep, .refl, es, b, hes.journal, hb, hfilled⟩

/-! ### A thread that broke off -/

/-- Nobody takes up what was left. -/
structure Stranded (st st' : Station π γ) : Prop where
  /-- No request was answered. -/
  journal : st'.worker.journal = st.worker.journal
  /-- What was queued is still queued. -/
  pending : st.worker.exchange.channel.pending <+: st'.worker.exchange.channel.pending
  /-- Unless somebody closed the queue, requests are accepted that nobody will serve. -/
  accepts : st'.worker.exchange.channel.closed = false → ∀ r : Request γ,
    (st'.worker.toSite.submit r).1 = .ok () ∧
      Site.Sent st'.worker.toSite (st'.worker.toSite.submit r).2 [r]
  /-- Accesses report success where they did. -/
  leave : ∀ n < st.worker.gates.length,
    (st'.worker.gate n).leave = (st.worker.gate n).leave

theorem Step.life_of_ended {st st' : Station π γ} (h : Step st st') {result : Checked Unit}
    (hended : st.life = .ended result) :
    st'.life = .ended result ∧ Interferes st.worker.toSite st'.worker.toSite := by
  cases h with
  | others hs => exact ⟨hended, hs⟩
  | part => cases hended
  | fails => cases hended
  | turn => cases hended
  | returns => cases hended

/-- **After the thread is over only others do something.** -/
theorem Reaches.interferes {st st' : Station π γ} (h : Reaches st st') {result : Checked Unit}
    (hended : st.life = .ended result) :
    st'.life = .ended result ∧ Interferes st.worker.toSite st'.worker.toSite := by
  induction h with
  | refl => exact ⟨hended, .refl _⟩
  | tail _ hstep ih =>
    obtain ⟨hlife, hs⟩ := hstep.life_of_ended ih.1
    exact ⟨hlife, ih.2.trans hs⟩

theorem stranded_of_interferes {st st' : Station π γ}
    (h : Interferes st.worker.toSite st'.worker.toSite) : Stranded st st' where
  journal := h.journal
  pending := by
    obtain ⟨new, hnew, -⟩ := h.queue
    exact hnew ▸ List.prefix_append ..
  accepts := Site.submit_sent
  leave := fun n hn => by
    obtain ⟨g', hg', heq⟩ := h.gates n _ (List.getElem?_eq_getElem hn)
    rw [Site.gate_of_getElem? hg', Site.gate_of_getElem? (List.getElem?_eq_getElem hn)]
    unfold Gate.leave
    rw [heq]

/-! ### A thread that returned -/

/-- What was owed was done, and nothing is accepted any more. -/
structure Discharged (st st' : Station π γ) : Prop where
  closed : st'.worker.exchange.channel.closed = true
  pending : st'.worker.exchange.channel.pending = []
  /-- The requests that were queued are answered. -/
  answered : ∀ t ∈ ticketsOf st.worker.exchange.channel.pending,
    ∃ a, .answer t a ∈ st'.worker.journal.drop st.worker.journal.length
  /-- And their completions were filled. -/
  filled : ∀ t ∈ ticketsOf st.worker.exchange.channel.pending, Answered t st st'
  /-- No access to an object that was on the books reports success. -/
  barred : ∀ e ∈ st.worker.objects.toList,
    (st'.worker.gate e.value.gate).leave = .error .shuttingDown
  /-- Requests are refused, and none is queued. -/
  refuses : ∀ r : Request γ, (st'.worker.toSite.submit r).1 = .error .shuttingDown ∧
    (st'.worker.toSite.submit r).2.exchange.channel = st'.worker.exchange.channel
  /-- To release an object there is nothing to wait for. -/
  settles : ∀ (h : Handle) (attached : Bool),
    (st'.worker.toSite.beginDestroy h attached).1 = .settled

theorem discharged_of_paidOff {st st' : Station π γ} (h : PaidOff st.worker.Owed st'.worker)
    (hreaches : Reaches st st') (hst : st.Fulfilling) : Discharged st st' where
  closed := h.closed
  pending := h.pending
  answered := fun t ht => h.met (.answer t st.worker.journal.length) ⟨ht, Nat.le_refl _⟩
  filled := fun t ht => by
    obtain ⟨a, ha⟩ := h.met (.answer t st.worker.journal.length) ⟨ht, Nat.le_refl _⟩
    exact hreaches.answered hst ha
  barred := fun e he => by
    obtain ⟨g, hg, hbarred⟩ := h.met (.bar e.value.gate) (List.mem_map_of_mem he)
    rw [Site.gate_of_getElem? hg]
    unfold Gate.leave
    rw [if_pos hbarred]
  refuses := Site.submit_closed h.closed
  settles := Site.beginDestroy_closed h.closed

end Station

/-- All gates that the worker knows of were opened. -/
structure Worker.Orderly (w : Worker π γ) : Prop where
  sound : w.objects.Sound
  housed : ∀ e ∈ w.objects.toList, e.value.gate < w.gates.length
  mail : ∀ m ∈ w.exchange.channel.pending, m.Housed w.gates.length

theorem Minding.orderly {tickets gates : List Nat} {D : Due → Prop} {w : Worker π γ}
    (h : Minding tickets gates D w) : w.Orderly where
  sound := h.sound
  housed := fun _ he => h.housed _ (List.mem_append_right _ (List.mem_map_of_mem he))
  mail := h.mail

namespace Station

open Worker (after allocate ending eq_error_of_ending furnished_allocate run_threadErrand
  sampleObject sampleStart serve threadErrand)

variable [Paging π]

/-- **The thread ends in order, or it breaks off.** -/
theorem ends_or_breaks {o : Options} {script : List (Turn π γ)}
    {forgotten : Except PagerError Unit} {w₀ : Worker π γ} {st st' : Station π γ}
    {result : Checked Unit} (h₀ : w₀.Orderly)
    (h : Reaches ⟨w₀, .running (threadErrand o script forgotten)⟩ st)
    (h' : Reaches st st') (hended : st'.life = .ended result) :
    ((∀ breach, result ≠ .error (.abort breach)) → Discharged st st') ∧
      ∀ breach, result = .error (.abort breach) → ∀ st'', Reaches st' st'' → Stranded st' st'' := by
  have hstart : Keeps (fun _ => False) ⟨w₀, .running (threadErrand o script forgotten)⟩ := by
    have hminding : Minding [] [] (fun _ => False) w₀ :=
      ⟨h₀.sound, List.forall_mem_map.mpr h₀.housed, h₀.mail, fun _ h => h.elim⟩
    exact keeps_running (Worker.threadErrand_pays hminding) fun _ h => h.elim
  have hend := h'.keeps (h.keeps hstart).owed
  refine ⟨fun hreturned => ?_, fun breach _ st'' h'' => ?_⟩
  · have hfulfilling := (h.fulfilling (Worker.fulfils_threadErrand o script forgotten)).1
    refine discharged_of_paidOff ?_ h' hfulfilling
    unfold Keeps at hend
    rw [hended] at hend
    match result, hend with
    | .ok _, hend => exact hend
    | .error (.error _), hend => exact hend
    | .error (.abort breach), _ => exact absurd rfl (hreturned breach)
  · exact stranded_of_interferes (h''.interferes hended).2

/-- An object whose elements cannot be filled. -/
def sampleBarren (fillEnd : FillEnd) : Object Unit :=
  { sampleObject with
    callbacks := { populate := fun _ _ target client => (fillEnd, target, client) } }

/-- The object was created. -/
def sampleCreated (fillEnd : FillEnd) : Worker ScriptedMemory Unit :=
  after (allocate (sampleBarren fillEnd))
    (sampleStart.onSite ({ · with gates := [{ owner := 1 }] }))

/-- Then a request is queued. -/
def sampleHost (fillEnd : FillEnd) : Worker ScriptedMemory Unit :=
  ⟨((sampleCreated fillEnd).toSite.submit (.free 9 0)).2, (sampleCreated fillEnd).toDesk⟩

theorem sampleHost_orderly (fillEnd : FillEnd) : (sampleHost fillEnd).Orderly := by
  have hstart : Minding [] [] (fun _ => False)
      (sampleStart.onSite ({ · with gates := [{ owner := 1 }] })) :=
    ⟨IntervalMap.sound_empty, fun _ h => (by cases h), fun _ h => (by cases h), fun _ h => h.elim⟩
  have hcreated : Minding [] [] (fun _ => False) (sampleCreated fillEnd) :=
    hstart.placed (furnished_allocate (sampleBarren fillEnd)).after Nat.zero_lt_one
  exact (hcreated.meanwhile (Site.interferes_submit _ (.free 9 0))).orderly

/-- The wait ends with a fault. -/
def sampleFault : List (Turn ScriptedMemory Unit) :=
  [{ meanwhile := (·.queueFaults [0x10000010]), outcome := .ready [faultToken] }]

/-- The station at which the thread begins. -/
def sampleBegin (fillEnd : FillEnd) : Station ScriptedMemory Unit :=
  ⟨sampleHost fillEnd, .running (threadErrand {} sampleFault (.ok ()))⟩

/-- The station at which the thread is over, if the serving ends in a failure. -/
def sampleEnd (fillEnd : FillEnd) (f : Failure) : Station ScriptedMemory Unit :=
  ⟨after (serve {} sampleFault (.ok ())) (sampleHost fillEnd), .ended (.error f)⟩

theorem sampleBegin_reaches {fillEnd : FillEnd} {f : Failure}
    (h : ending (serve {} sampleFault (.ok ())) (sampleHost fillEnd) = some f) :
    Reaches (sampleBegin fillEnd) (sampleEnd fillEnd f) := by
  have hrun := reaches_run (threadErrand {} sampleFault (.ok ())) (sampleHost fillEnd)
  rw [run_threadErrand] at hrun
  exact hrun.of_error (eq_error_of_ending h)

/-- If the callback gives up, the request is answered and the object is let go; if it breaks
off, neither is done, and the queue is open. -/
theorem ends_or_breaks_sample :
    Discharged (sampleBegin (.gaveUp "no")) (sampleEnd (.gaveUp "no") (.error (.populate "no"))) ∧
      (∀ st, Reaches (sampleEnd .broke (.abort .callback)) st →
        Stranded (sampleEnd .broke (.abort .callback)) st) ∧
      ticketsOf (sampleBegin (.gaveUp "no")).worker.exchange.channel.pending = [0] ∧
      ticketsOf (sampleEnd .broke (.abort .callback)).worker.exchange.channel.pending = [0] ∧
      (sampleEnd .broke (.abort .callback)).worker.exchange.channel.closed = false ∧
      ((sampleEnd .broke (.abort .callback)).worker.gate 0).leave = .ok () := by
  have hgaveUp : Reaches (sampleBegin (.gaveUp "no"))
      (sampleEnd (.gaveUp "no") (.error (.populate "no"))) :=
    sampleBegin_reaches (by decide +kernel)
  have hbroke : Reaches (sampleBegin .broke) (sampleEnd .broke (.abort .callback)) :=
    sampleBegin_reaches (by decide +kernel)
  refine ⟨(ends_or_breaks (sampleHost_orderly _) .refl hgaveUp rfl).1 fun _ h => ?_,
    (ends_or_breaks (sampleHost_orderly _) .refl hbroke rfl).2 .callback rfl, ?_⟩
  · cases h
  · decide +kernel

end Station
end DemandPager
