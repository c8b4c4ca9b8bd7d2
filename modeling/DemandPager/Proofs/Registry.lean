/-
# The registry of the worker

The objects on the books of the worker are its registry. A request that is answered changes it
in step with the answer: an object that is placed was taken in under its reservation, an object
that is released is gone and its gate is retired, and a refusal leaves the registry and the life
of all gates as they were (`Worker.allocate_registers`, `Worker.free_registers`).

The rest is about single wakeups. One for a request that was queued alone is the service of this
request (`Worker.serveWakeup_request`); one without a request leaves the registry, the gates and
the exchange to themselves (`Worker.serveWakeup_unasked`).

A memory is `Candid` if it never says that the pager is shutting down; the caller of a release
would take this for a success. The memory of the host and the scripted one are.

Key definitions: `Paging.Candid`, `Worker.Attended`, `Worker.Housed`, `Worker.Vacated`,
`Worker.Unasked`.
Key theorems: `Worker.allocate_registers`, `Worker.free_registers`,
`Worker.serveWakeup_allocate`, `Worker.serveWakeup_free`, `Worker.serveWakeup_unasked`.
-/
import DemandPager.Pager
import DemandPager.Paging.Scripted
import DemandPager.Proofs.Conclusions
import DemandPager.Proofs.Serving

namespace DemandPager

variable {π γ : Type}

/-! ### Memories that are candid -/

/-- The call never fails with this error. -/
def Spares {α σ : Type} (call : EStateM PagerError σ α) (cause : PagerError) : Prop :=
  ∀ s s', call s ≠ .error cause s'

/-- The memory refuses for reasons of its own. -/
structure Paging.Candid (π : Type) [Paging π] : Prop where
  unregister (start len : Nat) :
    Spares (Paging.unregister start len : EStateM PagerError π Unit) .shuttingDown
  readResident (start len : Nat) :
    Spares (Paging.readResident start len : EStateM PagerError π Bytes) .shuttingDown

section Spares

variable {α β σ : Type} {cause : PagerError}

theorem Spares.called {call : EStateM PagerError π α} (h : Spares call cause) {pages pages' : π}
    {cause' : PagerError} (hcall : Worker.Called call pages (.error cause') pages') :
    cause' ≠ cause := by
  rintro rfl
  unfold Worker.Called at hcall
  cases hact : call pages with
  | ok a v =>
    rw [hact] at hcall
    cases hcall.1
  | error c v =>
    rw [hact] at hcall
    cases hcall.1
    exact h _ _ hact

theorem spares_bind {call : EStateM PagerError σ α} {next : α → EStateM PagerError σ β}
    (h : Spares call cause) (hnext : ∀ a, Spares (next a) cause) :
    Spares (call >>= next) cause := by
  intro s s' herr
  change EStateM.bind call next s = _ at herr
  unfold EStateM.bind at herr
  cases hcall : call s with
  | ok a v =>
    rw [hcall] at herr
    exact hnext a v s' herr
  | error c v =>
    rw [hcall] at herr
    cases herr
    exact h s s' hcall

theorem spares_throw {cause' : PagerError} (hne : cause' ≠ cause) :
    Spares (throw cause' : EStateM PagerError σ α) cause := by
  intro s s' herr
  cases herr
  exact hne rfl

theorem spares_pure (a : α) : Spares (pure a : EStateM PagerError σ α) cause := by
  intro s s' herr
  cases herr

theorem spares_set (s : σ) : Spares (set s : EStateM PagerError σ PUnit) cause := by
  intro s s' herr
  cases herr

theorem spares_modifyGet (f : σ → α × σ) :
    Spares (modifyGet f : EStateM PagerError σ α) cause := by
  intro s s' herr
  cases herr

theorem HostMemory.spares_checkRange (hne : .ofCode Errno.invalid ≠ cause) (start len : Nat) :
    Spares (checkRange start len) cause := by
  unfold checkRange
  split
  · exact spares_pure ()
  · exact spares_throw hne

theorem ScriptedMemory.spares_permit (hne : .ofCode Errno.invalid ≠ cause) (call : PagingCall) :
    Spares (permit call) cause := by
  unfold permit
  refine spares_bind (spares_modifyGet fun m => (m, m)) fun m => ?_
  split
  · exact spares_bind (spares_set _) fun _ => spares_throw hne
  · exact spares_pure ()

/-- The scripted memory reads what it has, or names the first address that it does not have. -/
theorem ScriptedMemory.spares_readResident (hne : .ofCode Errno.invalid ≠ cause)
    (haddress : ∀ address, .unknownAddress address ≠ cause) (start len : Nat) :
    Spares (Paging.readResident start len : EStateM PagerError ScriptedMemory Bytes) cause := by
  refine spares_bind (spares_permit hne .readResident) fun _ => ?_
  refine spares_bind (spares_modifyGet fun m => (m, m)) fun m => ?_
  split
  · exact spares_pure _
  · exact spares_throw (haddress _)

end Spares

theorem HostMemory.candid : Paging.Candid HostMemory where
  unregister start len :=
    spares_bind (spares_bind (spares_checkRange (by decide) start len) fun _ => spares_modifyGet _)
      fun _ => spares_modifyGet _
  readResident start len := spares_modifyGet _

theorem ScriptedMemory.candid : Paging.Candid ScriptedMemory where
  unregister start len := spares_permit (by decide) .unregister
  readResident start len :=
    spares_readResident (by decide) (fun _ h => (by cases h)) start len

namespace Worker

variable [Paging π] {w : Worker π γ}

/-! ### Creating an object -/

/-- **An object that is created was taken in where it lies**, and if it is not created no object
was. -/
theorem allocate_registers (o : Object γ) : Ends (allocate o) w
    (fun start w' => w.objects.insert start o.geometry.trueSize o = .ok w'.objects)
    fun f w' => ∀ cause, f = .error cause → w'.objects = w.objects := by
  have hrest : ∀ {act : WorkerM π γ Unit} {v : Worker π γ} {next : WorkerM π γ Nat},
      v.objects = w.objects → Leads AtRest act v →
      (∀ u : Worker π γ, u.objects = w.objects → Ends next u
        (fun start w' => w.objects.insert start o.geometry.trueSize o = .ok w'.objects)
        fun f w' => ∀ cause, f = .error cause → w'.objects = w.objects) →
      Ends (act >>= fun _ => next) v
        (fun start w' => w.objects.insert start o.geometry.trueSize o = .ok w'.objects)
        fun f w' => ∀ cause, f = .error cause → w'.objects = w.objects := by
    intro act v next hv hact hnext
    rw [ends_bind]
    refine Ends.mono hact ?_ ?_
    · rintro _ u ⟨es, hu⟩
      exact hnext u (hu.objects.trans hv)
    · rintro _ u ⟨es, hu⟩ _ _
      exact hu.objects.trans hv
  unfold allocate
  refine hrest rfl (still_permitObject o) fun v hv => ?_
  rw [ends_bind]
  refine ends_callBreakable (fun result pages _ => ?_) fun _ _ h => by cases h
  rw [ends_bind, ends_settle]
  refine ⟨fun start _ => ?_, fun _ _ _ _ => hv⟩
  refine hrest hv (still_registerOrRelease ..) fun v hv => ?_
  refine hrest hv (still_zeroHeader ..) fun v hv => ?_
  rw [ends_bind]
  refine recordObject_ends.mono ?_ ?_
  · rintro _ _ ⟨objects, hinsert, rfl⟩
    rw [← hv]
    exact hinsert
  · rintro f u ⟨cause, es, freed, result, result', -, hu, -⟩ _ _
    exact hu.objects.trans hv

/-! ### Releasing an object -/

/-- Chunks on record that are not handed over were not read. -/
theorem writeBackAll_refused (hcandid : Paging.Candid π) :
    ∀ (records : List ChunkRecord) (w : Worker π γ), w.toDesk.Filed →
    (∀ r ∈ records, r ∈ w.ring.toList ∧ r.isLive) →
    Ends (writeBackAll (records.map (·.address))) w (fun _ _ => True)
      fun f _ => ∀ cause, f = .error cause → cause ≠ .shuttingDown
  | [], _, _, _ => trivial
  | r :: rest, w, hw, hrecords => by
    obtain ⟨hmem, hlive⟩ := hrecords r (List.mem_cons_self ..)
    obtain ⟨e, he, k, hr⟩ := hw.chunks r hmem hlive
    rw [List.map_cons]
    unfold writeBackAll
    rw [ends_bind]
    refine (writeBackChunk_ends hw he hr (hw.fits r hmem)).mono ?_ ?_
    · rintro _ v ⟨es, hv, -, -⟩
      refine writeBackAll_refused hcandid rest v (hv.filed hw) fun x hx => ?_
      rw [hv.ring]
      exact hrecords x (List.mem_cons_of_mem _ hx)
    · rintro f v (⟨rfl, -⟩ | ⟨cause, rfl, -, hread, -⟩) cause' hcause
      · cases hcause
      · cases hcause
        exact (hcandid.readResident _ _).called hread

theorem handOverAll_refused (hcandid : Paging.Candid π) (e : Interval (Object γ))
    (hw : w.toDesk.Filed) : Ends (handOverAll e) w (fun _ _ => True)
      fun f _ => ∀ cause, f = .error cause → cause ≠ .shuttingDown := by
  unfold handOverAll
  rw [ends_ite]
  refine ⟨fun _ => ?_, fun _ => trivial⟩
  rw [ends_bind, ends_get]
  refine writeBackAll_refused hcandid _ w hw fun r hr => ?_
  rw [List.mem_filter, Bool.and_eq_true] at hr
  exact ⟨hr.1, hr.2.2⟩

omit [Paging π] in
/-- No gate was turned. -/
def SameGates (w w' : Worker π γ) : Prop := w'.gates = w.gates

omit [Paging π] in
instance : IsPreorder (Worker π γ) SameGates where
  refl _ := rfl
  trans _ _ _ h h' := Eq.trans h' h

omit [Paging π] in
theorem Leads.sameGates {α : Type} {act : WorkerM π γ α} (h : Leads AtRest act w) :
    Leads SameGates act w := by
  refine h.mono ?_
  rintro v ⟨es, hv⟩
  exact hv.turns

theorem sameGates_discharge (e : Interval (Object γ)) :
    Leads SameGates (discharge e : WorkerM π γ Unit) w := by
  unfold discharge strike
  refine leads_bind ?_ fun object v => ?_
  · refine leads_get_bind (leads_settle_bind fun struck => ?_)
    refine leads_bind (leads_modify rfl) fun _ v => leads_get_bind ?_
    refine leads_bind (leads_set rfl) fun _ u => leads_checked_bind fun _ => ?_
    refine leads_checked_bind fun used => leads_bind (leads_modify rfl) fun _ _ => leads_pure _
  · refine leads_bind (still_callPages fun _ => ⟨rfl, rfl⟩).sameGates fun _ v => ?_
    refine leads_bind (still_finish _).sameGates fun _ v => ?_
    exact leads_bind (still_count _).sameGates fun _ v => leads_checkTotals

/-- An object was released: it is gone, and its gate is retired. -/
def Released (id start : Nat) (w w' : Worker π γ) : Prop :=
  ∃ e ∈ w.objects.toList, e.start = start ∧ e.value.id = id ∧
    w'.objects.toList = w.objects.toList.filter (·.start ≠ start) ∧
    ∃ f : Gate → Gate, (∀ g, (f g).alive = false) ∧ w'.gates = w.gates.modify e.value.gate f

/-- A release was refused: the objects are the same, and as many gates are alive. -/
def Refused (w w' : Worker π γ) : Prop :=
  w'.objects = w.objects ∧
    ∃ (n : Nat) (f : Gate → Gate), (∀ g, (f g).alive = g.alive) ∧ w'.gates = w.gates.modify n f

omit [Paging π] in
theorem Refused.of_still {w' : Worker π γ} {es : List JournalEntry} (h : Still w w' es) :
    Refused w w' := by
  refine ⟨h.objects, 0, id, fun _ => rfl, ?_⟩
  rw [List.modify_id]
  exact h.turns

/-- **An object that is released is gone, and its gate is retired.** A release that is refused
leaves the objects and the life of the gates as they were, and the reason is never that the
pager is shutting down. -/
theorem free_registers (hcandid : Paging.Candid π) {id start : Nat} (hw : w.InOrder) :
    Ends (free id start) w (fun _ => Released id start w)
      fun f w' => ∀ cause, f = .error cause → cause ≠ .shuttingDown ∧ Refused w w' := by
  unfold free
  rw [ends_bind, ends_get]
  cases hat : w.objectAt id start with
  | none =>
    rintro cause ⟨⟩
    exact ⟨(by intro h; cases h), .of_still ⟨.refl w, rfl, rfl⟩⟩
  | some e =>
    obtain ⟨he, rfl, rfl⟩ := objectAt_eq_some hw.filed hat
    rw [ends_bind]
    refine ((handOverAll_ends e hw.filed).and
      ((handOverAll_refused hcandid e hw.filed).and (still_handOverAll e))).mono ?_ ?_
    · rintro _ v ⟨⟨es, hv, -⟩, -, es', hstill⟩
      rw [ends_bind]
      unfold unmap
      simp only [ends_bind, ends_changeGate]
      refine ends_callPages fun result pages hcalled => ?_
      cases result with
      | ok =>
        rw [ends_changeGate]
        set u : Worker π γ := { v with
          pages
          gates := (v.gates.modify e.value.gate Gate.beginUnmap).modify e.value.gate Gate.retire
          journal := v.journal ++ [.unregister e.start e.len (.ok ())] }
        have heu : e ∈ u.objects.toList := by
          rw [show u.objects = w.objects from hv.objects]
          exact he
        refine ((discharge_ends (w := u) (hv.filed hw.filed) (hv.owes hw.owes) heu).and
          (sameGates_discharge (w := u) e)).mono ?_ ?_
        · rintro _ w' ⟨⟨-, es'', hd⟩, hgates⟩
          refine ⟨e, he, rfl, rfl, ?_, Gate.retire ∘ Gate.beginUnmap, fun _ => rfl, ?_⟩
          · rw [hd.objects, show u.objects = w.objects from hv.objects]
          · rw [show w'.gates = u.gates from hgates, ← List.modify_modify_eq, ← hstill.turns]
        · rintro _ w' ⟨⟨rfl, -⟩, -⟩ cause hcause
          cases hcause
      | error cause =>
        simp only [ends_bind, ends_changeGate, ends_refuse]
        rintro cause' ⟨⟩
        refine ⟨(hcandid.unregister _ _).called hcalled, hv.objects, e.value.gate,
          Gate.abortUnmap ∘ Gate.beginUnmap, fun _ => rfl, ?_⟩
        rw [← List.modify_modify_eq, ← hstill.turns]
    · rintro f v ⟨-, hcause, es, hstill⟩ cause rfl
      exact ⟨hcause cause rfl, .of_still hstill⟩

/-! ### Single wakeups -/

/-- The worker after it took up the only request that was queued. -/
def taking (w : Worker π γ) (ticket : Nat) : Worker π γ :=
  { w with
    journal := w.journal ++ [.serve ticket]
    exchange := { w.exchange with channel :=
      { w.exchange.channel with pending := [], bell := w.exchange.channel.bell.drain.2 } } }

/-- The worker after it answered a request. -/
def replied (w : Worker π γ) (ticket : Nat) (a : Answer) : Worker π γ :=
  { w with
    journal := w.journal ++ [.answer ticket a]
    exchange := w.exchange.finish ticket a }

/-- **A wakeup for a request that was queued alone is the service of this request.** -/
theorem serveWakeup_request {m : Message γ} {act : WorkerM π γ Answer} {ticket : Nat}
    {post : Option (Except PagerError Unit) → Worker π γ → Prop}
    {fail : Failure → Worker π γ → Prop} (hpending : w.exchange.channel.pending = [m])
    (hserve : serveMessage m = serveRequest ticket act)
    (hact : Ends act (w.taking ticket)
      (fun a v => v.phase = .running ∧ post none (v.replied ticket a))
      fun f v => (∀ cause, f = .error cause →
          v.phase = .running ∧ post none (v.replied ticket (.refused cause))) ∧
        ∀ breach, f = .abort breach → fail f v) :
    Ends (serveWakeup [controlToken]) w post fail := by
  have hrequest : Ends (serveRequest ticket act)
      { w with exchange := { w.exchange with channel :=
        { w.exchange.channel with pending := [], bell := w.exchange.channel.bell.drain.2 } } }
      (fun flow v => flow = .proceed ∧ v.phase = .running ∧ post none v)
      fun f v => (∃ breach, f = .abort breach) ∧ fail f v := by
    unfold serveRequest
    rw [ends_bind, ends_note, ends_bind, ends_attempt]
    refine Ends.mono hact (fun a v hv => ⟨rfl, hv⟩) ?_
    rintro f v ⟨hcause, hbreach⟩
    refine ⟨fun cause hf => ⟨rfl, hcause cause hf⟩, ?_⟩
    rintro breach rfl
    exact ⟨⟨breach, rfl⟩, hbreach breach rfl⟩
  have hserved : Ends (serveTokens (.ok ()) [controlToken]) w
      (fun _ v => v.phase = .running ∧ post none v)
      fun f v => (∃ breach, f = .abort breach) ∧ fail f v := by
    unfold serveTokens
    rw [if_neg (by decide), if_pos rfl, ends_bind]
    unfold answerBell drainControl
    dsimp only
    rw [ends_modify, ends_bind, ends_bind, ends_get]
    simp only [onExchange, Channel.answerBell, hpending, List.length_singleton]
    unfold serveMessages nextMessage
    simp only [ends_bind, ends_get, Channel.next, ends_set, ends_pure, onExchange, hserve]
    refine hrequest.mono ?_ fun _ _ h => h
    rintro _ v ⟨rfl, hv⟩
    exact hv
  unfold serveWakeup
  rw [ends_bind, ends_attempt]
  refine hserved.mono ?_ ?_
  · rintro _ v ⟨hphase, hv⟩
    rw [ends_bind, ends_get, if_pos hphase]
    exact hv
  · rintro _ v ⟨⟨breach, rfl⟩, hv⟩
    exact ⟨fun _ hcause => (by cases hcause), fun _ _ => hv⟩

/-- A request was answered; what callers share with the worker is otherwise as it was. -/
structure Attended (ticket : Nat) (a : Answer) (w w' : Worker π γ) : Prop where
  inOrder : w'.InOrder
  phase : w'.phase = .running
  exchange : w'.exchange = { w.exchange with
    channel := { w.exchange.channel with pending := [], bell := w'.exchange.channel.bell }
    completions := w'.exchange.completions
    stats := w'.exchange.stats }
  answer : w'.exchange.answerTo ticket = some a

/-- What is known of the execution of a request is known after the wakeup for it. The request
stays without an answer if the worker breaks off. -/
theorem serveWakeup_concludes {m : Message γ} {act : WorkerM π γ Answer} {ticket : Nat}
    {P : Answer → Worker π γ → Prop} (hw : w.InOrder) (hphase : w.phase = .running)
    (hpending : w.exchange.channel.pending = [m])
    (hserve : serveMessage m = serveRequest ticket act)
    (hfresh : w.exchange.completions[ticket]? = some {})
    (hdiscreet : Leads Discreetly act (w.taking ticket))
    (hact : (w.taking ticket).InOrder → Ends act (w.taking ticket)
      (fun a v => (∃ es, Kept (w.taking ticket) v es) ∧ v.InOrder ∧ P a (v.replied ticket a))
      fun f v => ∀ cause, f = .error cause → (∃ es, Kept (w.taking ticket) v es) ∧ v.InOrder ∧
        P (.refused cause) (v.replied ticket (.refused cause))) :
    Ends (serveWakeup [controlToken]) w
      (fun outcome w' => outcome = none ∧ ∃ a, Attended ticket a w w' ∧ P a w')
      fun f w' => (∃ breach, f = .abort breach) ∧ w'.exchange.answerTo ticket = none := by
  have htaking : (w.taking ticket).InOrder :=
    ⟨hw.filed, hw.owes, hw.marks, fun x hx => by cases hx⟩
  have hreply : ∀ (a : Answer) (v : Worker π γ), (∃ es, Kept (w.taking ticket) v es) → v.InOrder →
      v.phase = .running ∧ Attended ticket a w (v.replied ticket a) := by
    rintro a v ⟨es, hkept⟩ hv
    have hrunning : v.phase = .running := hkept.phase.trans hphase
    refine ⟨hrunning, reply_inOrder hv, hrunning, ?_, ?_⟩
    · unfold replied
      rw [hkept.exchange]
      rfl
    · refine Exchange.answerTo_finish_of_fresh ?_
      rw [hkept.exchange]
      exact hfresh
  refine serveWakeup_request hpending hserve (((hact htaking).and hdiscreet).mono ?_ ?_)
  · rintro a v ⟨⟨hkept, hv, hP⟩, -⟩
    have hattended := hreply a v hkept hv
    exact ⟨hattended.1, rfl, a, hattended.2, hP⟩
  · rintro f v ⟨herr, es, hdiscreet⟩
    refine ⟨fun cause hf => ?_, fun breach hf => ⟨⟨breach, hf⟩, ?_⟩⟩
    · obtain ⟨hkept, hv, hP⟩ := herr cause hf
      have hattended := hreply (.refused cause) v hkept hv
      exact ⟨hattended.1, rfl, .refused cause, hattended.2, hP⟩
    · unfold Exchange.answerTo
      rw [hdiscreet.completions,
        show (w.taking ticket).exchange.completions[ticket]? = some {} from hfresh]
      rfl

/-- What the answer to a request for a new object says of the registry. -/
inductive Housed (o : Object γ) (w w' : Worker π γ) : Answer → Prop
  | placed {start : Nat}
      (hinsert : w.objects.insert start o.geometry.trueSize o = .ok w'.objects) :
      Housed o w w' (.placed start)
  | refused {cause : PagerError} (hobjects : w'.objects = w.objects) :
      Housed o w w' (.refused cause)

/-- What the answer to a request to release an object says of the registry. -/
inductive Vacated (id start : Nat) (w w' : Worker π γ) : Answer → Prop
  | released (h : Released id start w w') : Vacated id start w w' .released
  | refused {cause : PagerError} (hcause : cause ≠ .shuttingDown) (h : Refused w w') :
      Vacated id start w w' (.refused cause)

/-- **A wakeup for a new object.** -/
theorem serveWakeup_allocate {o : Object γ} {ticket : Nat} (hw : w.InOrder)
    (hphase : w.phase = .running) (hpending : w.exchange.channel.pending = [.allocate o ticket])
    (hfresh : w.exchange.completions[ticket]? = some {}) :
    Ends (serveWakeup [controlToken]) w
      (fun outcome w' => outcome = none ∧
        ∃ a, Attended ticket a w w' ∧ w'.gates = w.gates ∧ Housed o w w' a)
      fun f w' => (∃ breach, f = .abort breach) ∧ w'.exchange.answerTo ticket = none := by
  have hbuilt : o.geometry.Built := by
    have hposted :=
      hw.posted (.allocate o ticket) (by rw [hpending]; exact List.mem_singleton.mpr rfl)
    exact hposted.1
  refine serveWakeup_concludes (P := fun a w' => w'.gates = w.gates ∧ Housed o w w' a) hw hphase
    hpending rfl hfresh (leads_bind (discreet_allocate o) fun _ _ => leads_pure _) fun htaking => ?_
  rw [ends_bind]
  refine ((allocate_ends htaking.filed htaking.owes hbuilt).and
    ((allocate_registers o).and (furnished_allocate o))).mono ?_ ?_
  · rintro start v ⟨⟨es, ha⟩, hinsert, hfurnished⟩
    exact ⟨⟨es, ha.toKept⟩, ha.toKept.inOrder htaking ha.filed ha.owes, hfurnished.turns,
      .placed hinsert⟩
  · rintro f v ⟨hfails, hobjects, hfurnished⟩ cause rfl
    rcases hfails with ⟨breach, hf, -⟩ | ⟨cause', es, -, ha⟩
    · cases hf
    · exact ⟨⟨es, ha.toKept⟩, ha.toKept.inOrder htaking ha.filed ha.owes, hfurnished.turns,
        .refused (hobjects cause rfl)⟩

/-- **A wakeup for a release.** -/
theorem serveWakeup_free (hcandid : Paging.Candid π) {id start ticket : Nat} (hw : w.InOrder)
    (hphase : w.phase = .running) (hpending : w.exchange.channel.pending = [.free id start ticket])
    (hfresh : w.exchange.completions[ticket]? = some {}) :
    Ends (serveWakeup [controlToken]) w
      (fun outcome w' => outcome = none ∧ ∃ a, Attended ticket a w w' ∧ Vacated id start w w' a)
      fun f w' => (∃ breach, f = .abort breach) ∧ w'.exchange.answerTo ticket = none := by
  refine serveWakeup_concludes (P := fun a w' => Vacated id start w w' a) hw hphase hpending rfl
    hfresh (leads_bind (discreet_free ..) fun _ _ => leads_pure _) fun htaking => ?_
  rw [ends_bind]
  refine ((free_ends htaking.filed htaking.owes).and (free_registers hcandid htaking)).mono ?_ ?_
  · rintro _ v ⟨⟨-, e, -, -, -, es, hf⟩, hreleased⟩
    exact ⟨⟨es, hf.toKept⟩, hf.toKept.inOrder htaking hf.filed hf.owes, .released hreleased⟩
  · rintro f v ⟨hfails, hrefused⟩ cause rfl
    rcases hfails with ⟨hf, -⟩ | ⟨hf, -⟩ | ⟨cause', es, -, hh⟩
    · cases hf
    · cases hf
    · obtain ⟨hcause, hsame⟩ := hrefused cause rfl
      exact ⟨⟨es, hh.toKept⟩, hh.toKept.inOrder htaking hh.filed hh.owes, .refused hcause hsame⟩

/-- Between two states no request was served. -/
structure Unasked (w w' : Worker π γ) : Prop where
  phase : w'.phase = w.phase
  objects : w'.objects = w.objects
  gates : w'.gates = w.gates
  exchange : w'.exchange = { w.exchange with
    channel := { w.exchange.channel with bell := w'.exchange.channel.bell }
    stats := w'.exchange.stats }

omit [Paging π] in
theorem Unasked.trans {v w' : Worker π γ} (h : Unasked w v) (h' : Unasked v w') :
    Unasked w w' where
  phase := h'.phase.trans h.phase
  objects := h'.objects.trans h.objects
  gates := h'.gates.trans h.gates
  exchange := by rw [h'.exchange, h.exchange]

theorem handleFaults_unasked : ∀ (addresses : List Nat) (w : Worker π γ), w.InOrder →
    Ends (handleFaults addresses) w (fun _ w' => w'.InOrder ∧ Unasked w w') fun _ _ => True
  | [], _, hw => ⟨hw, rfl, rfl, rfl, rfl⟩
  | address :: rest, w, hw => by
    unfold handleFaults
    rw [ends_bind]
    refine ((handleFault_ends hw.filed hw.owes hw.marks.le).and (still_handleFault address)).mono ?_
      fun _ _ _ => trivial
    rintro _ v ⟨⟨es, hv⟩, es', hstill⟩
    have hunasked : Unasked w v :=
      ⟨hv.phase, hv.objects, hstill.turns, by rw [hv.exchange]⟩
    refine (handleFaults_unasked rest v (hv.inOrder hw hv.filed hv.owes)).mono ?_
      fun _ _ _ => trivial
    exact fun _ w' hw' => ⟨hw'.1, hunasked.trans hw'.2⟩

theorem serveTokens_unasked : ∀ (tokens : List Nat) (w : Worker π γ), w.InOrder →
    w.exchange.channel.pending = [] →
    Ends (serveTokens (.ok ()) tokens) w (fun _ w' => w'.InOrder ∧ Unasked w w') fun _ _ => True
  | [], _, hw, _ => ⟨hw, rfl, rfl, rfl, rfl⟩
  | token :: rest, w, hw, hpending => by
    have hrest : ∀ v : Worker π γ, v.InOrder → Unasked w v →
        Ends (serveTokens (.ok ()) rest) v
          (fun _ w' => w'.InOrder ∧ Unasked w w') fun _ _ => True := by
      intro v hv hunasked
      have hnone : v.exchange.channel.pending = [] := by
        rw [hunasked.exchange]
        exact hpending
      exact (serveTokens_unasked rest v hv hnone).mono
        (fun _ w' hw' => ⟨hw'.1, hunasked.trans hw'.2⟩) fun _ _ _ => trivial
    unfold serveTokens
    rw [ends_ite]
    refine ⟨fun _ => ?_, fun _ => ?_⟩
    · unfold serveFaults
      simp only [ends_bind]
      refine ends_callPages fun result pages _ => ?_
      rw [ends_settle]
      refine ⟨fun reports _ => ?_, fun _ _ => trivial⟩
      refine (handleFaults_unasked reports.1 { w with
        pages, journal := w.journal ++ [.readFaults result] }
        ⟨hw.filed, hw.owes, hw.marks, hw.posted⟩).mono ?_ fun _ _ _ => trivial
      rintro _ v ⟨hv, hunasked⟩
      rw [ends_ite]
      exact ⟨fun _ => trivial,
        fun _ => hrest v hv ⟨hunasked.phase, hunasked.objects, hunasked.gates, hunasked.exchange⟩⟩
    rw [ends_ite]
    refine ⟨fun _ => ?_, fun _ => hrest w hw ⟨rfl, rfl, rfl, rfl⟩⟩
    unfold answerBell drainControl
    set u : Worker π γ := w.onExchange fun x => { x with channel := x.channel.answerBell.2 } with hu
    have hnone : u.exchange.channel.pending.length = 0 := congrArg List.length hpending
    dsimp only
    rw [ends_bind, ends_modify, ends_bind, ends_bind, ends_get, ← hu, hnone]
    exact hrest u ⟨hw.filed, hw.owes, hw.marks, hw.posted⟩ ⟨rfl, rfl, rfl, rfl⟩

/-- **A wakeup without a request leaves the registry, the gates and the exchange to themselves**,
unless the worker stops. -/
theorem serveWakeup_unasked (tokens : List Nat) (hw : w.InOrder)
    (hpending : w.exchange.channel.pending = []) :
    Ends (serveWakeup tokens) w (fun outcome w' => outcome = none → w'.InOrder ∧ Unasked w w')
      fun _ _ => True := by
  unfold serveWakeup
  rw [ends_bind, ends_attempt]
  refine (serveTokens_unasked tokens w hw hpending).mono ?_ ?_
  · intro _ v hv
    rw [ends_bind, ends_get, ends_ite]
    refine ⟨fun _ _ => hv, fun _ => ?_⟩
    rw [ends_bind]
    exact .of_forall (fun _ _ h => by cases h) fun _ _ => trivial
  · intro f v _
    refine ⟨fun cause _ => ?_, fun _ _ => trivial⟩
    rw [ends_bind]
    exact .of_forall (fun _ _ h => by cases h) fun _ _ => trivial

end Worker
end DemandPager
