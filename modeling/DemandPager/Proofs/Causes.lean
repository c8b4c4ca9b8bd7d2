/-
# Why the serving stops

Serving stops with an error if a wait fails or is interrupted too often, if the doorbell
cannot be read, if a fault is not handled, if the memory refuses a call, or if there will be
no more reports of faults. Errors that the worker finds itself are fatal, and so is a callback
that gives up. Two kinds of error can leave the loop without being fatal: one that the memory
gave for an answer, and the one that says that the reports are over (`Worker.serve_stops`).
The latter is never fatal although it always ends the serving.

The chunks of all objects fit within the budget, so none is found too large by then; this is
kept through a run together with the order of the books (`Worker.Fit`).

Key definitions: `Request.Built`, `Worker.LastRefused`, `Worker.ReportsOver`, `Worker.StopsFor`,
`Worker.Fit`.
Key theorems: `Site.Posted.submitAll`, `Worker.handleFault_stops`, `Worker.eventLoop_stops`,
`Worker.serve_stops`.
-/
import DemandPager.Proofs.Conclusions
import DemandPager.Proofs.Outcomes

namespace DemandPager

variable {π γ : Type}

/-! ### What callers send -/

/-- A new object that is asked for was built. -/
def Request.Built : Request γ → Prop
  | .allocate d => d.geometry.Built
  | _ => True

/-- All new objects that callers ask for before the wait ends were built. -/
def Turn.Built (turn : Turn π γ) : Prop := ∀ r ∈ turn.requests, r.Built

theorem Message.Posted.mono {m : Message γ} {tickets tickets' : Nat} (h : m.Posted tickets)
    (hle : tickets ≤ tickets') : m.Posted tickets' := by
  cases m with
  | allocate object ticket => exact ⟨h.1, Nat.lt_of_lt_of_le h.2 hle⟩
  | free id start ticket => exact Nat.lt_of_lt_of_le h hle
  | shutdown => trivial

theorem Request.Built.posted {r : Request γ} (hr : r.Built) (gate ticket : Nat) :
    (r.message gate ticket).Posted (ticket + r.tickets) := by
  cases r with
  | allocate d => exact ⟨hr, Nat.lt_succ_self ticket⟩
  | free id start => exact Nat.lt_succ_self ticket
  | shutdown => trivial

namespace Site

/-- A request takes its tickets even if it is not accepted. -/
theorem length_completions_submit (s : Site π γ) (r : Request γ) :
    (s.submit r).2.exchange.completions.length = s.exchange.completions.length + r.tickets := by
  cases hclosed : s.exchange.channel.closed with
  | false => exact (submit_sent hclosed r).2.length_completions
  | true =>
    have hsend := Exchange.send_closed (x := s.exchange.openTicket.2) hclosed
    unfold Exchange.openTicket at hsend
    cases r with
    | allocate d =>
      simp only [submit, Exchange.openTicket, build, hsend]
      exact List.length_append
    | free id start =>
      simp only [submit, Exchange.requestFree, Exchange.openTicket, hsend]
      exact List.length_append
    | shutdown =>
      simp only [submit, Exchange.send_closed hclosed]
      rfl

/-- What callers send leaves the messages posted. -/
theorem Posted.submit {s : Site π γ} (h : s.Posted) {r : Request γ} (hr : r.Built) :
    (s.submit r).2.Posted := by
  intro m hm
  rw [length_completions_submit]
  have hqueued : m ∈ s.exchange.channel.pending ++
      [r.message s.gates.length s.exchange.completions.length] := by
    cases hclosed : s.exchange.channel.closed with
    | false =>
      rw [(submit_sent hclosed r).2.pending] at hm
      exact hm
    | true =>
      rw [(submit_closed hclosed r).2] at hm
      exact List.mem_append_left _ hm
  rcases List.mem_append.mp hqueued with hold | hnew
  · exact (h m hold).mono (Nat.le_add_right ..)
  · rw [List.mem_singleton.mp hnew]
    exact hr.posted ..

theorem Posted.submitAll (requests : List (Request γ)) :
    ∀ {s : Site π γ}, s.Posted → (∀ r ∈ requests, r.Built) → (s.submitAll requests).Posted := by
  induction requests with
  | nil => exact fun h _ => h
  | cons r rest ih =>
    intro s h hbuilt
    obtain ⟨hr, hrest⟩ := List.forall_mem_cons.mp hbuilt
    exact ih (h.submit hr) hrest

end Site

namespace Worker

variable {w w' : Worker π γ} {cause : PagerError}

/-! ### Causes -/

/-- The last call was refused with this cause. -/
def LastRefused (w : Worker π γ) (cause : PagerError) : Prop :=
  ∃ x, w.journal.getLast? = some x ∧ x.refusal? = some cause

/-- The memory said that there would be no more reports, and since then neither a wait began
nor a request was taken up. -/
def ReportsOver (w : Worker π γ) : Prop :=
  ∃ es es' addresses, w.journal = es ++ .readFaults (.ok (addresses, false)) :: es' ∧
    ∀ x ∈ es', x.isDealing = false ∧ x.isWait = false

/-- Why serving stopped with an error. -/
inductive StopsFor (w : Worker π γ) : PagerError → Prop
  | fatal {cause : PagerError} (h : cause.isFatal = true) : StopsFor w cause
  | refused {cause : PagerError} (h : w.LastRefused cause) : StopsFor w cause
  | over (h : w.ReportsOver) : StopsFor w (.unsupported "userfaultfd closed")

theorem Hindered.lastRefused (h : Hindered w (.error cause) w') : w'.LastRefused cause := by
  cases h with
  | refused hjournal hlast hx =>
    refine ⟨_, ?_, hx⟩
    rw [hjournal, List.getLast?_append, hlast]
    rfl

theorem Excused.stopsFor {e : Interval (Object γ)} {k : Nat} (h : Excused e k w (.error cause) w') :
    w'.StopsFor cause := by
  cases h with
  | hindered h => exact .refused h.lastRefused
  | gaveUp => exact .fatal rfl
  | full => exact .fatal rfl

/-! ### What a run keeps -/

/-- The worker is in order, and all chunks of its objects fit within the budget. -/
structure Fit (w : Worker π γ) : Prop extends InOrder w where
  sized : w.toDesk.Sized

variable [Paging π]

theorem Reachable.fit (h : Reachable w) : w.Fit := ⟨h.inOrder, h.sized⟩

omit [Paging π] in
/-- Others change the site. -/
theorem Fit.onSite (h : w.Fit) {f : Site π γ → Site π γ} (hposted : (f w.toSite).Posted) :
    (w.onSite f).Fit :=
  ⟨⟨h.filed, h.owes, h.marks, hposted⟩, h.sized⟩

theorem drainControl_fit (h : w.Fit) : Ends drainControl w (fun _ w' => w'.Fit)
    fun f _ => ∃ breach, f = .abort breach := by
  unfold drainControl
  rw [ends_bind, ends_get]
  refine ((serveMessages_ends _ w h.toInOrder).and
    (sized_lasting.serveMessages _ w h.toInOrder h.sized)).mono ?_ ?_
  · exact fun _ v hv => ⟨hv.1, hv.2⟩
  · rintro f v ⟨⟨breach, hf, -⟩, -⟩
    exact ⟨breach, hf⟩

omit [Paging π] in
/-- A doorbell that cannot be read is a fatal error. -/
theorem Fit.answered (h : w.Fit) (bell : Except IoCause Unit) :
    Ends (answerBell bell) w (fun _ w' => w'.Fit)
      fun f _ => ∀ cause, f = .error cause → cause.isFatal = true := by
  cases bell with
  | ok u => exact ⟨⟨h.filed, h.owes, h.marks, h.posted⟩, h.sized⟩
  | error why =>
    rintro cause ⟨⟩
    rfl

/-! ### Faults -/

theorem evictFor_refused {fill lost : Nat} (hw : w.toDesk.Filed) (ho : w.toDesk.Owes lost) :
    Ends (evictFor fill) w (fun _ _ => True)
      fun f w' => ∀ cause, f = .error cause → w'.LastRefused cause ∨ Defaults lost f := by
  unfold evictFor
  simp only [ends_bind, ends_get, ends_checked]
  refine ⟨fun needed _ => ?_, fun f hf cause hcause => ?_⟩
  · rw [ends_ite]
    refine ⟨fun _ => ?_, fun _ => trivial⟩
    refine (dropWhileCrowded_hindered fill _ w hw ho
      (Nat.le_of_eq (Ring.length_toList hw.ring))).mono (fun _ _ h => h) ?_
    rintro _ v hends cause rfl
    exact hends.imp_left (·.lastRefused)
  · rw [Word.exact_eq_error hf] at hcause
    cases hcause

/-- **A fault that is not handled ends in a fatal error**, or in one that the memory gave for an
answer. -/
theorem handleFault_stops {address : Nat} (h : w.Fit) : Ends (handleFault address) w
    (fun _ w' => w'.Fit) fun f w' => ∀ cause, f = .error cause → w'.StopsFor cause := by
  suffices hstops : Ends (handleFault address) w (fun _ _ => True)
      fun f w' => ∀ cause, f = .error cause → w'.StopsFor cause by
    refine ((handleFault_inOrder h.toInOrder).and hstops).exactly.mono ?_ fun _ _ hf => hf.2.2
    exact fun _ v hv => ⟨hv.2.1, sized_lasting.fault h.toInOrder h.sized hv.1⟩
  unfold handleFault
  simp only [ends_bind, ends_count, ends_get, ends_checked]
  refine ⟨fun site hsite => ?_, fun f hf cause hcause => ?_⟩
  · obtain ⟨e, he, -, -, hr, rfl⟩ := locateFault_eq_ok h.filed hsite
    set k := e.chunkNumber address
    rw [ends_ite]
    refine ⟨fun hlarge => absurd hlarge (Nat.not_lt.mpr (h.sized e he k)), fun _ => ?_⟩
    simp only [ends_bind, ends_checked, ends_set]
    refine ⟨fun scratch hgrow => ?_, fun f hf cause hcause => ?_⟩
    · obtain ⟨hscratch, hbytes⟩ := Buffer.growTo_size h.filed.scratch hgrow
      set grown : Worker π γ := { w with
        exchange := { w.exchange with stats := w.exchange.stats.record .fault }, scratch }
      have hfiled : grown.toDesk.Filed :=
        ⟨h.filed.objects, h.filed.built, h.filed.len, h.filed.ring, h.filed.chunks, h.filed.fits,
          hscratch⟩
      have howes : grown.toDesk.Owes 0 := h.owes.of_eq rfl rfl rfl
      refine ((evictFor_ends (w := grown) hfiled howes h.marks.le (h.sized e he k)).and
        (evictFor_refused (w := grown) hfiled howes)).mono ?_ ?_
      · rintro _ v ⟨⟨es, hv, hle, hlt⟩, -⟩
        have hmem : e ∈ v.objects.toList := by
          rw [hv.objects]
          exact he
        refine (loadChunk_excused hv.filed hv.owes hmem hr (hbytes.trans hv.scratch) hle hlt).mono
          (fun _ _ h => h) ?_
        rintro _ w' hexcused cause rfl
        exact (hexcused.resolve_right not_defaults_zero).stopsFor
      · intro f v hv cause hf
        exact .refused ((hv.2 cause hf).resolve_right not_defaults_zero)
    · rw [Buffer.growTo_error hf] at hcause
      cases hcause
  · rcases locateFault_eq_error h.filed hf with rfl | rfl
    · cases hcause
      exact .fatal rfl
    · cases hcause

theorem handleFaults_stops : ∀ (addresses : List Nat) (w : Worker π γ), w.Fit →
    Ends (handleFaults addresses) w (fun _ w' => w'.Fit)
      fun f w' => ∀ cause, f = .error cause → w'.StopsFor cause
  | [], _, h => h
  | address :: rest, w, h => by
    unfold handleFaults
    rw [ends_bind]
    exact (handleFault_stops h).mono (fun _ v hv => handleFaults_stops rest v hv) fun _ _ hf => hf

/-- The reports are taken and handled; if they are over, that is the error. -/
theorem serveFaults_stops (h : w.Fit) : Ends serveFaults w (fun _ w' => w'.Fit)
    fun f w' => ∀ cause, f = .error cause → w'.StopsFor cause := by
  unfold serveFaults
  simp only [ends_bind]
  refine ends_callPages fun result pages _ => ?_
  set u : Worker π γ := { w with pages, journal := w.journal ++ [.readFaults result] }
  have hu : u.Fit := ⟨⟨h.filed, h.owes, h.marks, h.posted⟩, h.sized⟩
  rw [ends_settle]
  refine ⟨fun reports hok => ?_, fun cause herr cause' hcause => ?_⟩
  · obtain ⟨addresses, isOpen⟩ := reports
    have hstill : Leads AtRest (handleFaults addresses) u := still_handleFaults addresses u
    refine ((handleFaults_stops addresses u hu).and hstill).mono ?_ fun _ _ hf => hf.1
    rintro _ v ⟨hv, es, hentries⟩
    cases isOpen with
    | true => exact hv
    | false =>
      rintro cause ⟨⟩
      refine .over ⟨w.journal, es, addresses, ?_, hentries.calls⟩
      rw [hentries.journal, List.append_assoc, List.singleton_append, hok]
  · cases hcause
    refine .refused ⟨_, List.getLast?_concat .., ?_⟩
    rw [herr]
    rfl

/-! ### The loop -/

theorem serveTokens_stops (bell : Except IoCause Unit) :
    ∀ (tokens : List Nat) (w : Worker π γ), w.Fit →
    Ends (serveTokens bell tokens) w (fun _ w' => w'.Fit)
      fun f w' => ∀ cause, f = .error cause → w'.StopsFor cause
  | [], _, h => h
  | token :: rest, w, h => by
    unfold serveTokens
    rw [ends_ite]
    refine ⟨fun _ => ?_, fun _ => ?_⟩
    · rw [ends_bind]
      exact (serveFaults_stops h).mono (fun _ v hv => serveTokens_stops bell rest v hv)
        fun _ _ hf => hf
    rw [ends_ite]
    refine ⟨fun _ => ?_, fun _ => serveTokens_stops bell rest w h⟩
    rw [ends_bind]
    refine (h.answered bell).mono (fun _ u hu => ?_) fun f v hf cause hcause =>
      .fatal (hf cause hcause)
    rw [ends_bind]
    refine (drainControl_fit hu).mono ?_ ?_
    · intro flow v hv
      cases flow with
      | stop => exact hv
      | proceed => exact serveTokens_stops bell rest v hv
    · rintro _ v ⟨breach, rfl⟩ cause hcause
      cases hcause

omit [Paging π] in
/-- To bear an interrupted wait changes nothing, and too many of them are a fatal error. -/
theorem bearInterrupt_ends {o : Options} {interrupts : Nat} :
    Ends (bearInterrupt o interrupts) w (fun _ w' => w' = w)
      fun f _ => ∀ cause, f = .error cause → cause.isFatal = true := by
  unfold bearInterrupt
  rw [ends_bind, ends_ensure]
  refine ⟨fun _ => ?_, fun _ cause hcause => by cases hcause⟩
  split
  · rintro cause ⟨⟩
    rfl
  · rfl

/-- **The loop stops for one of the known causes.** -/
theorem eventLoop_stops (o : Options) (script : List (Turn π γ)) :
    (∀ turn ∈ script, turn.Built) → ∀ (interrupts : Nat) (w : Worker π γ), w.Fit →
    Ends (eventLoop o script interrupts) w (fun _ _ => True)
      fun f w' => ∀ cause, f = .error cause → w'.StopsFor cause := by
  induction script with
  | nil =>
    intro _ interrupts w h
    unfold eventLoop
    rw [ends_bind, ends_get]
    split
    · rintro cause ⟨⟩
      exact .fatal rfl
    · trivial
  | cons turn rest ih =>
    intro hscript interrupts w h
    obtain ⟨hturn, hrest⟩ := List.forall_mem_cons.mp hscript
    unfold eventLoop
    rw [ends_bind, ends_get]
    split
    · rw [ends_bind, ends_note, ends_bind]
      show Ends _ (w.arrived o.pollTimeout turn) _ _
      have harrived : (w.arrived o.pollTimeout turn).Fit := by
        refine (h.onSite ?_).onSite ?_
        · exact h.posted
        · exact Site.Posted.submitAll _ h.posted hturn
      cases turn.outcome with
      | failed cause =>
        rintro cause' ⟨⟩
        exact .fatal rfl
      | interrupted =>
        rw [ends_bind]
        refine bearInterrupt_ends.mono ?_ fun f v hf cause hcause => .fatal (hf cause hcause)
        rintro n _ rfl
        exact ih hrest n _ harrived
      | timedOut =>
        rw [ends_bind]
        refine (drainControl_fit harrived).mono ?_ ?_
        · intro flow v hv
          cases flow with
          | stop => trivial
          | proceed => exact ih hrest 0 v hv
        · rintro _ v ⟨breach, rfl⟩ cause hcause
          cases hcause
      | ready tokens =>
        rw [ends_bind]
        exact (serveTokens_stops turn.bell tokens _ harrived).mono (fun _ v hv => ih hrest 0 v hv)
          fun _ _ hf => hf
    · trivial

/-! ### Serving and winding up -/

/-- The teardown has no error of its own. -/
theorem windUp_aborts (forgotten : Except PagerError Unit) (w : Worker π γ) :
    Ends (windUp forgotten) w (fun _ _ => True) fun f _ => ∃ breach, f = .abort breach := by
  unfold windUp
  rw [ends_bind, ends_note]
  unfold shutdown
  simp only [ends_bind, ends_modify, ends_get]
  refine (freeAll_aborts ..).mono ?_ fun _ _ hf => hf
  rintro _ u -
  refine (abandonAll_ends u.objects.toList _).mono ?_ fun _ _ hf => hf.elim
  rintro _ v -
  exact (dismissAll_answers v.exchange.channel.pending _).mono (fun _ _ _ => trivial)
    fun _ _ hf => hf.elim

/-- An error of the serving is that of the loop. -/
theorem serve_eq_error {o : Options} {script : List (Turn π γ)} {forgotten : Except PagerError Unit}
    (herr : serve o script forgotten w = .error (.error cause) w') :
    ∃ v, eventLoop o script 0 w = .error (.error cause) v := by
  suffices hends : Ends (serve o script forgotten) w (fun _ _ => True)
      fun f _ => ∀ cause, f = .error cause → ∃ v,
        eventLoop o script 0 w = .error (.error cause) v from
    hends.of_error herr cause rfl
  have hwindUp : ∀ (outcome : Except PagerError Unit) (v : Worker π γ),
      (∀ cause, outcome = .error cause → eventLoop o script 0 w = .error (.error cause) v) →
      Ends (windUp forgotten >>= fun _ => settle outcome) v (fun _ _ => True)
        fun f _ => ∀ cause, f = .error cause →
          ∃ v, eventLoop o script 0 w = .error (.error cause) v := by
    intro outcome v hloop
    rw [ends_bind]
    refine (windUp_aborts forgotten v).mono (fun _ u _ => ?_) ?_
    · rw [ends_settle]
      refine ⟨fun _ _ => trivial, ?_⟩
      rintro cause hcause _ ⟨⟩
      exact ⟨v, hloop cause hcause⟩
    · rintro _ u ⟨breach, rfl⟩ cause hcause
      cases hcause
  have hloop : Ends (eventLoop o script 0) w (fun _ _ => True) fun _ _ => True :=
    .of_forall (fun _ _ => trivial) fun _ _ => trivial
  unfold serve
  rw [ends_bind, ends_attempt]
  refine hloop.exactly.mono (fun _ v _ => hwindUp _ v fun cause h => by cases h) ?_
  rintro f v ⟨hact, -⟩
  refine ⟨?_, ?_⟩
  · rintro cause rfl
    refine hwindUp _ v ?_
    rintro cause' ⟨⟩
    exact hact
  · rintro breach rfl cause hcause
    cases hcause

/-- The worker after it has begun to wait and has taken these reports. -/
def reported (w : Worker π γ) (timeout : Nat) (turn : Turn π γ) (pages : π) (addresses : List Nat)
    (isOpen : Bool) : Worker π γ :=
  { w.arrived timeout turn with
    pages
    journal := (w.arrived timeout turn).journal ++ [.readFaults (.ok (addresses, isOpen))] }

/-- If the reports are over, the serving ends with an error once the last ones were handled. -/
theorem serve_over {o : Options} {turn : Turn π γ} {rest : List (Turn π γ)}
    {tokens addresses : List Nat}
    {forgotten : Except PagerError Unit} {pages : π} {u : Worker π γ} (hphase : w.phase = .running)
    (houtcome : turn.outcome = .ready (faultToken :: tokens))
    (hread : Called Paging.readFaults (w.arrived o.pollTimeout turn).pages
      (.ok (addresses, false)) pages)
    (hfaults : handleFaults addresses
      (w.reported o.pollTimeout turn pages addresses false) = .ok () u) :
    Ends (serve o (turn :: rest) forgotten) w (fun _ _ => False) fun f _ =>
      f = .error (.unsupported "userfaultfd closed") ∨ ∃ breach, f = .abort breach := by
  have hserveFaults : Ends serveFaults (w.arrived o.pollTimeout turn) (fun _ _ => False)
      fun f v => f = .error (.unsupported "userfaultfd closed") ∧ v = u := by
    unfold serveFaults
    rw [ends_bind]
    refine ends_callPages fun result pages' hcalled => ?_
    obtain ⟨rfl, rfl⟩ := hread.unique hcalled
    rw [ends_bind, ends_settle_ok, ends_bind]
    exact ends_of_ok hfaults ⟨rfl, rfl⟩
  have hloop : Ends (eventLoop o (turn :: rest) 0) w (fun _ _ => False)
      fun f v => f = .error (.unsupported "userfaultfd closed") ∧ v = u := by
    unfold eventLoop
    rw [ends_bind, ends_get, if_pos hphase, ends_bind, ends_note, ends_bind]
    show Ends _ (w.arrived o.pollTimeout turn) _ _
    simp only [houtcome, ends_bind]
    unfold serveTokens
    rw [if_pos rfl, ends_bind]
    exact hserveFaults.mono (fun _ _ h => h.elim) fun _ _ h => h
  unfold serve
  rw [ends_bind, ends_attempt]
  refine hloop.mono (fun _ _ h => h.elim) ?_
  rintro _ v ⟨rfl, -⟩
  refine ⟨fun cause hcause => ?_, fun breach h => by cases h⟩
  cases hcause
  rw [ends_bind]
  refine (windUp_aborts forgotten v).mono (fun _ v _ => ?_) fun _ _ h => .inr h
  exact .inl rfl

/-- **Why the serving stops.** Whatever the waits bring and callers send, an error that ends the
serving is fatal, or it is the one that the memory gave for an answer to the last call, or the
memory said that the reports are over. In the last case the error is never fatal: if a worker in
any state that is reached takes the last reports and handles them, it stops with that error,
unless the teardown breaks off. -/
theorem serve_stops (h : Reachable w) (o : Options) (forgotten : Except PagerError Unit) :
    (∀ script : List (Turn π γ), (∀ turn ∈ script, turn.Built) → ∀ cause w',
      serve o script forgotten w = .error (.error cause) w' →
        ∃ v, eventLoop o script 0 w = .error (.error cause) v ∧ v.StopsFor cause) ∧
    ∀ (turn : Turn π γ) (rest : List (Turn π γ)) (tokens addresses : List Nat) (pages : π)
      (u : Worker π γ), w.phase = .running → turn.outcome = .ready (faultToken :: tokens) →
      Called Paging.readFaults (w.arrived o.pollTimeout turn).pages (.ok (addresses, false)) pages →
      handleFaults addresses (w.reported o.pollTimeout turn pages addresses false) = .ok () u →
        ∃ f w', serve o (turn :: rest) forgotten w = .error f w' ∧
          ((∃ breach, f = .abort breach) ∨
            ∃ cause, f = .error cause ∧ cause = .unsupported "userfaultfd closed" ∧
              cause.isFatal = false) := by
  refine ⟨fun script hscript cause w' herr => ?_, ?_⟩
  · obtain ⟨v, hloop⟩ := serve_eq_error herr
    exact ⟨v, hloop, (eventLoop_stops o script hscript 0 w h.fit).of_error hloop cause rfl⟩
  · intro turn rest tokens addresses pages u hphase houtcome hread hfaults
    have hends : Ends (serve o (turn :: rest) forgotten) w (fun _ _ => False) fun f _ =>
        f = .error (.unsupported "userfaultfd closed") ∨ ∃ breach, f = .abort breach :=
      serve_over hphase houtcome hread hfaults
    cases hact : serve o (turn :: rest) forgotten w with
    | ok a w' => exact (hends.of_ok hact).elim
    | error f w' =>
      refine ⟨f, w', rfl, ?_⟩
      rcases hends.of_error hact with rfl | hbreach
      · exact .inr ⟨_, rfl, rfl, rfl⟩
      · exact .inl hbreach

/-- A worker with one chunk, whose memory reports an access to a second one and nothing after
it. -/
def sampleLast : Worker ScriptedMemory Unit :=
  (sampleRun [0x10000000]).onSite fun s =>
    { s with pages := { s.pages with faults := [0x10000010], isOpen := false } }

/-- The worker stops with an error that is not fatal. -/
theorem serve_stops_sample :
    (∃ v, eventLoop {} [{ outcome := .ready [faultToken] }] 0 sampleLast =
      .error (.error (.unsupported "userfaultfd closed")) v ∧
      v.StopsFor (.unsupported "userfaultfd closed")) ∧
    (PagerError.unsupported "userfaultfd closed").isFatal = false := by
  have hreach : Reachable sampleLast := by
    refine .meanwhile (sampleRun_fault sampleRun_nil (by decide +kernel)) fun m hm => ?_
    have hnone : (sampleRun [0x10000000]).exchange.channel.pending.isEmpty = true := by
      decide +kernel
    rw [List.isEmpty_iff.mp hnone] at hm
    cases hm
  have hbuilt : ∀ turn ∈ ([{ outcome := .ready [faultToken] }] : List (Turn ScriptedMemory Unit)),
      turn.Built := by
    intro turn hturn r hr
    rw [List.mem_singleton.mp hturn] at hr
    cases hr
  have hending : ending (serve {} [{ outcome := .ready [faultToken] }] (.ok ())) sampleLast =
      some (.error (.unsupported "userfaultfd closed")) := by decide +kernel
  exact ⟨(serve_stops hreach {} (.ok ())).1 _ hbuilt _ _ (eq_error_of_ending hending), rfl⟩

end Worker

end DemandPager
