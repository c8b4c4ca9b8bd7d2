/-
# The teardown leaves nothing behind

Whatever the memory refuses, the teardown comes to its end, unless a callback breaks off.
Then the books, the index and the queue are empty and nothing is accepted any more. The
destructor of every object that was registered has run once. The memory of an object was
given back once, after its registration was taken back and its gate was retired, or its
registration could not be taken back and its memory is left. No access to it succeeds any
more, and every message that was queued was answered once (`Worker.shutdown_clears`).

Key definitions: `Deed.turnGates`, `Message.dismissal?`, `Worker.Cleared`.
Key theorems: `Errand.Tame.gates`, `Bars.barred`, `Worker.shutdown_clears`.
-/
import DemandPager.Proofs.Dismantling
import DemandPager.Proofs.Parts
import DemandPager.Proofs.Teardown

namespace DemandPager

variable {π γ α : Type}

/-- A course that ended in a release or a refusal. -/
theorem Legal.shape_of_ended {ms : List Milestone} (h : Legal ms)
    (hlast : ms.getLast? = some .released ∨ ms.getLast? = some .refused) :
    ∃ n, ms = tries n ++ [.begun, .letGo, .retired, .released] ∨
      ms = tries n ++ [.begun, .refused] := by
  obtain ⟨n, last, hmem, rfl, hnil⟩ := h.shape
  refine ⟨n, ?_⟩
  simp only [lastTry, List.mem_cons, List.not_mem_nil, or_false] at hmem
  rcases hmem with rfl | rfl | rfl | rfl | rfl | rfl
  · rcases hnil rfl with heq | heq
    all_goals
      rw [heq] at hlast
      simp at hlast
  · simp at hlast
  · exact .inr rfl
  · simp at hlast
  · simp at hlast
  · exact .inl rfl

/-! ### The gates after an errand -/

/-- The gates after a deed. -/
def Deed.turnGates (gates : List Gate) : Deed → List Gate
  | .entry _ => gates
  | .turn _ number t => gates.modify number t.apply

theorem foldl_turnGates_entries (es : List JournalEntry) (gates : List Gate) :
    (es.map Deed.entry).foldl Deed.turnGates gates = gates := by
  induction es with
  | nil => rfl
  | cons e es ih => exact ih

theorem getElem?_turnGates (d : Deed) (gates : List Gate) (number : Nat) :
    (d.turnGates gates)[number]? = gates[number]?.map fun g =>
      match d with
      | .turn _ n t => if n = number then t.apply g else g
      | .entry _ => g := by
  cases d with
  | entry => exact (Option.map_id_fun' .. ▸ rfl)
  | turn start n t => exact List.getElem?_modify ..

/-- What holds of a gate holds after deeds whose turns of it keep it. -/
theorem foldl_turnGates {P : Gate → Prop} {number : Nat} {deeds : List Deed}
    (hkeep : ∀ start t, .turn start number t ∈ deeds → ∀ g, P g → P (t.apply g)) :
    ∀ {gates : List Gate}, (∀ g ∈ gates[number]?, P g) →
      ∀ g ∈ (deeds.foldl Deed.turnGates gates)[number]?, P g := by
  induction deeds with
  | nil => exact fun hg => hg
  | cons d deeds ih =>
    intro gates hg
    refine ih (fun start t ht => hkeep start t (List.mem_cons_of_mem _ ht)) ?_
    intro g hmem
    rw [getElem?_turnGates] at hmem
    obtain ⟨g₀, hg₀, rfl⟩ := Option.map_eq_some_iff.mp hmem
    cases d with
    | entry => exact hg g₀ hg₀
    | turn start n t =>
      dsimp only
      split
      · rename_i heq
        exact hkeep start t (heq ▸ List.mem_cons_self ..) g₀ (hg g₀ hg₀)
      · exact hg g₀ hg₀

/-- **A barred gate lets nobody in, or nobody out with success.** -/
theorem Bars.barred {number : Nat} {deeds : List Deed} (h : Bars number deeds) (gates : List Gate) :
    ∀ g ∈ (deeds.foldl Deed.turnGates gates)[number]?, g.alive = false ∨ g.unmapping = true := by
  obtain ⟨before, after, start, t, rfl, ht⟩ := h
  rw [List.foldl_append, List.foldl_cons]
  rcases ht with rfl | ⟨rfl, hno⟩
  · intro g hg
    refine .inl (foldl_turnGates (P := fun g => g.alive = false) (fun _ t _ g hg => ?_) ?_ g hg)
    · cases t with
      | beginUnmap => exact hg
      | abortUnmap => exact hg
      | retire => rfl
    · intro g hg
      rw [getElem?_turnGates] at hg
      obtain ⟨g₀, -, rfl⟩ := Option.map_eq_some_iff.mp hg
      simp only [if_pos, GateTurn.apply, Gate.retire]
  · intro g hg
    refine .inr (foldl_turnGates (P := fun g => g.unmapping = true) (fun s t ht g hg => ?_) ?_ g hg)
    · cases t with
      | beginUnmap => rfl
      | abortUnmap => exact absurd ht (hno s)
      | retire => exact hg
    · intro g hg
      rw [getElem?_turnGates] at hg
      obtain ⟨g₀, -, rfl⟩ := Option.map_eq_some_iff.mp hg
      simp only [if_pos, GateTurn.apply, Gate.beginUnmap]

namespace Handle

variable {h : Handle} {g : Gate}

/-- No access passes a barred gate with success. -/
theorem readBuffer_barred (hg : g.alive = false ∨ g.unmapping = true) (region : Region)
    (offset len : Nat) (buffer : Bytes) :
    ∃ cause, h.readBuffer g region offset len buffer = .error cause := by
  unfold readBuffer Gate.enter Gate.leave
  cases h.permit region false offset len with
  | error cause => exact ⟨cause, rfl⟩
  | ok =>
    rcases hg with hg | hg
    · rw [hg]
      exact ⟨_, rfl⟩
    · rw [hg]
      cases g.alive <;> exact ⟨_, rfl⟩

theorem writeBuffer_barred (hg : g.alive = false ∨ g.unmapping = true) (region : Region)
    (offset : Nat) (bytes buffer : Bytes) :
    ∃ cause, (h.writeBuffer g region offset bytes buffer).1 = .error cause := by
  unfold writeBuffer Gate.enter Gate.leave
  cases h.permit region true offset bytes.length with
  | error cause => exact ⟨cause, rfl⟩
  | ok =>
    rcases hg with hg | hg
    · rw [hg]
      exact ⟨_, rfl⟩
    · rw [hg]
      cases g.alive <;> exact ⟨_, rfl⟩

end Handle

/-- The parts of a tame errand leave the gates to its turns. -/
theorem Errand.Tame.gates [Paging π] {p : Errand π γ α} (h : p.Tame) (w : Worker π γ) :
    Worker.Ends p.run w (fun _ w' => w'.gates = (p.trace w).foldl Deed.turnGates w.gates)
      (fun _ w' => w'.gates = (p.trace w).foldl Deed.turnGates w.gates) := by
  induction p generalizing w with
  | ret a => exact rfl
  | part step next ih =>
    have hstep := h.1 w
    unfold Worker.Leads Worker.Ends at hstep
    rw [Errand.run, Worker.ends_bind]
    unfold Worker.Ends
    cases hact : step w with
    | ok b v =>
      rw [hact] at hstep
      obtain ⟨es, hes⟩ := hstep
      have htrace : (part step next).trace w = es.map .entry ++ (next b).trace v := by
        simp only [trace, hact, hes.journal, List.drop_left]
      rw [htrace, List.foldl_append, foldl_turnGates_entries, ← hes.gates]
      exact ih b (h.2 b) v
    | error f v =>
      rw [hact] at hstep
      obtain ⟨es, hes⟩ := hstep
      have htrace : (part step next).trace w = es.map .entry := by
        simp only [trace, hact, hes.journal, List.drop_left]
      rw [htrace, foldl_turnGates_entries]
      exact hes.gates
  | turn start number t next ih =>
    rw [Errand.run, Worker.ends_bind, Worker.ends_changeGate]
    exact ih h (w.onSite (·.modifyGate number t.apply))

/-! ### Answers -/

/-- The answer to a message that comes too late, and the ticket it goes to. -/
def Message.dismissal? : Message γ → Option (Nat × Answer)
  | .allocate _ ticket => some (ticket, .refused .shuttingDown)
  | .free _ _ ticket => some (ticket, .released)
  | .shutdown => none

/-- The answers that are entered are those among the deeds. -/
theorem answers_entries (deeds : List Deed) :
    ((deeds.filterMap Deed.entered?).map Deed.entry).filterMap Deed.answer? =
      deeds.filterMap Deed.answer? := by
  induction deeds with
  | nil => rfl
  | cons d deeds ih =>
    cases d with
    | turn => exact ih
    | entry e =>
      rw [List.filterMap_cons_some (show (Deed.entry e).entered? = some e from rfl), List.map_cons,
        List.filterMap_cons, List.filterMap_cons, ih]

theorem Within.unanswering {O : List (Interval (Object γ))} {S : Nat → Prop} {m₀ : Moment γ}
    {desk : Desk γ} {new : List Deed} (h : Within O S m₀ ⟨desk, m₀.deeds ++ new⟩) :
    new.filterMap Deed.answer? = [] := by
  have hanswers := h.answers
  rw [List.filterMap_append] at hanswers
  exact List.append_right_eq_self.mp hanswers

/-- The completions after the given answers, one after the other. -/
def finishAll (completions : List (Completion Answer)) (answers : List (Nat × Answer)) :
    List (Completion Answer) :=
  answers.foldl (fun cs x => cs.modify x.1 (·.finish x.2)) completions

namespace Worker

variable [Paging π] {w w' : Worker π γ}

omit [Paging π] in
/-- Nothing was done yet. -/
theorem standing_first (hw : w.toDesk.Filed) : Standing w.objects.toList ⟨w.toDesk, []⟩ :=
  ⟨hw.objects, fun _ h => h, lawful_nil, handedOver_nil, fun _ _ => .inl rfl⟩

omit [Paging π] in
/-- Entries were made, and the answers among them are the given ones. -/
def Responds (w w' : Worker π γ) (answers : List (Nat × Answer)) : Prop :=
  ∃ es, w'.journal = w.journal ++ es ∧ (es.map Deed.entry).filterMap Deed.answer? = answers

omit [Paging π] in
theorem Responds.trans {w v w' : Worker π γ} {answers answers' : List (Nat × Answer)}
    (h : Responds w v answers) (h' : Responds v w' answers') :
    Responds w w' (answers ++ answers') := by
  obtain ⟨es, hes, hanswers⟩ := h
  obtain ⟨es', hes', hanswers'⟩ := h'
  refine ⟨es ++ es', by rw [hes', hes, List.append_assoc], ?_⟩
  rw [List.map_append, List.filterMap_append, hanswers, hanswers']

omit [Paging π] in
theorem Responds.of_trace {deeds : List Deed} (hjournal : w'.journal = w.journal ++
    deeds.filterMap Deed.entered?) : Responds w w' (deeds.filterMap Deed.answer?) :=
  ⟨_, hjournal, answers_entries deeds⟩

omit [Paging π] in
/-- Every message that comes too late gets its answer, in order. -/
theorem dismissAll_answers : ∀ (messages : List (Message γ)) (w : Worker π γ),
    Ends (dismissAll messages) w
      (fun _ w' => w'.toDesk = w.toDesk ∧ Responds w w' (messages.filterMap Message.dismissal?) ∧
        w'.exchange = { w.exchange with
          completions := finishAll w.exchange.completions (messages.filterMap Message.dismissal?) })
      (fun _ _ => False)
  | [], w => ⟨rfl, ⟨[], (List.append_nil _).symm, rfl⟩, rfl⟩
  | m :: rest, w => by
    have hreply : ∀ ticket a, Responds w { w with
        journal := w.journal ++ [.answer ticket a], exchange := w.exchange.finish ticket a }
        [(ticket, a)] := fun ticket a => ⟨_, rfl, rfl⟩
    unfold dismissAll
    rw [ends_bind]
    cases m with
    | allocate object ticket =>
      exact (dismissAll_answers rest _).mono
        (fun _ u hu => ⟨hu.1, (hreply ticket _).trans hu.2.1, hu.2.2⟩) fun _ _ h => h
    | free id start ticket =>
      exact (dismissAll_answers rest _).mono
        (fun _ u hu => ⟨hu.1, (hreply ticket _).trans hu.2.1, hu.2.2⟩) fun _ _ h => h
    | shutdown => exact dismissAll_answers rest w

/-- To release objects answers nothing. -/
theorem freeAll_responds (hw : w.toDesk.Filed) :
    Ends (freeAll w.objects.toList) w
      (fun _ w' => Responds w w' [] ∧ ∃ deeds, Standing w.objects.toList ⟨w'.toDesk, deeds⟩)
      (fun _ _ => True) := by
  have h := (freeAllErrand_ensures (π := π) w.objects.toList ⟨w.toDesk, []⟩
    ⟨lawful_nil, fun _ _ => rfl, rfl⟩ (standing_first hw)).ends (w := w) rfl
  rw [run_freeAllErrand] at h
  refine h.mono ?_ fun _ _ _ => trivial
  rintro _ v ⟨⟨hwithin, hstanding, -⟩, hjournal⟩
  refine ⟨?_, _, hstanding⟩
  exact hwithin.unanswering ▸ Responds.of_trace hjournal

/-- To give objects up answers nothing. -/
theorem abandonAll_responds {O : List (Interval (Object γ))} {m : Moment γ} (h : Standing O m) :
    Ends (abandonAll m.desk.objects.toList) w (fun _ w' => Responds w w' [])
      (fun _ _ => False) := by
  have hends := (abandonAllErrand_ensures (π := π) m.desk.objects.toList ⟨w.toDesk, m.deeds⟩
    h.sound.starts_ne h.known h.mapped ⟨h.lawful, fun _ _ => rfl, rfl⟩ h.handedOver).ends
      (w := w) rfl
  rw [run_abandonAllErrand] at hends
  refine hends.mono ?_ fun _ _ h => h.1
  rintro _ v ⟨⟨hwithin, -, -⟩, hjournal⟩
  exact hwithin.unanswering ▸ Responds.of_trace hjournal

/-- What the teardown does to the exchange, and which answers it gives. -/
structure Hushed (w w' : Worker π γ) : Prop where
  index : w'.exchange.index = .empty
  stopping : w'.exchange.stopping = true
  queue : w'.exchange.channel.pending = []
  closed : w'.exchange.channel.closed = true
  answers : Responds w w' (w.exchange.channel.pending.filterMap Message.dismissal?)
  completions : w'.exchange.completions =
    finishAll w.exchange.completions (w.exchange.channel.pending.filterMap Message.dismissal?)

theorem shutdown_hushes (hw : w.InOrder) : Ends shutdown w (fun _ w' => Hushed w w')
    (fun f w' => f = .abort .callback ∧ HookBreaks w w') := by
  unfold shutdown
  simp only [ends_bind, ends_modify, ends_get]
  set u : Worker π γ := { w with
    phase := .shuttingDown, exchange := { w.exchange with stopping := true } }
  have hfiled : u.toDesk.Filed := hw.filed.of_eq rfl rfl rfl
  refine ((freeAll_ends u.objects.toList u hfiled (hw.owes.of_eq rfl rfl rfl)).and
    (freeAll_responds hfiled)).mono ?_ ?_
  · rintro _ v ⟨⟨-, es, hv⟩, hvanswers, deeds, hstanding⟩
    refine ((abandonAll_ends v.objects.toList _).and (abandonAll_responds hstanding)).mono ?_
      fun _ _ h => h.1.elim
    rintro _ x ⟨⟨es', hx⟩, hxanswers⟩
    have hexchange : x.exchange = { w.exchange with
        stopping := true, stats := x.exchange.stats } := by
      rw [hx.exchange]
      exact hv.exchange
    have hpending : x.exchange.channel.pending = w.exchange.channel.pending := by rw [hexchange]
    refine (dismissAll_answers x.exchange.channel.pending _).mono ?_ fun _ _ h => h.elim
    rintro _ y ⟨-, hyanswers, hyexchange⟩
    rw [hpending] at hyanswers hyexchange
    refine ⟨congrArg (·.index) hyexchange, ?_, congrArg (·.channel.pending) hyexchange,
      congrArg (·.channel.closed) hyexchange, (hvanswers.trans hxanswers).trans hyanswers, ?_⟩
    · refine (congrArg (·.stopping) hyexchange).trans ?_
      show x.exchange.stopping = true
      rw [hexchange]
    · refine (congrArg (·.completions) hyexchange).trans ?_
      show finishAll x.exchange.completions _ = _
      rw [hexchange]
  · rintro f v ⟨hbreaks | ⟨-, hlost, -⟩, -⟩
    · exact hbreaks
    · exact absurd hlost (Nat.lt_irrefl 0)

/-! ### Everything was torn down -/

/-- Nothing is left: the books are empty, every object was let go, or refused to be, and
its destructor has run, and nobody is let in any more. -/
structure Cleared (w w' : Worker π γ) : Prop extends Hushed w w' where
  phase : w'.phase = .terminated
  objects : w'.objects = .empty
  ring : w'.ring.toList = []
  used : w'.used = 0
  journal : w'.journal =
    w.journal ++ ((shutdownErrand : Errand π γ Unit).trace w).filterMap Deed.entered?
  releases : ∀ e ∈ w.objects.toList, ∃ n,
    course e.start ((shutdownErrand : Errand π γ Unit).trace w) =
      tries n ++ [.begun, .letGo, .retired, .released] ∨
    course e.start ((shutdownErrand : Errand π γ Unit).trace w) = tries n ++ [.begun, .refused]
  others : ∀ start, (∀ e ∈ w.objects.toList, e.start ≠ start) →
    course start ((shutdownErrand : Errand π γ Unit).trace w) = []
  destructors : (((shutdownErrand : Errand π γ Unit).trace w).filterMap Deed.destructor?).Perm
    (farewells w.objects.toList)
  barred : ∀ e ∈ w.objects.toList,
    (w'.toSite.gate e.value.gate).alive = false ∨ (w'.toSite.gate e.value.gate).unmapping = true
  reads : ∀ e ∈ w.objects.toList, ∀ h : Handle, h.gate = e.value.gate →
    ∀ region offset len buffer, ∃ cause,
      h.readBuffer (w'.toSite.gate h.gate) region offset len buffer = .error cause
  writes : ∀ e ∈ w.objects.toList, ∀ h : Handle, h.gate = e.value.gate →
    ∀ region offset bytes buffer, ∃ cause,
      (h.writeBuffer (w'.toSite.gate h.gate) region offset bytes buffer).1 = .error cause

theorem shutdown_ends (hw : w.InOrder) : Ends shutdown w (fun _ w' => Cleared w w')
    (fun f w' => f = .abort .callback ∧ HookBreaks w w') := by
  have hdismantled := (shutdownErrand_ensures (π := π) (standing_first hw.filed)).ends (w := w) rfl
  have hgates := (tame_shutdownErrand (π := π) (γ := γ)).gates w
  rw [run_shutdownErrand] at hdismantled hgates
  refine (((shutdown_hushes hw).and hdismantled).and hgates).mono ?_ fun _ _ h => h.1.1
  rintro _ w' ⟨⟨hhushed, hgone, hjournal⟩, hgates⟩
  set deeds := (shutdownErrand : Errand π γ Unit).trace w
  have hbarred : ∀ e ∈ w.objects.toList, (w'.toSite.gate e.value.gate).alive = false ∨
      (w'.toSite.gate e.value.gate).unmapping = true := fun e he => by
    have hbars := (hgone.bars e he).barred w.gates
    rw [List.nil_append, ← hgates] at hbars
    unfold Site.gate
    rw [List.getD_eq_getElem?_getD]
    cases hg : w'.gates[e.value.gate]? with
    | none => exact .inl rfl
    | some g => exact hbars g hg
  refine ⟨hhushed, hgone.terminated, hgone.objects, ?_, hgone.used, hjournal, fun e he => ?_,
    hgone.course,
    hgone.destructors, hbarred, ?_, ?_⟩
  · rw [show w'.ring = _ from hgone.ring]
    rfl
  · exact (hgone.lawful.legal e.start).shape_of_ended (hgone.ended e he)
  · rintro e he h hgate region offset len buffer
    rw [hgate]
    exact Handle.readBuffer_barred (hbarred e he) ..
  · rintro e he h hgate region offset bytes buffer
    rw [hgate]
    exact Handle.writeBuffer_barred (hbarred e he) ..

/-- **The teardown leaves nothing behind**, whatever the memory refuses. It breaks off only
if a callback does. -/
theorem shutdown_clears {w : Worker π γ} (h : Reachable w) :
    (∃ w', shutdown w = .ok () w' ∧ Cleared w w') ∨
      (∃ w', shutdown w = .error (.abort .callback) w' ∧ HookBreaks w w') := by
  have hends := shutdown_ends h.inOrder
  unfold Ends at hends
  cases hact : shutdown w with
  | ok a w' =>
    rw [hact] at hends
    exact .inl ⟨w', rfl, hends⟩
  | error f w' =>
    rw [hact] at hends
    obtain ⟨rfl, hbreaks⟩ := hends
    exact .inr ⟨w', rfl, hbreaks⟩

/-- Two chunks are loaded, the next registrations will not be taken back, and a release is
queued before a request to stop. -/
def sampleStubborn : Worker ScriptedMemory Unit :=
  (sampleRun [0x10000010, 0x10000000]).onSite fun s => { s with
    pages := s.pages.failNext .unregister 2
    exchange :=
      { channel := { pending := [.free 1 0x10000000 0, .shutdown] }, completions := [{}] } }

/-- The release is refused twice and the memory is left. The queued one is answered. -/
theorem shutdown_clears_sample :
    ∃ w', shutdown sampleStubborn = .ok () w' ∧ Cleared sampleStubborn w' ∧
      course 0x10000000 ((shutdownErrand : Errand ScriptedMemory Unit Unit).trace sampleStubborn) =
        tries 1 ++ [.begun, .refused] ∧
      w'.exchange.answerTo 0 = some .released := by
  have hposted : sampleStubborn.toSite.Posted := by
    intro m hm
    rcases List.mem_cons.mp hm with rfl | hm
    · exact Nat.zero_lt_one
    · rw [List.mem_singleton.mp hm]
      trivial
  have hreach : Reachable sampleStubborn := .meanwhile sampleRun_full hposted
  have hending : ending shutdown sampleStubborn = none := by decide +kernel
  rcases shutdown_clears hreach with ⟨w', hok, hcleared⟩ | ⟨w', hbroke, -⟩
  · refine ⟨w', hok, hcleared, by decide +kernel, ?_⟩
    unfold Exchange.answerTo
    rw [hcleared.completions]
    rfl
  · unfold ending at hending
    rw [hbroke] at hending
    cases hending

end Worker
end DemandPager
