/-
# What the worker answers

Until the worker tears everything down a step of anybody but a caller is quiet, or it
answers the request that is served (`Floor.Next.handled`). A quiet step answers nothing and
lets no object go but the one that is released on request. If that one was let go when the
request is answered, the answer is that it is gone; it was not let go before
(`Floor.Pledges`).

Key definitions: `Floor.Closing`, `Floor.Pledges`, `Floor.Quiet`, `Floor.Answers`.
Key theorems: `Floor.Next.handled`, `Floor.Next.pledges`, `Floor.Quiet.asks`,
`Floor.Answers.asks`.
-/
import DemandPager.Proofs.Requests

namespace DemandPager

variable {π γ : Type} {O : List (Interval (Object γ))}

/-- An entry in the journal fills a completion if it is an answer. -/
theorem foldl_complete (es : List JournalEntry) (completions : List (Completion Answer)) :
    es.foldl JournalEntry.complete completions =
      ((es.map Deed.entry).filterMap Deed.answer?).foldl
        (fun completions r => completions.modify r.1 (·.finish r.2)) completions := by
  induction es generalizing completions with
  | nil => rfl
  | cons e es ih =>
    rw [List.foldl_cons, ih]
    cases e <;> rfl

/-! ### Tasks in which no object is released -/

/-- A task in which no object is released. -/
def Task.isQuiet : Task γ → Bool
  | .serve (.free ..) | .close => false
  | _ => true

theorem Duty.serving_of_quiet {task : Task γ} {rest : Errand π γ Flow} (hquiet : task.isQuiet) :
    (Duty.busy task rest).serving = none := by
  cases task with
  | serve message =>
    cases message with
    | free => cases hquiet
    | allocate => cases rest <;> rfl
    | shutdown => cases rest <;> rfl
  | evict => rfl
  | close => rfl

theorem Task.Keeps.within {task : Task γ} {m₀ m : Moment γ} (h : task.Keeps O m₀ m)
    (hquiet : task.isQuiet) : Within O (fun _ => False) m₀ m := by
  cases task with
  | serve message =>
    cases message with
    | free => cases hquiet
    | allocate => exact h
    | shutdown => exact h
  | evict => exact h
  | close => cases hquiet

theorem Task.Done.keeps {task : Task γ} {m₀ m : Moment γ} {flow : Flow}
    (h : task.Done O m₀ flow m) (hquiet : task.isQuiet) : task.Keeps O m₀ m := by
  have hlull : Lull O m₀ m → Within O (fun _ => False) m₀ m := fun h =>
    ⟨h.lawful, fun s _ => h.course s, h.answers⟩
  cases task with
  | serve message =>
    cases message with
    | free => cases hquiet
    | allocate => exact hlull h.2
    | shutdown => exact hlull h.2
  | evict => exact hlull h.2
  | close => cases hquiet

/-! ### Completions -/

section Completions

variable {x x' : Exchange γ} {ticket : Nat} {a : Answer}

/-- An answer stays when another one is given. -/
theorem answerTo_of_some (h : x'.completions = x.completions.modify ticket (·.finish a)) {t : Nat}
    {b : Answer} (hb : x.answerTo t = some b) : x'.answerTo t = some b := by
  unfold Exchange.answerTo at hb ⊢
  obtain ⟨completion, hc, hb⟩ := Option.bind_eq_some_iff.mp hb
  rw [h, List.getElem?_modify, hc]
  show (if ticket = t then completion.finish a else completion).answer = some b
  split
  · unfold Completion.finish
    rw [hb]
    exact hb
  · exact hb

/-- The first answer to a ticket is the one that is given. -/
theorem answerTo_of_none (h : x'.completions = x.completions.modify ticket (·.finish a))
    (hlt : ticket < x.completions.length) (hnone : x.answerTo ticket = none) :
    x'.answerTo ticket = some a := by
  unfold Exchange.answerTo at hnone ⊢
  rw [List.getElem?_eq_getElem hlt] at hnone
  rw [h, List.getElem?_modify_eq, List.getElem?_eq_getElem hlt]
  show (x.completions[ticket].finish a).answer = some a
  unfold Completion.finish
  rw [show x.completions[ticket].answer = none from hnone]

end Completions

/-- A message is taken from the front of the queue. -/
theorem pending_of_next {channel channel' : Channel (Message γ)} {message : Message γ}
    (h : channel.next = some (message, channel')) :
    channel.pending = message :: channel'.pending := by
  unfold Channel.next at h
  split at h
  · cases h
  · rename_i hpending
    cases h
    exact hpending

/-! ### Steps that answer, and steps that do not -/

namespace Floor

/-- The worker tears everything down, or it is over. -/
def Closing (f : Floor π γ) : Prop :=
  match f.duty with
  | .busy .close _ | .ended => True
  | _ => False

variable [Paging π]

/-- An object that is being released on request was not let go before. -/
def Pledges (O : List (Interval (Object γ))) (f : Floor π γ) : Prop :=
  ∀ id start ticket rest, f.duty = .busy (.serve (.free id start ticket)) rest →
    ∃ m₀, .letGo ∉ course start m₀.deeds ∧ rest.Ensures (Within O (· = start) m₀)
      (fun _ m => Served start ticket m₀ m) (fun _ _ => True) f.moment

omit [Paging π] in
/-- The calls go on, none is in flight that was not, and no gate comes to life. -/
structure Undisturbed (f f' : Floor π γ) : Prop where
  stay : ∀ call ∈ f.calls, call ∈ f'.calls
  old : ∀ call ∈ f'.calls, call.inFlight → call ∈ f.calls
  dead : ∀ n, Dead n f.worker.gates → Dead n f'.worker.gates

omit [Paging π] in
/-- Nothing was answered, and no object was let go but the one that is released on request. -/
structure Quiet (f f' : Floor π γ) : Prop extends Undisturbed f f' where
  completions : f'.worker.exchange.completions = f.worker.exchange.completions
  asked : f'.asked.Sublist f.asked
  serving : ∀ r, f.duty.serving = some r → f'.duty.serving = some r
  letGo : ∀ start, .letGo ∈ course start (deedsOf f'.log) →
    .letGo ∈ course start (deedsOf f.log) ∨ ∃ ticket, f.duty.serving = some (start, ticket)

omit [Paging π] in
/-- A request was answered. If the object was let go the answer is that it is gone. -/
structure Answers (start ticket : Nat) (a : Answer) (f f' : Floor π γ) : Prop
    extends Undisturbed f f' where
  before : f.duty.serving = some (start, ticket)
  after : f'.duty.serving = none
  completions : f'.worker.exchange.completions =
    f.worker.exchange.completions.modify ticket (·.finish a)
  queued : f'.queued.Sublist f.queued
  letGo : ∀ s, s ≠ start → .letGo ∈ course s (deedsOf f'.log) → .letGo ∈ course s (deedsOf f.log)
  gone : .letGo ∈ course start (deedsOf f'.log) → a = .released

variable [Bytewise π] {f f' f₀ : Floor π γ}

omit [Paging π] [Bytewise π] in
theorem Undisturbed.of_calls (hcalls : f'.calls = f.calls)
    (hdead : ∀ n, Dead n f.worker.gates → Dead n f'.worker.gates) : Undisturbed f f' :=
  ⟨fun _ h => hcalls ▸ h, fun _ h _ => hcalls ▸ h, hdead⟩

omit [Paging π] [Bytewise π] in
/-- Nothing that matters was changed. -/
theorem Quiet.of_eq (h : Undisturbed f f')
    (hcompletions : f'.worker.exchange.completions = f.worker.exchange.completions)
    (hqueued : f'.queued = f.queued) (hduty : f'.duty.serving = f.duty.serving)
    (hlog : f'.log = f.log) : Quiet f f' where
  toUndisturbed := h
  completions := hcompletions
  asked := by
    unfold Floor.asked
    rw [hqueued, hduty]
  serving := fun r hr => hduty ▸ hr
  letGo := fun start hgo => .inl (hlog ▸ hgo)

omit [Paging π] [Bytewise π] in
/-- What a part does is what it enters in the journal. -/
structure Parted (es : List JournalEntry) (f f' : Floor π γ) : Prop extends Undisturbed f f' where
  deeds : deedsOf f'.log = deedsOf f.log ++ es.map .entry
  completions : f'.worker.exchange.completions =
    ((es.map Deed.entry).filterMap Deed.answer?).foldl
      (fun completions r => completions.modify r.1 (·.finish r.2)) f.worker.exchange.completions
  queued : f'.queued.Sublist f.queued

omit [Bytewise π] in
theorem Attends.parted {β : Type} {task : Task γ} {step : WorkerM π γ β}
    {next : β → Errand π γ Flow} {b : β} {w : Worker π γ} (hf : f.Attends O)
    (hduty : f.duty = .busy task (.part step next)) (hact : step f.worker = .ok b w) :
    ∃ es, w.journal = f.worker.journal ++ es ∧ Parted es f
      { f with worker := w, duty := .busy task (next b), log := f.log ++ f.news w } := by
  unfold Attends at hf
  rw [hduty] at hf
  obtain ⟨es, hes⟩ := (hf.1.1 f.worker).of_ok hact
  refine ⟨es, hes.journal, .of_calls rfl fun n hn => hes.gates ▸ hn,
    congrArg Moment.deeds (moment_noted hes.journal), hes.completions.trans (foldl_complete ..), ?_⟩
  show (w.exchange.channel.pending.filterMap Message.request?).Sublist f.queued
  rcases hes.pending with heq | heq
  · rw [heq]
    exact List.Sublist.refl _
  · rw [heq]
    exact List.nil_sublist _

omit [Paging π] [Bytewise π] in
/-- A part in which nothing is answered. -/
theorem Parted.quiet {es : List JournalEntry} (h : Parted es f f')
    (hanswers : (es.map Deed.entry).filterMap Deed.answer? = [])
    (hduty : f'.duty.serving = f.duty.serving)
    (hletGo : ∀ start, .letGo ∈ course start (deedsOf f'.log) →
      .letGo ∈ course start (deedsOf f.log) ∨ ∃ ticket, f.duty.serving = some (start, ticket)) :
    Quiet f f' where
  toUndisturbed := h.toUndisturbed
  completions := by
    rw [h.completions, hanswers]
    rfl
  asked := by
    unfold Floor.asked
    rw [hduty]
    exact (List.Sublist.refl _).append h.queued
  serving := fun r hr => hduty ▸ hr
  letGo := hletGo

omit [Bytewise π] in
/-- A part of a release on request: nothing is answered, or it is the last one and answers. -/
theorem Pledges.parted {β : Type} {id start ticket : Nat} {step : WorkerM π γ β}
    {next : β → Errand π γ Flow} {b : β} {w : Worker π γ} (hp : f.Pledges O) (hf : f.Attends O)
    (hduty : f.duty = .busy (.serve (.free id start ticket)) (.part step next))
    (hact : step f.worker = .ok b w) {f' : Floor π γ} (hf' : f' = { f with
      worker := w, duty := .busy (.serve (.free id start ticket)) (next b),
      log := f.log ++ f.news w }) :
    Quiet f f' ∨ ∃ a, Answers start ticket a f f' := by
  obtain ⟨es, hes, hparted⟩ := hf.parted hduty hact
  rw [← hf'] at hparted
  obtain ⟨m₀, hgo, hkeeps, hparts⟩ := hp id start ticket _ hduty
  obtain ⟨es', hes', hnext⟩ := (hparts f.worker.toSite).of_ok hact
  obtain rfl : es = es' := List.append_cancel_left (hes.symm.trans hes')
  have hmoment : f'.moment = ⟨w.toDesk, deedsOf (f.log ++ f.news w)⟩ := hf' ▸ rfl
  rw [← moment_noted hes, ← hmoment] at hnext
  have hserving : f.duty.serving = some (start, ticket) := by
    rw [hduty]
    rfl
  have hanswers : (deedsOf f'.log).filterMap Deed.answer? =
      m₀.deeds.filterMap Deed.answer? ++ (es.map Deed.entry).filterMap Deed.answer? := by
    rw [hparted.deeds, List.filterMap_append,
      show (deedsOf f.log).filterMap _ = _ from hkeeps.answers]
  -- Until the errand is over nothing is answered.
  have hquiet : f'.duty.serving = some (start, ticket) → Within O (· = start) m₀ f'.moment →
      Quiet f f' := by
    intro hduty' hwithin
    refine hparted.quiet ?_ (hduty'.trans hserving.symm) fun s hgo' => ?_
    · exact List.append_cancel_left
        (hanswers.symm.trans (hwithin.answers.trans (List.append_nil _).symm))
    · by_cases hs : s = start
      · exact .inr ⟨ticket, hs ▸ hserving⟩
      · refine .inl ?_
        have h := (hwithin.course s hs).trans (hkeeps.course s hs).symm
        exact h ▸ hgo'
  have hduty' : f'.duty = .busy (.serve (.free id start ticket)) (next b) := hf' ▸ rfl
  cases hrest : next b with
  | part =>
    rw [hrest] at hnext hduty'
    exact .inl (hquiet (hduty' ▸ rfl) hnext.1)
  | turn =>
    rw [hrest] at hnext hduty'
    exact .inl (hquiet (hduty' ▸ rfl) hnext.1)
  | ret flow =>
    rw [hrest] at hnext hduty'
    obtain ⟨hcourse, a, hanswer, hrefused⟩ := hnext
    refine .inr
      ⟨a, hparted.toUndisturbed, hserving, hduty' ▸ rfl, ?_, hparted.queued, fun s hs hgo' => ?_,
      fun hgo' => ?_⟩
    · rw [hparted.completions, List.append_cancel_left (hanswers.symm.trans hanswer)]
      rfl
    · have h := (hcourse s hs).trans (hkeeps.course s hs).symm
      exact h ▸ hgo'
    · by_contra hne
      exact hgo (hrefused hne hgo')

omit [Paging π] [Bytewise π] in
/-- No turn of a gate lets an object go. -/
theorem letGo_turned {deeds : List Deed} {s start number : Nat} {t : GateTurn}
    (h : .letGo ∈ course s (deeds ++ [.turn start number t])) : .letGo ∈ course s deeds := by
  obtain ⟨d, hd, hmark⟩ := mem_course.mp h
  rcases List.mem_append.mp hd with hd | hd
  · exact mem_course.mpr ⟨d, hd, hmark⟩
  · rw [List.mem_singleton.mp hd] at hmark
    cases t <;> cases hmark

omit [Paging π] [Bytewise π] in
/-- A release on request does not end with a turn of a gate. -/
theorem Pledges.turned {id start ticket s number : Nat} {t : GateTurn} {next : Errand π γ Flow}
    (hp : f.Pledges O)
    (hduty : f.duty = .busy (.serve (.free id start ticket)) (.turn s number t next)) :
    (Duty.busy (.serve (.free id start ticket)) next).serving = f.duty.serving := by
  obtain ⟨m₀, hgo, hkeeps, hnext⟩ := hp id start ticket _ hduty
  rw [hduty]
  cases next with
  | part => rfl
  | turn => rfl
  | ret flow =>
    obtain ⟨-, a, hanswer, -⟩ := hnext
    have hkept := hkeeps.answers
    rw [Moment.deeds_turned, List.filterMap_append, hkept] at hanswer
    cases List.append_cancel_left hanswer

omit [Bytewise π] in
/-- A part of a task in which no object is released. -/
theorem Attends.quiet {β : Type} {task : Task γ} {step : WorkerM π γ β} {next : β → Errand π γ Flow}
    {b : β} {w : Worker π γ} (hf : f.Attends O) (hquiet : task.isQuiet)
    (hduty : f.duty = .busy task (.part step next)) (hact : step f.worker = .ok b w)
    {f' : Floor π γ}
    (hf' : f' = { f with worker := w, duty := .busy task (next b), log := f.log ++ f.news w }) :
    Quiet f f' := by
  obtain ⟨es, hes, hparted⟩ := hf.parted hduty hact
  rw [← hf'] at hparted
  unfold Attends at hf
  rw [hduty] at hf
  obtain ⟨-, m₀, -, hkeeps, hparts⟩ := hf
  obtain ⟨es', hes', hnext⟩ := (hparts f.worker.toSite).of_ok hact
  obtain rfl : es = es' := List.append_cancel_left (hes.symm.trans hes')
  have hmoment : f'.moment = ⟨w.toDesk, deedsOf (f.log ++ f.news w)⟩ := hf' ▸ rfl
  rw [← moment_noted hes, ← hmoment] at hnext
  have hbefore := hkeeps.within hquiet
  have hafter := (hnext.now fun _ h => h.keeps hquiet).within hquiet
  have hserving : f'.duty.serving = f.duty.serving := by
    rw [hduty, hf', Duty.serving_of_quiet hquiet, Duty.serving_of_quiet hquiet]
  refine hparted.quiet ?_ hserving fun start hgo => .inl ?_
  · have hanswers :
      (deedsOf f'.log).filterMap Deed.answer? = (deedsOf f.log).filterMap Deed.answer? :=
      hafter.answers.trans hbefore.answers.symm
    rw [hparted.deeds, List.filterMap_append] at hanswers
    exact List.append_cancel_left (hanswers.trans (List.append_nil _).symm)
  · have h := (hafter.course start id).trans (hbefore.course start id).symm
    exact h ▸ hgo

omit [Paging π] [Bytewise π] in
/-- To ask for a stop is no request to release an object. -/
theorem Requested.quiet {site : Site π γ} (h : f.Requested site) :
    Quiet f { f with worker := { f.worker with toSite := site } } := by
  cases h with
  | @exchange x hcompletions hpending =>
    refine .of_eq (.of_calls rfl fun n hn => hn) hcompletions ?_ rfl rfl
    show x.channel.pending.filterMap _ = _
    rcases hpending with heq | heq
    · rw [heq]
      rfl
    · rw [heq, List.filterMap_append]
      exact List.append_nil _
  | retire => exact .of_eq (.of_calls rfl fun n hn => hn.retire _) rfl rfl rfl rfl

omit [Bytewise π] in
/-- A request that is taken is served. -/
theorem asked_took {message : Message γ} {channel : Channel (Message γ)} (hidle : f.duty = .idle)
    (hnext : f.worker.exchange.channel.next = some (message, channel))
    (hold : message.asksObject = false) : ((Duty.of (.serve message) : Duty π γ).serving.toList ++
      channel.pending.filterMap Message.request?).Sublist f.asked := by
  unfold asked queued
  rw [hidle, pending_of_next hnext]
  cases message with
  | allocate object ticket => cases hold
  | free id start ticket => exact List.Sublist.refl _
  | shutdown => exact List.Sublist.refl _

omit [Paging π] [Bytewise π] in
/-- A task goes on after a turn of a gate, unless it is the teardown. -/
theorem Pledges.serving_turned {task : Task γ} {s number : Nat} {t : GateTurn}
    {next : Errand π γ Flow} (hp : f.Pledges O)
    (hduty : f.duty = .busy task (.turn s number t next)) :
    (Duty.busy task next).serving = f.duty.serving := by
  have hquiet : task.isQuiet → (Duty.busy task next).serving = f.duty.serving := fun h => by
    rw [hduty, Duty.serving_of_quiet h, Duty.serving_of_quiet h]
  cases task with
  | serve message =>
    cases message with
    | free => exact hp.turned hduty
    | allocate => exact hquiet rfl
    | shutdown => exact hquiet rfl
  | evict => exact hquiet rfl
  | close =>
    rw [hduty]
    rfl

/-- **What a step does to the requests**, until the worker tears everything down. It is one
of a call, or nothing is answered, or the request is answered that is served. -/
theorem Next.handled (h : Next f f') (hf : f.Attends O) (hp : f.Pledges O) (hopen : ¬f'.Closing) :
    (∃ (c : Nat) (call : Call) (progress : Progress) (site : Site π γ) (events : List Event),
      f.calls[c]? = some call ∧ Call.Step c f.gone (f.held call.handle.gate) call.handle
        f.worker.toSite call.progress progress site events ∧
      f' = { f with
        worker := { f.worker with toSite := site }
        calls := f.calls.set c { call with progress }
        log := f.log ++ events }) ∨
    Quiet f f' ∨ ∃ start ticket a, Answers start ticket a f f' := by
  cases h with
  | @called h intent hh =>
    refine .inr (.inl (.of_eq ⟨fun call hcall => List.mem_append_left _ hcall, ?_, fun n hn => hn⟩
      rfl rfl rfl rfl))
    intro call hcall hflight
    rcases List.mem_append.mp hcall with hcall | hcall
    · exact hcall
    · rw [List.mem_singleton.mp hcall, Call.inFlight_begin] at hflight
      cases hflight
  | advanced hcall hstep =>
    exact .inl ⟨_, _, _, _, _, hcall, Call.step_of_advance hstep, rfl⟩
  | requested hsite => exact .inr (.inl hsite.quiet)
  | gaveUp => exact .inr (.inl (.of_eq (.of_calls rfl fun n hn => hn) rfl rfl rfl rfl))
  | @took message channel hidle hnext hold =>
    refine .inr
      (.inl ⟨.of_calls rfl fun n hn => hn, rfl, asked_took hidle hnext hold, fun r hr => ?_,
      fun start hgo => .inl hgo⟩)
    rw [hidle] at hr
    cases hr
  | evicts hidle =>
    refine .inr (.inl (.of_eq (.of_calls rfl fun n hn => hn) rfl rfl ?_ rfl))
    rw [hidle]
    rfl
  | fails hidle => exact absurd trivial hopen
  | @finished task flow hduty =>
    refine .inr (.inl (.of_eq (.of_calls rfl fun n hn => hn) rfl rfl ?_ rfl))
    rw [hduty]
    cases task with
    | serve message =>
      cases flow with
      | proceed => rfl
      | stop => exact absurd trivial hopen
    | evict =>
      cases flow with
      | proceed => rfl
      | stop => exact absurd trivial hopen
    | close => exact absurd trivial hopen
  | @parted β task step next b w hduty hact =>
    refine .inr ?_
    cases task with
    | serve message =>
      cases message with
      | free id start ticket =>
        rcases hp.parted hf hduty hact rfl with hquiet | ⟨a, ha⟩
        · exact .inl hquiet
        · exact .inr ⟨start, ticket, a, ha⟩
      | allocate => exact .inl (hf.quiet rfl hduty hact rfl)
      | shutdown => exact .inl (hf.quiet rfl hduty hact rfl)
    | evict => exact .inl (hf.quiet rfl hduty hact rfl)
    | close => exact absurd trivial hopen
  | @failed β task step next failure w hduty hact =>
    refine absurd ?_ hopen
    cases task <;> cases failure <;> trivial
  | @turned task start number t next hduty hfree =>
    have hserving := hp.serving_turned hduty
    refine .inr (.inl ⟨.of_calls rfl fun n hn => hn.turn _ _, rfl, ?_, fun r hr => hserving ▸ hr,
      fun s hgo => .inl ?_⟩)
    · show ((Duty.busy task next).serving.toList ++ f.queued).Sublist f.asked
      rw [hserving]
      exact List.Sublist.refl _
    · rw [deedsOf_append] at hgo
      exact letGo_turned hgo

/-- A release is begun on a request for an object that was not let go. -/
theorem Next.pledges (h : Next f f') (hf : f.Attends O) (hp : f.Pledges O)
    (htaken : ∀ r ∈ f.queued, f.duty = .idle → .letGo ∉ course r.1 (deedsOf f.log)) :
    f'.Pledges O := by
  cases h with
  | called => exact hp
  | @advanced c call progress site events hcall hstep =>
    intro id start ticket rest hduty
    obtain ⟨m₀, hgo, hrest⟩ := hp id start ticket rest hduty
    refine ⟨m₀, hgo, ?_⟩
    show rest.Ensures _ _ _ ⟨f.worker.toDesk, deedsOf (f.log ++ events)⟩
    rw [deedsOf_append, (Call.step_of_advance hstep).deeds, List.append_nil]
    exact hrest
  | requested => exact hp
  | gaveUp => exact hp
  | @took message channel hidle hnext hold =>
    intro id start ticket rest hduty
    cases hduty
    unfold Attends at hf
    rw [hidle] at hf
    have hmem : (start, ticket) ∈ f.queued := by
      unfold queued
      rw [pending_of_next hnext]
      exact List.mem_cons_self ..
    exact ⟨_, htaken _ hmem hidle, (Worker.serveErrand_ensures hf).mono (fun _ h => h)
      (fun _ _ h => h.2.2) fun _ _ _ => trivial⟩
  | evicts => exact fun _ _ _ _ hduty => by cases hduty
  | fails => exact fun _ _ _ _ hduty => by cases hduty
  | @finished task flow hduty =>
    intro id start ticket rest hduty'
    cases task <;> cases flow <;> cases hduty'
  | @parted β task step next b w hduty hact =>
    intro id start ticket rest hduty'
    cases hduty'
    obtain ⟨m₀, hgo, -, hparts⟩ := hp id start ticket _ hduty
    obtain ⟨es, hes, hnext⟩ := (hparts f.worker.toSite).of_ok hact
    rw [← moment_noted hes] at hnext
    exact ⟨m₀, hgo, hnext⟩
  | @failed β task step next failure w hduty hact =>
    intro id start ticket rest hduty'
    cases task <;> cases failure <;> cases hduty'
  | @turned task s number t next hduty hfree =>
    intro id start ticket rest hduty'
    cases hduty'
    obtain ⟨m₀, hgo, -, hnext⟩ := hp id start ticket _ hduty
    refine ⟨m₀, hgo, ?_⟩
    show next.Ensures _ _ _ ⟨f.worker.toDesk, deedsOf (f.log ++ [_])⟩
    rw [deedsOf_append]
    exact hnext

omit [Paging π] [Bytewise π] in
theorem Quiet.asks (h : Quiet f f') (hf : f.Asks) : f'.Asks where
  unanswered := fun r hr => by
    unfold Exchange.answerTo
    rw [h.completions]
    exact hf.unanswered r (h.asked.subset hr)
  awaited := fun r hr => by
    obtain ⟨call, hcall, hawaits⟩ := hf.awaited r (h.asked.subset hr)
    exact ⟨call, h.stay call hcall, hawaits⟩
  distinct := (h.asked.map Prod.snd).nodup hf.distinct

omit [Paging π] [Bytewise π] in
/-- A request that is answered has a ticket of its own, so the others stay unanswered. -/
theorem Answers.asks {start ticket : Nat} {a : Answer} (h : Answers start ticket a f f')
    (hf : f.Asks) : f'.Asks := by
  have hold : f.asked = (start, ticket) :: f.queued := by
    unfold asked
    rw [h.before]
    rfl
  have hnew : f'.asked = f'.queued := by
    unfold asked
    rw [h.after]
    rfl
  have hdistinct := hf.distinct
  rw [hold, List.map_cons, List.nodup_cons] at hdistinct
  have hmem : ∀ r ∈ f'.asked, r ∈ f.asked ∧ r.2 ≠ ticket := by
    intro r hr
    have hr' : r ∈ f.queued := h.queued.subset (hnew ▸ hr)
    refine ⟨hold ▸ List.mem_cons_of_mem _ hr', fun heq => hdistinct.1 ?_⟩
    exact List.mem_map.mpr ⟨r, hr', heq⟩
  refine ⟨fun r hr => ?_, fun r hr => ?_, ?_⟩
  · obtain ⟨hr', hne⟩ := hmem r hr
    unfold Exchange.answerTo
    rw [h.completions, List.length_modify, List.getElem?_modify_ne _ _ hne.symm]
    exact hf.unanswered r hr'
  · obtain ⟨call, hcall, hawaits⟩ := hf.awaited r (hmem r hr).1
    exact ⟨call, h.stay call hcall, hawaits⟩
  · rw [hnew]
    exact (h.queued.map Prod.snd).nodup hdistinct.2

end Floor
end DemandPager
