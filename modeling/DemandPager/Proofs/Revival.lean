/-
# Objects that come back to life

A release that is refused revives the gate of its object, after the answer has come back
to the caller. Until the worker tears everything down this is never too late: once an
object was let go, no release of it is in flight but the one whose request is served or
was answered with success (`Floor.Spared`), so its gate is not alive.

The teardown tries again what was refused, and then a caller may be late: it revives the
gate of an object whose memory was given back (`Floor.revival_is_late`). Accesses begin
again then, but the gate says that the memory is being unmapped, and none succeeds.

Key definitions: `Floor.Spared`.
Key theorems: `Floor.Quiet.spared`, `Floor.Answers.spared`, `Floor.Spared.advanced`,
`Floor.Reaches.spared`, `Floor.revival_is_late`.
-/
import DemandPager.Proofs.Answers
import DemandPager.Proofs.Overlap

namespace DemandPager

variable {π γ : Type} {O : List (Interval (Object γ))}

/-! ### Objects that were let go -/

namespace Floor

variable [Paging π] [Bytewise π] {f f' f₀ : Floor π γ}

omit [Paging π] [Bytewise π] in
/-- The gate of an object that was let go is not alive, and no release in flight will ever
revive it: its request is served, or the answer is that the object is gone. -/
def Spared (O : List (Interval (Object γ))) (f : Floor π γ) : Prop :=
  ∀ e ∈ O, .letGo ∈ course e.start (deedsOf f.log) → Dead e.value.gate f.worker.gates ∧
    ∀ call ∈ f.calls, call.inFlight → call.handle.gate = e.value.gate →
      ∃ ticket indexed, call.progress = .waiting ticket indexed ∧
        (f.worker.exchange.answerTo ticket = some .released ∨
          f.worker.exchange.answerTo ticket = none ∧ f.duty.serving = some (e.start, ticket))

omit [Paging π] [Bytewise π] in
/-- Calls are about the objects; each object has a place and a gate of its own. -/
structure Sorted (O : List (Interval (Object γ))) (f : Floor π γ) : Prop where
  starts : ∀ e ∈ O, ∀ e' ∈ O, e.start = e'.start → e = e'
  known : ∀ call ∈ f.calls, ∃ e ∈ O, e.start = call.handle.start ∧ e.value.gate = call.handle.gate

theorem Reaches.sorted (h : Reaches f₀ f) (h₀ : f₀.Opens) : f.Sorted f₀.worker.objects.toList :=
  ⟨fun _ he _ he' heq => h₀.sound.eq_of_start he he' heq, fun _ hcall => h.object h₀ hcall⟩

section Served

variable (ho : f.Sorted O) (halone : f.Alone) (hasks : f.Asks) {e : Interval (Object γ)}
  (he : e ∈ O)
  {ticket : Nat} (hserving : f.duty.serving = some (e.start, ticket))

omit [Paging π] [Bytewise π] in
include hserving in
theorem mem_asked : (e.start, ticket) ∈ f.asked := by
  unfold asked
  rw [hserving]
  exact List.mem_append_left _ (List.mem_singleton_self _)

omit [Paging π] [Bytewise π] in
include ho halone hasks he hserving in
/-- While a request is served there is no other release of the object in flight. -/
theorem in_flight_of_serving : Dead e.value.gate f.worker.gates ∧
    ∀ call ∈ f.calls, call.inFlight → call.handle.gate = e.value.gate →
      ∃ indexed, call.progress = .waiting ticket indexed := by
  obtain ⟨call₀, hcall₀, hstart, indexed, hwaits⟩ := hasks.awaited _ (mem_asked hserving)
  obtain ⟨e', he', hstart', hgate⟩ := ho.known call₀ hcall₀
  obtain rfl := ho.starts e' he' e he (hstart'.trans hstart)
  obtain ⟨c₀, hc₀⟩ := List.getElem?_of_mem hcall₀
  have hflight₀ : call₀.inFlight := by
    unfold Call.inFlight
    rw [hwaits]
  refine ⟨hgate ▸ halone.dead c₀ call₀ hc₀ hflight₀, fun call hcall hflight hsame => ?_⟩
  obtain ⟨c, hc⟩ := List.getElem?_of_mem hcall
  obtain rfl := halone.single c c₀ call call₀ hc hc₀ hflight hflight₀ (hsame.trans hgate)
  rw [hc₀] at hc
  cases hc
  exact ⟨indexed, hwaits⟩

end Served

omit [Paging π] [Bytewise π] in
theorem Quiet.spared (h : Quiet f f') (ho : f.Sorted O) (halone : f.Alone) (hasks : f.Asks)
    (hf : f.Spared O) : f'.Spared O := by
  intro e he hgo
  have hsame :
    ∀ ticket, f'.worker.exchange.answerTo ticket = f.worker.exchange.answerTo ticket := by
    intro ticket
    unfold Exchange.answerTo
    rw [h.completions]
  rcases h.letGo e.start hgo with hgo | ⟨ticket, hserving⟩
  · obtain ⟨hdead, hcalls⟩ := hf e he hgo
    refine ⟨h.dead _ hdead, fun call hcall hflight hgate => ?_⟩
    obtain ⟨ticket, indexed, hwaits, hanswer⟩ :=
      hcalls call (h.old call hcall hflight) hflight hgate
    rw [← hsame] at hanswer
    exact ⟨ticket, indexed, hwaits, hanswer.imp_right fun hnone => ⟨hnone.1, h.serving _ hnone.2⟩⟩
  · obtain ⟨hdead, honly⟩ := in_flight_of_serving ho halone hasks he hserving
    refine ⟨h.dead _ hdead, fun call hcall hflight hgate => ?_⟩
    obtain ⟨indexed, hwaits⟩ := honly call (h.old call hcall hflight) hflight hgate
    refine ⟨ticket, indexed, hwaits, .inr ⟨?_, h.serving _ hserving⟩⟩
    rw [hsame]
    exact (hasks.unanswered _ (mem_asked hserving)).2

omit [Paging π] [Bytewise π] in
theorem Answers.spared {start ticket : Nat} {a : Answer} (h : Answers start ticket a f f')
    (ho : f.Sorted O) (halone : f.Alone) (hasks : f.Asks) (hf : f.Spared O) : f'.Spared O := by
  intro e he hgo
  by_cases hstart : e.start = start
  · subst hstart
    obtain ⟨hdead, honly⟩ := in_flight_of_serving ho halone hasks he h.before
    refine ⟨h.dead _ hdead, fun call hcall hflight hgate => ?_⟩
    obtain ⟨indexed, hwaits⟩ := honly call (h.old call hcall hflight) hflight hgate
    refine ⟨ticket, indexed, hwaits, .inl ?_⟩
    obtain ⟨hlt, hnone⟩ := hasks.unanswered _ (mem_asked h.before)
    rw [← h.gone hgo]
    exact answerTo_of_none h.completions hlt hnone
  · obtain ⟨hdead, hcalls⟩ := hf e he (h.letGo _ hstart hgo)
    refine ⟨h.dead _ hdead, fun call hcall hflight hgate => ?_⟩
    obtain ⟨t, indexed, hwaits, hreleased | ⟨-, hserving⟩⟩ :=
      hcalls call (h.old call hcall hflight) hflight hgate
    · exact ⟨t, indexed, hwaits, .inl (answerTo_of_some h.completions hreleased)⟩
    · rw [h.before] at hserving
      cases hserving
      exact absurd rfl hstart

omit [Paging π] in
/-- A call revives no gate of an object that was let go. -/
theorem Spared.advanced {c : Nat} {call : Call} {progress : Progress} {site : Site π γ}
    {events : List Event} (hf : f.Spared O) (hasks : f.Asks) (hcall : f.calls[c]? = some call)
    (hstep : Call.Step c f.gone (f.held call.handle.gate) call.handle f.worker.toSite call.progress
      progress site events)
    (hf' : f' = { f with
      worker := { f.worker with toSite := site }
      calls := f.calls.set c { call with progress }
      log := f.log ++ events }) : f'.Spared O := by
  intro e he hgo
  have hdeeds : deedsOf f'.log = deedsOf f.log := by
    rw [hf', deedsOf_append, hstep.deeds, List.append_nil]
  obtain ⟨hdead, hcalls⟩ := hf e he (hdeeds ▸ hgo)
  -- The call itself goes out of flight if it is a release of the object.
  have hout : call.handle.gate = e.value.gate → call.inFlight →
      (⟨call.handle, progress⟩ : Call).inFlight = false ∧
        ∀ n, .revived n e.value.gate ∉ events := by
    intro hgate hflight
    obtain ⟨ticket, indexed, hwaits, hanswer⟩ :=
      hcalls call (List.mem_of_getElem? hcall) hflight hgate
    rw [hwaits] at hstep
    cases hstep with
    | settles => exact ⟨rfl, fun _ => List.not_mem_nil⟩
    | isRefused ha =>
      rcases hanswer with hreleased | ⟨hnone, -⟩
      · rw [hreleased] at ha
        cases ha
      · rw [hnone] at ha
        cases ha
  have hdead' : Dead e.value.gate f'.worker.gates := by
    have hgates : f'.worker.gates = site.gates := hf' ▸ rfl
    rw [hgates]
    refine hstep.dead (fun n hmem => ?_) hdead
    obtain ⟨hgate, hflight, -⟩ := hstep.revived_mem hmem
    exact (hout hgate hflight).2 n hmem
  have hset : f'.calls = f.calls.set c ⟨call.handle, progress⟩ := hf' ▸ rfl
  refine ⟨hdead', fun other hother hflight hgate => ?_⟩
  rw [hset] at hother
  rcases List.mem_or_eq_of_mem_set hother with hother | rfl
  · obtain ⟨ticket, indexed, hwaits, hanswer⟩ := hcalls other hother hflight hgate
    have hkept : ticket < f.worker.exchange.completions.length →
        f'.worker.exchange.answerTo ticket = f.worker.exchange.answerTo ticket := by
      intro hlt
      have hexchange : f'.worker.exchange = site.exchange := hf' ▸ rfl
      rw [hexchange]
      exact hstep.submits.answerTo hlt
    refine ⟨ticket, indexed, hwaits, ?_⟩
    rcases hanswer with hreleased | ⟨hnone, hserving⟩
    · have hlt : ticket < f.worker.exchange.completions.length := by
        unfold Exchange.answerTo at hreleased
        obtain ⟨completion, hc, -⟩ := Option.bind_eq_some_iff.mp hreleased
        exact (List.getElem?_eq_some_iff.mp hc).1
      exact .inl ((hkept hlt).trans hreleased)
    · have hlt := (hasks.unanswered _ (mem_asked hserving)).1
      exact .inr ⟨(hkept hlt).trans hnone, hf' ▸ hserving⟩
  · rcases hstep.inFlight hflight with hbefore | ⟨halive, -⟩
    · rw [(hout hgate hbefore).1] at hflight
      cases hflight
    · have hgate' : call.handle.gate = e.value.gate := hgate
      rw [hgate', hdead.gate] at halive
      cases halive

/-! ### Until the teardown -/

/-- There is no way back from the teardown. -/
theorem Next.closing (h : Next f f') (hf : f.Closing) : f'.Closing := by
  have hbusy : f.duty ≠ .idle := by
    intro hidle
    unfold Closing at hf
    rw [hidle] at hf
    exact hf
  have htask : ∀ {task : Task γ} {rest : Errand π γ Flow}, f.duty = .busy task rest →
    task = .close := by
    intro task rest hduty
    unfold Closing at hf
    rw [hduty] at hf
    cases task with
    | close => rfl
    | _ => exact hf.elim
  cases h with
  | called => exact hf
  | advanced => exact hf
  | requested => exact hf
  | gaveUp => exact hf
  | took hidle => exact absurd hidle hbusy
  | evicts hidle => exact absurd hidle hbusy
  | fails hidle => exact absurd hidle hbusy
  | finished hduty =>
    cases htask hduty
    trivial
  | parted hduty =>
    cases htask hduty
    trivial
  | failed hduty =>
    cases htask hduty
    trivial
  | turned hduty =>
    cases htask hduty
    trivial

/-- **Until the worker tears everything down, no release in flight revives an object that
was let go.** -/
theorem Reaches.spared (h : Reaches f₀ f) (h₀ : f₀.Opens) (hqueue : f₀.queued = []) :
    f.Closing ∨ f.Asks ∧ f.Spared f₀.worker.objects.toList ∧
      f.Pledges f₀.worker.objects.toList := by
  induction h with
  | refl =>
    have hasked : f₀.asked = [] := by
      unfold asked
      rw [hqueue, h₀.idle]
      rfl
    refine .inr ⟨⟨?_, ?_, ?_⟩, fun e he hgo => ?_, fun id start ticket rest hduty => ?_⟩
    · rw [hasked]
      exact fun _ hr => by cases hr
    · rw [hasked]
      exact fun _ hr => by cases hr
    · rw [hasked]
      exact List.nodup_nil
    · rw [h₀.log] at hgo
      cases hgo
    · rw [h₀.idle] at hduty
      cases hduty
  | @step f f' choice hreach hmove ih =>
    have hnext := next_of_move hmove
    have hf := hreach.attends h₀
    have hsorted := hreach.sorted h₀
    rcases ih with hclosing | ⟨hasks, hspared, hpledges⟩
    · exact .inl (hnext.closing hclosing)
    by_cases hopen : f'.Closing
    · exact .inl hopen
    have hpledges' : f'.Pledges f₀.worker.objects.toList := by
      refine hnext.pledges hf hpledges fun r hr hidle hgo => ?_
      have hmem : r ∈ f.asked := List.mem_append_right _ hr
      obtain ⟨call, hcall, hstart, indexed, hwaits⟩ := hasks.awaited r hmem
      obtain ⟨e, he, hplace, hgate⟩ := hsorted.known call hcall
      obtain ⟨-, hcalls⟩ := hspared e he (by rw [hplace, hstart]; exact hgo)
      have hflight : call.inFlight := by
        unfold Call.inFlight
        rw [hwaits]
      obtain ⟨ticket, indexed', hwaits', hreleased | ⟨-, hserving⟩⟩ :=
        hcalls call hcall hflight hgate.symm
      · rw [hwaits] at hwaits'
        cases hwaits'
        rw [(hasks.unanswered r hmem).2] at hreleased
        cases hreleased
      · rw [hidle] at hserving
        cases hserving
    refine .inr ?_
    rcases hnext.handled hf hpledges hopen with
      ⟨c, call, progress, site, events, hcall, hstep, hf'⟩ |
      hquiet | ⟨start, ticket, a, hanswers⟩
    · exact ⟨hasks.advanced hcall hstep hf', hspared.advanced hasks hcall hstep hf', hpledges'⟩
    · exact ⟨hquiet.asks hasks, hquiet.spared hsorted (hreach.alone h₀) hasks hspared, hpledges'⟩
    · exact ⟨hanswers.asks hasks,
        hanswers.spared hsorted (hreach.alone h₀) hasks hspared, hpledges'⟩

/-- **An object whose memory was given back comes back to life only if a caller is late.**
Its gate says for good that the memory is being unmapped. If the gate is alive, some call
has revived it after the worker had retired it, and that happens only when the worker tears
everything down. -/
theorem revival_is_late (h₀ : f₀.Opens) (hqueue : f₀.queued = []) (h : Reaches f₀ f)
    {e : Interval (Object γ)} (he : e ∈ f₀.worker.objects.toList)
    (hreleased : ∃ len result, .deed (.entry (.release e.start len result)) ∈ f.log) :
    (f.worker.gate e.value.gate).unmapping = true ∧
      ((f.worker.gate e.value.gate).alive = true → f.Closing ∧ ∃ before after call,
        f.log = before ++ .deed (.turn e.start e.value.gate .retire) :: after ∧
          .revived call e.value.gate ∈ after) := by
  obtain ⟨len, result, hmem⟩ := hreleased
  have hlawful := (h.attends h₀).lawful
  have hrelease : .entry (.release e.start len result) ∈ deedsOf f.log := mem_deedsOf.mpr hmem
  have hgo : .letGo ∈ course e.start (deedsOf f.log) :=
    (hlawful.legal e.start).letGo_of_released (mem_course.mpr ⟨_, hrelease, rfl⟩)
  refine ⟨?_, fun halive => ⟨?_, ?_⟩⟩
  · obtain ⟨unmapping, hflag, htells⟩ := h.tells h₀ e he
    obtain ⟨g, hg, rfl⟩ := Option.map_eq_some_iff.mp hflag
    rw [Site.gate_of_getElem? hg, ← Bool.not_eq_false, htells]
    exact fun hmapped => hmapped.letGo_not_mem (hlawful.legal e.start) hgo
  · rcases h.spared h₀ hqueue with hclosing | ⟨-, hspared, -⟩
    · exact hclosing
    · rw [(hspared e he hgo).1.gate] at halive
      cases halive
  · obtain ⟨e', he', hstart, hturn⟩ := hlawful.retires hrelease
    obtain rfl := h₀.sound.eq_of_start he' he hstart
    obtain ⟨before, after, heq⟩ := List.append_of_mem (mem_deedsOf.mp hturn)
    by_contra hnone
    have hsealed : Sealed e'.value.gate f.log :=
      ⟨before, _, after, heq, fun call hcall => hnone ⟨before, after, call, heq, hcall⟩⟩
    rw [(h.sealed h₀ hsealed).1.gate] at halive
    cases halive

/-- The next registration will not be taken back. -/
def sampleRefusing : Floor ScriptedMemory Unit :=
  { sampleFloor with
    worker :=
      sampleFloor.worker.onSite fun s => { s with pages := s.pages.failNext .unregister 1 } }

theorem sampleRefusing_opens : sampleRefusing.Opens where
  idle := rfl
  calls := rfl
  log := rfl
  sound := sampleFloor_opens.sound
  gates := sampleFloor_opens.gates
  distinct := sampleFloor_opens.distinct
  handles := sampleFloor_opens.handles

/-- A release is refused, and the caller learns of it. Then the worker tears everything down
and releases the object, and now the caller revives its gate. -/
def sampleLate : List Choice :=
  .call 0 .destroy :: List.replicate 3 (.advance 0) ++
    .take :: List.replicate 13 .work ++
    .advance 0 :: .fail :: List.replicate 15 .work ++ [.advance 0]

/-- The object is alive although its memory was given back. -/
theorem revival_is_late_sample :
    ∃ f : Floor ScriptedMemory Unit, Reaches sampleRefusing f ∧
      .released ∈ course 0x10000000 (deedsOf f.log) ∧
      (f.worker.gate 0).alive = true ∧ (f.worker.gate 0).unmapping = true ∧ f.Closing ∧
      ∃ before after call, f.log = before ++ .deed (.turn 0x10000000 0 .retire) :: after ∧
        .revived call 0 ∈ after := by
  have hrun : (play sampleLate sampleRefusing).any fun f =>
      .released ∈ course 0x10000000 (deedsOf f.log) ∧ (f.worker.gate 0).alive = true := by
    decide +kernel
  obtain ⟨f, hplay, hf⟩ := (Option.any_eq_true _ _).mp hrun
  obtain ⟨hreleased, halive⟩ := of_decide_eq_true hf
  have hreach : Reaches sampleRefusing f := Reaches.refl.play hplay
  obtain ⟨e, he, hstart, -, -, hgate⟩ := sampleRefusing_opens.handles _ (List.mem_singleton_self _)
  obtain ⟨d, hd, hmark⟩ := mem_course.mp hreleased
  obtain ⟨len, result, rfl⟩ := Deed.mark_released hmark
  have hlate := revival_is_late sampleRefusing_opens rfl hreach he
    ⟨len, result, hstart ▸ mem_deedsOf.mp hd⟩
  rw [hgate, hstart] at hlate
  obtain ⟨hunmapping, hrevived⟩ := hlate
  obtain ⟨hclosing, hlog⟩ := hrevived halive
  exact ⟨f, hreach, hreleased, halive, hunmapping, hclosing, hlog⟩

end Floor
end DemandPager
