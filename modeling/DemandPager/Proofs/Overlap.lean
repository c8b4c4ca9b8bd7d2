/-
# Accesses and teardowns that overlap

The copy of a call ends at one moment of the log. A call that leaves with success finds
that nothing is said of an unmapping, so its object is mapped then, and was mapped when the
copy ended. Memory is given back after its gate was retired, so it is accessed by nobody.
Hence an access that overlaps a teardown reports no success (`Floor.overlap_fails`).

Key definitions: `EndsCopy`, `Call.Tracked`, `Floor.Tracks`.
Key theorems: `Call.Step.tracked`, `Floor.Reaches.tracks`, `Floor.overlap_fails`.
-/
import DemandPager.Proofs.Gates

namespace DemandPager

variable {π γ : Type}

/-! ### Copies -/

/-- The copy of a call has ended once, when so much had happened. -/
def EndsCopy (call : Nat) (before log : List Event) : Prop :=
  ∃ after, log = before ++ .copied call :: after ∧ .copied call ∉ before ∧ .copied call ∉ after

theorem EndsCopy.append {call : Nat} {before log new : List Event} (h : EndsCopy call before log)
    (hnew : .copied call ∉ new) : EndsCopy call before (log ++ new) := by
  obtain ⟨after, rfl, hbefore, hafter⟩ := h
  refine ⟨after ++ new, by simp, hbefore, fun hmem => ?_⟩
  exact (List.mem_append.mp hmem).elim hafter hnew

namespace Call

variable {number : Nat} {log new : List Event}

/-- The copy of a call has ended if the call is so far. Before a success nothing had let the
object go by then. -/
def Tracked (number : Nat) (log : List Event) (c : Call) : Prop :=
  match c.progress with
  | .arriving _ | .copying .. => .copied number ∉ log
  | .copied _ => ∃ before, EndsCopy number before log
  | .leaving (.ok _) | .accessed (.ok _) =>
    ∃ before, EndsCopy number before log ∧ .letGo ∉ course c.handle.start (deedsOf before)
  | _ => True

theorem Tracked.append {c : Call} (h : c.Tracked number log) (hnew : .copied number ∉ new) :
    c.Tracked number (log ++ new) := by
  unfold Tracked at h ⊢
  split at h
  · exact fun hmem => (List.mem_append.mp hmem).elim h hnew
  · exact fun hmem => (List.mem_append.mp hmem).elim h hnew
  · obtain ⟨before, hends⟩ := h
    exact ⟨before, hends.append hnew⟩
  · obtain ⟨before, hends, hgo⟩ := h
    exact ⟨before, hends.append hnew, hgo⟩
  · obtain ⟨before, hends, hgo⟩ := h
    exact ⟨before, hends.append hnew, hgo⟩
  · trivial

theorem tracked_begin (h : Handle) (intent : Intent) (hlog : .copied number ∉ log) :
    (begin h intent).Tracked number log := by
  rcases begin_eq h intent with ⟨_, heq⟩ | ⟨_, heq⟩ | heq
  all_goals rw [heq]
  · exact hlog
  · trivial
  · trivial

variable [Bytewise π] {gone held : Bool} {h : Handle} {s s' : Site π γ} {before after : Progress}
  {events : List Event}

/-- A step ends no copy but that of its own call. -/
theorem Step.copied_mem (hstep : Step number gone held h s before after s' events) {n : Nat}
    (hmem : .copied n ∈ events) : n = number := by
  cases hstep with
  | copied =>
    cases List.mem_singleton.mp hmem
    rfl
  | stores => cases List.mem_singleton.mp hmem
  | revives => cases List.mem_singleton.mp hmem
  | _ => cases hmem

/-- A call that leaves with success finds its object mapped, so nothing had let it go when
the copy ended. -/
theorem Step.tracked (hstep : Step number gone held h s before after s' events)
    (hmapped : (s.gate h.gate).unmapping = false → .letGo ∉ course h.start (deedsOf log))
    (hbefore : Tracked number log ⟨h, before⟩) : Tracked number (log ++ events) ⟨h, after⟩ := by
  have hnil : .copied number ∉ ([] : List Event) := List.not_mem_nil
  cases hstep with
  | enters => exact hbefore.append hnil
  | loads => exact hbefore.append hnil
  | @stores address rest loaded b =>
    have hother : .copied number ∉ [Event.stored number address b] := by simp
    exact hbefore.append hother
  | copied => exact ⟨log, [], by simp, hbefore, by simp⟩
  | @asked loaded result hresult =>
    obtain ⟨before, hends⟩ := hbefore
    unfold Gate.leave at hresult
    cases hflag : (s.gate h.gate).unmapping with
    | true =>
      rw [hflag] at hresult
      rw [hresult]
      trivial
    | false =>
      rw [hflag] at hresult
      rw [hresult]
      refine ⟨before, hends.append (by simp), fun hgo => hmapped hflag ?_⟩
      obtain ⟨after, rfl, -⟩ := hends
      rw [deedsOf_append, course_append]
      exact List.mem_append_left _ hgo
  | @left result =>
    cases result with
    | error cause => trivial
    | ok bytes => exact hbefore.append hnil
  | _ => trivial

end Call

namespace Floor

variable [Paging π] [Bytewise π] {f f' f₀ : Floor π γ}

omit [Paging π] [Bytewise π] in
/-- All calls are tracked, and no copy has ended but those of the calls. -/
structure Tracks (f : Floor π γ) : Prop where
  calls : ∀ (c : Nat) (call : Call), f.calls[c]? = some call → call.Tracked c f.log
  others : ∀ c, f.calls.length ≤ c → .copied c ∉ f.log

omit [Paging π] in
theorem Shift.tracks (h : Shift f f')
    (hmapped : ∀ call ∈ f.calls, (f.worker.gate call.handle.gate).unmapping = false →
      .letGo ∉ course call.handle.start (deedsOf f.log)) (hf : f.Tracks) : f'.Tracks := by
  have hquiet : f'.calls = f.calls → (∃ deeds : List Deed, f'.log = f.log ++ deeds.map .deed) →
      f'.Tracks := by
    rintro hcalls ⟨deeds, hlog⟩
    have hnone : ∀ c, Event.copied c ∉ deeds.map Event.deed := fun c hmem => by
      obtain ⟨d, -, heq⟩ := List.mem_map.mp hmem
      cases heq
    refine ⟨fun c call hcall => ?_, fun c hc hmem => ?_⟩
    · rw [hlog]
      exact (hf.calls c call (hcalls ▸ hcall)).append (hnone c)
    · rw [hlog] at hmem
      exact (List.mem_append.mp hmem).elim (hf.others c (hcalls ▸ hc)) (hnone c)
  cases h with
  | @called h intent hh hcalls hgates hlog =>
    refine ⟨fun c call hcall => ?_, fun c hc => ?_⟩
    · rw [hcalls] at hcall
      rw [hlog]
      rcases getElem?_concat_some hcall with ⟨-, hcall⟩ | ⟨rfl, rfl⟩
      · exact hf.calls c call hcall
      · exact Call.tracked_begin h intent (hf.others _ (Nat.le_refl _))
    · rw [hlog]
      rw [hcalls, List.length_append] at hc
      exact hf.others c (Nat.le_of_add_right_le hc)
  | @advanced c call progress site events hcall hstep hcalls hgates hlog =>
    refine ⟨fun n call' hcall' => ?_, fun n hn hmem => ?_⟩
    · rw [hlog]
      rw [hcalls] at hcall'
      rcases getElem?_set_some hcall' with ⟨rfl, rfl⟩ | ⟨hn, hcall'⟩
      · exact hstep.tracked (hmapped call (List.mem_of_getElem? hcall)) (hf.calls n call hcall)
      · exact (hf.calls n call' hcall').append fun hmem => hn (hstep.copied_mem hmem)
    · rw [hcalls, List.length_set] at hn
      rw [hlog] at hmem
      rcases List.mem_append.mp hmem with hmem | hmem
      · exact hf.others n hn hmem
      · rw [hstep.copied_mem hmem] at hn
        exact absurd (List.getElem?_eq_some_iff.mp hcall).1 (Nat.not_lt.mpr hn)
  | retired hcalls hgates hlog => exact hquiet hcalls ⟨[], by rw [hlog]; simp⟩
  | noted hcalls hgates hlog => exact hquiet hcalls ⟨_, hlog⟩
  | turned hfree hcalls hgates hlog => exact hquiet hcalls ⟨[_], hlog⟩

/-- **On every floor that is reached the calls are tracked.** -/
theorem Reaches.tracks (h : Reaches f₀ f) (h₀ : f₀.Opens) : f.Tracks := by
  induction h with
  | refl =>
    refine ⟨fun c call hcall => ?_, fun c _ hmem => ?_⟩
    · rw [h₀.calls] at hcall
      cases hcall
    · rw [h₀.log] at hmem
      cases hmem
  | @step f f' choice hreach hmove ih =>
    refine ((next_of_move hmove).shift (hreach.attends h₀)).tracks (fun call hcall hflag => ?_) ih
    obtain ⟨e, he, hstart, hgate⟩ := hreach.object h₀ hcall
    obtain ⟨unmapping, htold, htells⟩ := hreach.tells h₀ e he
    rw [hgate] at htold
    obtain ⟨g, hg, rfl⟩ := Option.map_eq_some_iff.mp htold
    rw [Site.gate_of_getElem? hg] at hflag
    rw [← hstart]
    exact (htells.mp hflag).letGo_not_mem ((hreach.attends h₀).lawful.legal e.start)

/-! ### What was done -/

end Floor

/-- **Memory is given back after the worker has retired the gate of its object.** -/
theorem Lawful.retires {γ : Type} {O : List (Interval (Object γ))} {deeds : List Deed}
    (h : Lawful O deeds) {start len : Nat} {result : Except PagerError Unit}
    (hmem : .entry (.release start len result) ∈ deeds) :
    ∃ e ∈ O, e.start = start ∧ .turn start e.value.gate .retire ∈ deeds := by
  have hreleased : .released ∈ course start deeds := mem_course.mpr ⟨_, hmem, rfl⟩
  obtain ⟨before, hfollows, hbefore⟩ := (h.legal start).before_mem hreleased
  cases hfollows
  obtain ⟨d, hd, hmark⟩ := mem_course.mp (hbefore .retired rfl)
  cases d with
  | entry e => rcases Deed.mark_entry hmark with h | h | h <;> cases h
  | turn s number t =>
    cases t with
    | retire =>
      cases hmark
      obtain ⟨e, he, hstart, rfl⟩ := h.turns _ _ _ hd
      exact ⟨e, he, hstart, hd⟩
    | _ => cases hmark

namespace Floor

variable [Paging π] [Bytewise π] {f f' f₀ : Floor π γ}

omit [Paging π] in
/-- What is entered is entered by the worker, while calls wait. -/
theorem Shift.entered {e : JournalEntry} (h : Shift f f')
    (hmem : .deed (.entry e) ∈ f'.log.drop f.log.length) :
    f'.calls = f.calls ∧ ∃ es : List JournalEntry,
      f'.log = f.log ++ (es.map Deed.entry).map .deed := by
  have hnone : f'.log = f.log → False := fun hlog => by
    rw [hlog, List.drop_length] at hmem
    cases hmem
  cases h with
  | called hh hcalls hgates hlog => exact (hnone hlog).elim
  | advanced hcall hstep hcalls hgates hlog =>
    rw [hlog, List.drop_left] at hmem
    have hdeed := mem_deedsOf.mpr hmem
    rw [hstep.deeds] at hdeed
    cases hdeed
  | retired hcalls hgates hlog => exact (hnone hlog).elim
  | noted hcalls hgates hlog => exact ⟨hcalls, _, hlog⟩
  | turned hfree hcalls hgates hlog =>
    rw [hlog, List.drop_left] at hmem
    cases List.mem_singleton.mp hmem

/-- **An access that overlapped a teardown reports no success.** If an access has succeeded,
its copy ended at a moment when no registration of its object had been taken back. And
memory is given back while nobody accesses it, unless somebody revived the gate of its
object after the worker had retired it. -/
theorem overlap_fails (h₀ : f₀.Opens) (h : Reaches f₀ f) :
    (∀ (c : Nat) (call : Call) (bytes : Bytes), f.calls[c]? = some call →
      call.progress = .accessed (.ok bytes) →
      ∃ before, EndsCopy c before f.log ∧
        ∀ len, .deed (.entry (.unregister call.handle.start len (.ok ()))) ∉ before) ∧
    ∀ (choice : Choice) (f' : Floor π γ), f.move choice = some f' →
      ∀ e ∈ f₀.worker.objects.toList, (∃ len result,
        .deed (.entry (.release e.start len result)) ∈ f'.log.drop f.log.length) →
      (∀ before after, f.log = before ++ .deed (.turn e.start e.value.gate .retire) :: after →
        ∀ call, .revived call e.value.gate ∉ after) →
      f.held e.value.gate = false ∧ f'.held e.value.gate = false := by
  refine ⟨fun c call bytes hcall hover => ?_, ?_⟩
  · have htracked := (h.tracks h₀).calls c call hcall
    unfold Call.Tracked at htracked
    rw [hover] at htracked
    obtain ⟨before, hends, hgo⟩ := htracked
    refine ⟨before, hends, fun len hmem => hgo ?_⟩
    exact mem_course.mpr ⟨_, mem_deedsOf.mpr hmem, rfl⟩
  · rintro choice f' hmove e he ⟨len, result, hmem⟩ hnone
    have hnext := next_of_move hmove
    have hf := h.attends h₀
    have hshift := hnext.shift hf
    obtain ⟨hcalls, es, hlog⟩ := hshift.entered hmem
    have hrelease := mem_deedsOf.mpr (List.mem_of_mem_drop hmem)
    obtain ⟨e', he', hstart, hturn⟩ := (hnext.attends hf).lawful.retires hrelease
    obtain rfl := h₀.sound.eq_of_start he' he hstart
    have hturned : .deed (.turn e'.start e'.value.gate .retire) ∈ f.log := by
      rw [show f'.moment.deeds = deedsOf f'.log from rfl, hlog, deedsOf_append,
        deedsOf_deeds] at hturn
      rcases List.mem_append.mp hturn with hturn | hturn
      · exact mem_deedsOf.mp hturn
      · obtain ⟨_, -, heq⟩ := List.mem_map.mp hturn
        cases heq
    obtain ⟨before, after, heq⟩ := List.append_of_mem hturned
    have hfree := (h.sealed h₀ ⟨before, _, after, heq, hnone before after heq⟩).2
    refine ⟨hfree, ?_⟩
    unfold held at hfree ⊢
    rw [hcalls]
    exact hfree

/-- An access has succeeded. Another one overlaps a teardown; the worker waits with the
retirement of the gate until it is over. -/
def sampleOverlap : List Choice :=
  .call 0 (.read .body 0 2) :: List.replicate 6 (.advance 0) ++
    .call 0 (.read .body 0 2) :: List.replicate 2 (.advance 1) ++
    .fail :: List.replicate 11 .work ++ List.replicate 4 (.advance 1) ++ List.replicate 2 .work

/-- The second access reports a failure, and then the memory is given back. -/
theorem overlap_fails_sample :
    ∃ f f' : Floor ScriptedMemory Unit, Reaches sampleFloor f ∧ f.move .work = some f' ∧
      f.calls.map (·.progress) = [.accessed (.ok [0, 0]), .accessed (.error .shuttingDown)] ∧
      (∃ before, EndsCopy 0 before f.log ∧
        ∀ len, .deed (.entry (.unregister 0x10000000 len (.ok ()))) ∉ before) ∧
      .released ∈ course 0x10000000 (deedsOf (f'.log.drop f.log.length)) ∧
      f.held 0 = false ∧ f'.held 0 = false := by
  have hrun : (play sampleOverlap sampleFloor).any (fun f =>
      f.calls.map (fun c => (c.handle.start, c.progress)) =
        [(0x10000000, .accessed (.ok [0, 0])), (0x10000000, .accessed (.error .shuttingDown))] ∧
      f.log.all (fun | .revived .. => false | _ => true) ∧
      (f.move .work).any fun f' =>
        .released ∈ course 0x10000000 (deedsOf (f'.log.drop f.log.length))) := by
    decide +kernel
  obtain ⟨f, hplay, hf⟩ := (Option.any_eq_true _ _).mp hrun
  obtain ⟨hcalls, hnone, hlast⟩ := of_decide_eq_true hf
  obtain ⟨f', hmove, hreleased⟩ := (Option.any_eq_true _ _).mp hlast
  have hreach : Reaches sampleFloor f := Reaches.refl.play hplay
  obtain ⟨hfirst, hsecond⟩ := overlap_fails sampleFloor_opens hreach
  obtain ⟨a, rest, heq, ha, hrest⟩ := List.map_eq_cons_iff.mp hcalls
  obtain ⟨b, rfl, hb⟩ := List.map_eq_singleton_iff.mp hrest
  obtain ⟨hstart, hprogress⟩ := Prod.mk.inj ha
  refine ⟨f, f', hreach, hmove, by rw [heq, List.map_cons, hprogress, List.map_singleton,
    (Prod.mk.inj hb).2], ?_, of_decide_eq_true hreleased, ?_⟩
  · have hends := hfirst 0 a [0, 0] (by rw [heq]; rfl) hprogress
    rw [hstart] at hends
    exact hends
  · obtain ⟨e, he, hstart, -, -, hgate⟩ := sampleFloor_opens.handles _ (List.mem_singleton_self _)
    obtain ⟨d, hd, hmark⟩ := mem_course.mp (of_decide_eq_true hreleased)
    obtain ⟨len, result, rfl⟩ := Deed.mark_released hmark
    have hfree := hsecond .work f' hmove e he ⟨len, result, hstart ▸ mem_deedsOf.mp hd⟩
    rw [hgate] at hfree
    refine hfree fun before after hlog call hmem => ?_
    rw [hlog, List.all_append, List.all_cons, Bool.and_eq_true, Bool.and_eq_true] at hnone
    have h := List.all_eq_true.mp hnone.2.2 _ hmem
    cases h

end Floor
end DemandPager
