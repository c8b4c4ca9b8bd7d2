/-
# What the worker is busy with

The errand of a task, whatever callers do between its parts. While a release is served only
the course of its object goes on, and nothing is answered until the end; then the answer is
that the object is gone, or a refusal, and its accesses were not let go
(`Worker.serveErrand_ensures`). Between two tasks all objects on the books are mapped.

On every floor that is reached the rest of the errand ensures what the whole errand did
(`Floor.Reaches.attends`), so the deeds are lawful all the while.

Key definitions: `Served`, `Task.Keeps`, `Task.Done`, `Task.Failed`, `Floor.Attends`.
Key theorems: `Worker.serveErrand_ensures`, `Floor.Next.attends`, `Floor.Reaches.attends`.
-/
import DemandPager.Proofs.Budget
import DemandPager.Proofs.Dismantling
import DemandPager.Proofs.Floor

namespace DemandPager

variable {π γ : Type} {O : List (Interval (Object γ))}

theorem Call.Step.deeds [Bytewise π] {number : Nat} {gone held : Bool} {h : Handle}
    {s s' : Site π γ} {before after : Progress} {events : List Event}
    (hstep : Step number gone held h s before after s' events) : deedsOf events = [] := by
  cases hstep <;> rfl

/-- A release was answered, and no other object went on. After a refusal the accesses were
not let go, unless they were before. -/
structure Served (start ticket : Nat) (m₀ m : Moment γ) : Prop where
  course : ∀ s, s ≠ start → course s m.deeds = course s m₀.deeds
  answer : ∃ a, m.deeds.filterMap Deed.answer? = m₀.deeds.filterMap Deed.answer? ++ [(ticket, a)] ∧
    (a ≠ .released → .letGo ∈ DemandPager.course start m.deeds →
      .letGo ∈ DemandPager.course start m₀.deeds)

theorem Standing.answering {m m' : Moment γ} (h : Standing O m) (h' : Answering O m m') :
    Standing O m' where
  sound := h'.desk ▸ h.sound
  known := h'.desk ▸ h.known
  lawful := h'.lawful
  handedOver := h'.handedOver
  mapped := fun e he => by
    have hmapped := h.mapped e (h'.desk ▸ he)
    unfold Mapped stage at hmapped ⊢
    rw [h'.course]
    exact hmapped

namespace Worker

variable [Paging π] {m : Moment γ}

/-- **To serve a release answers it once**, and only its object goes on. -/
theorem serveErrand_ensures {id start ticket : Nat} (hm : Standing O m) :
    (serveErrand (.free id start ticket) : Errand π γ Flow).Ensures (Within O (· = start) m)
      (fun flow m' => flow = .proceed ∧ Standing O m' ∧ Served start ticket m m')
      (fun f m' => Within O (· = start) m m' ∧ ∀ cause, f ≠ .error cause) m := by
  have hwithin : Within O (· = start) m m := ⟨hm.lawful, fun _ _ => rfl, rfl⟩
  have hanswers : ∀ m' a, Within O (· = start) m m' →
      (m'.noted m'.desk [.answer ticket a]).deeds.filterMap Deed.answer? =
        m.deeds.filterMap Deed.answer? ++ [(ticket, a)] := by
    intro m' a h
    rw [Moment.deeds_noted, List.filterMap_append, h.answers]
    rfl
  unfold serveErrand
  rw [Errand.ensures_bind, Errand.ensures_lift]
  refine ⟨hwithin, fun s => ⟨_, rfl, ?_⟩⟩
  set m₀ := m.noted m.desk [.serve ticket]
  have hlull : Lull O m m₀ := .entry hm.lawful hm.handedOver rfl rfl rfl rfl
  have hm₀ := hm.lull hlull
  rw [Errand.ensures_bind, Errand.ensures_attempt]
  refine (freeErrand_ensures (S := (· = start)) rfl (hwithin.lull hlull) hm₀).mono
    (fun _ h => h) ?_ ?_
  · rintro _ m' ⟨hm', hstanding, -⟩
    have hanswering := Answering.entry hstanding.lawful hstanding.handedOver ticket .released
    refine ⟨hm', fun s => ⟨_, rfl, rfl, hstanding.answering hanswering, fun s hs => ?_,
      .released, hanswers m' _ hm', fun h => absurd rfl h⟩⟩
    exact (hanswering.course s).trans (hm'.course s hs)
  · rintro f m' ⟨hm', herror⟩
    refine ⟨fun cause hf => ?_, fun breach hf => ⟨hm', fun cause h => ?_⟩⟩
    · obtain ⟨hstanding, hdeclined⟩ := herror cause hf
      have hanswering :=
        Answering.entry hstanding.lawful hstanding.handedOver ticket (.refused cause)
      refine ⟨hm', fun s => ⟨_, rfl, rfl, hstanding.answering hanswering, fun s hs => ?_,
        .refused cause, hanswers m' _ hm', fun _ hgo => ?_⟩⟩
      · exact (hanswering.course s).trans (hm'.course s hs)
      · change .letGo ∈ course start (m'.noted m'.desk [_]).deeds at hgo
        rw [hanswering.course] at hgo
        rcases hdeclined.course start with heq | ⟨-, -, heq⟩
        · rwa [heq, hlull.course] at hgo
        · rw [heq, List.mem_append, hlull.course] at hgo
          exact hgo.resolve_right (by simp)
    · rw [hf] at h
      cases h

end Worker

/-! ### Tasks -/

/-- What holds between the parts of a task that was begun at `m₀`. -/
def Task.Keeps (O : List (Interval (Object γ))) (m₀ : Moment γ) : Task γ → Moment γ → Prop
  | .serve (.free _ start _), m => Within O (· = start) m₀ m
  | .serve _, m | .evict, m => Within O (fun _ => False) m₀ m
  | .close, m => Lawful O m.deeds

/-- What a task comes to that was begun at `m₀`. -/
def Task.Done (O : List (Interval (Object γ))) (m₀ : Moment γ) : Task γ → Flow → Moment γ → Prop
  | .serve (.free _ start ticket), flow, m =>
    flow = .proceed ∧ Standing O m ∧ Served start ticket m₀ m
  | .serve _, _, m | .evict, _, m => Standing O m ∧ Lull O m₀ m
  | .close, _, m => Dismantled O m₀ m

/-- What a task comes to that was begun at `m₀` and failed. -/
def Task.Failed (O : List (Interval (Object γ))) (m₀ : Moment γ) :
    Task γ → Failure → Moment γ → Prop
  | .serve (.free _ start _), f, m => Within O (· = start) m₀ m ∧ ∀ cause, f ≠ .error cause
  | .serve _, _, m | .evict, _, m => Standing O m ∧ Lull O m₀ m
  | .close, _, m => Lawful O m.deeds

/-- The worker takes only what asks for no new object. -/
def Task.isOld : Task γ → Bool
  | .serve message => !message.asksObject
  | _ => true

theorem Task.errand_ensures [Paging π] {task : Task γ} {m : Moment γ} (hm : Standing O m)
    (hold : task.isOld) : (task.errand : Errand π γ Flow).Ensures (task.Keeps O m) (task.Done O m)
      (task.Failed O m) m := by
  have hwithin : Within O (fun _ => False) m m := ⟨hm.lawful, fun _ _ => rfl, rfl⟩
  cases task with
  | serve message =>
    cases message with
    | allocate object ticket => cases hold
    | free id start ticket => exact Worker.serveErrand_ensures hm
    | shutdown =>
      have hlull : Lull O m (m.noted { m.desk with phase := .shuttingDown } []) :=
        .silent hm.lawful hm.handedOver rfl
      exact ⟨hwithin, fun s => ⟨[], (List.append_nil _).symm, hm.lull hlull, hlull⟩⟩
  | evict =>
    unfold errand
    rw [Errand.ensures_bind]
    exact (Worker.evictErrand_ensures hwithin hm.handedOver hm.known).mono (fun _ h => h)
      (fun _ _ h => ⟨hm.lull h, h⟩) fun _ _ h => ⟨hm.lull h, h⟩
  | close =>
    unfold errand
    rw [Errand.ensures_bind]
    exact (Worker.shutdownErrand_ensures hm).mono (fun _ h => h) (fun _ _ h => h) fun _ _ h => h

theorem Task.errand_tame [Paging π] {task : Task γ} (hold : task.isOld) :
    (task.errand : Errand π γ Flow).Tame := by
  cases task with
  | serve message => exact Worker.tame_serveErrand (Bool.not_eq_true' _ ▸ hold)
  | evict => exact Errand.tame_bind Worker.tame_evictErrand fun _ => Errand.tame_pure _
  | close => exact Errand.tame_bind Worker.tame_shutdownErrand fun _ => Errand.tame_pure _

section Lawful

variable {m₀ m : Moment γ} {task : Task γ}

theorem Task.Keeps.lawful (h : task.Keeps O m₀ m) : Lawful O m.deeds := by
  unfold Keeps at h
  split at h
  · exact h.lawful
  · exact h.lawful
  · exact h.lawful
  · exact h

theorem Task.Done.lawful {flow : Flow} (h : task.Done O m₀ flow m) : Lawful O m.deeds := by
  unfold Done at h
  split at h
  · exact h.2.1.lawful
  · exact h.1.lawful
  · exact h.1.lawful
  · exact h.lawful

theorem Task.Failed.lawful {f : Failure} (h : task.Failed O m₀ f m) : Lawful O m.deeds := by
  unfold Failed at h
  split at h
  · exact h.1.lawful
  · exact h.1.lawful
  · exact h.1.lawful
  · exact h

end Lawful

/-! ### The floor -/

namespace Floor

open Worker (sampleRun sampleRun_full sampleObject)

variable [Paging π] {f f' : Floor π γ}

/-- The worker does what its task is about. -/
def Attends (O : List (Interval (Object γ))) (f : Floor π γ) : Prop :=
  match f.duty with
  | .idle => Standing O f.moment
  | .busy task rest => rest.Tame ∧ ∃ m₀, Standing O m₀ ∧
      rest.Ensures (task.Keeps O m₀) (task.Done O m₀) (task.Failed O m₀) f.moment
  | .ended => Lawful O f.moment.deeds

/-- **The deeds are lawful.** -/
theorem Attends.lawful (h : f.Attends O) : Lawful O f.moment.deeds := by
  unfold Attends at h
  split at h
  · exact h.lawful
  · rename_i task rest _
    obtain ⟨-, m₀, -, hrest⟩ := h
    have hmono : rest.Ensures (fun m => Lawful O m.deeds) (fun _ m => Lawful O m.deeds)
        (fun _ _ => True) f.moment :=
      hrest.mono (fun _ h => h.lawful) (fun _ _ h => h.lawful) fun _ _ _ => trivial
    exact hmono.now fun _ h => h
  · exact h

theorem Attends.of_eq (h : f.Attends O) (hduty : f'.duty = f.duty)
    (hmoment : f'.moment = f.moment) : f'.Attends O := by
  unfold Attends at h ⊢
  rw [hduty, hmoment]
  exact h

/-- The worker begins with a task. -/
theorem Attends.begin {task : Task γ} (h : Standing O f.moment) (hold : task.isOld)
    (hduty : f'.duty = .of task) (hmoment : f'.moment = f.moment) : f'.Attends O := by
  unfold Attends
  rw [hduty, hmoment]
  exact ⟨Task.errand_tame hold, _, h, Task.errand_ensures h hold⟩

/-- The worker has nothing to do. -/
theorem Attends.rest (h : Standing O f'.moment) (hduty : f'.duty = .idle) : f'.Attends O := by
  unfold Attends
  rw [hduty]
  exact h

/-- The worker is over. -/
theorem Attends.stop (h : Lawful O f'.moment.deeds) (hduty : f'.duty = .ended) : f'.Attends O := by
  unfold Attends
  rw [hduty]
  exact h

/-- The worker is done with a task. -/
theorem Attends.finish {task : Task γ} {m₀ : Moment γ} {flow : Flow}
    (h : task.Done O m₀ flow f'.moment) (hduty : f'.duty = task.after flow) : f'.Attends O := by
  have hnext : Standing O f'.moment → (flow = .proceed → f'.duty = .idle) →
      (flow = .stop → f'.duty = .of .close) → f'.Attends O := by
    intro hstanding hidle hclose
    cases flow with
    | proceed => exact .rest hstanding (hidle rfl)
    | stop => exact .begin hstanding rfl (hclose rfl) rfl
  cases task with
  | serve message =>
    refine hnext ?_ (fun hflow => by rw [hduty, hflow]; rfl) fun hflow => by rw [hduty, hflow]; rfl
    cases message with
    | free id start ticket => exact h.2.1
    | allocate object ticket => exact h.1
    | shutdown => exact h.1
  | evict =>
    exact hnext h.1 (fun hflow => by rw [hduty, hflow]; rfl) fun hflow => by rw [hduty, hflow]; rfl
  | close => exact .stop h.lawful hduty

/-- A task has failed. -/
theorem Attends.fail {task : Task γ} {m₀ : Moment γ} {failure : Failure}
    (h : task.Failed O m₀ failure f'.moment) (hduty : f'.duty = task.afterFailure failure) :
    f'.Attends O := by
  cases failure with
  | abort breach => exact .stop h.lawful (by rw [hduty]; cases task <;> rfl)
  | error cause =>
    cases task with
    | serve message =>
      cases message with
      | free id start ticket => exact absurd rfl (h.2 cause)
      | allocate object ticket => exact .begin h.1 rfl hduty rfl
      | shutdown => exact .begin h.1 rfl hduty rfl
    | evict => exact .begin h.1 rfl hduty rfl
    | close => exact .stop h.lawful hduty

omit [Paging π] in
theorem moment_noted {w : Worker π γ} {es : List JournalEntry}
    (h : w.journal = f.worker.journal ++ es) :
    (⟨w.toDesk, deedsOf (f.log ++ f.news w)⟩ : Moment γ) = f.moment.noted w.toDesk es := by
  unfold news moment Moment.noted
  rw [h, List.drop_left, deedsOf_append, deedsOf_deeds]

omit [Paging π] in
/-- Nobody has called yet, and all objects are mapped; each has a gate of its own. The
handles are those of the objects. -/
structure Opens (f : Floor π γ) : Prop where
  idle : f.duty = .idle
  calls : f.calls = []
  log : f.log = []
  sound : f.worker.objects.Sound
  gates : ∀ e ∈ f.worker.objects.toList, ∃ g,
    f.worker.gates[e.value.gate]? = some g ∧ g.unmapping = false
  distinct : ∀ e ∈ f.worker.objects.toList, ∀ e' ∈ f.worker.objects.toList,
    e.value.gate = e'.value.gate → e = e'
  handles : ∀ h ∈ f.handles, ∃ e ∈ f.worker.objects.toList,
    e.start = h.start ∧ e.value.id = h.id ∧ e.value.geometry = h.geometry ∧ e.value.gate = h.gate

/-- Two chunks of an object are loaded, and there is a handle to it. -/
def sampleFloor : Floor ScriptedMemory Unit where
  worker := (sampleRun [0x10000010, 0x10000000]).onSite ({ · with gates := [{ owner := 1 }] })
  duty := .idle
  handles := [⟨1, 0x10000000, sampleObject.geometry, 0⟩]

theorem sampleFloor_opens : sampleFloor.Opens := by
  have hobjects : (sampleFloor.worker.objects.toList.map fun e =>
      (e.start, e.value.id, e.value.geometry, e.value.gate)) =
        [(0x10000000, 1, sampleObject.geometry, 0)] := by decide +kernel
  obtain ⟨e, he, hfields⟩ := List.map_eq_singleton_iff.mp hobjects
  simp only [Prod.mk.injEq] at hfields
  obtain ⟨hstart, hid, hgeometry, hgate⟩ := hfields
  have honly : ∀ e' ∈ sampleFloor.worker.objects.toList, e' = e := fun e' he' =>
    List.mem_singleton.mp (he ▸ he')
  refine ⟨rfl, rfl, rfl, sampleRun_full.inOrder.filed.objects, fun e' he' => ?_,
    fun a ha b hb _ => ?_,
    fun h hh => ⟨e, he ▸ List.mem_singleton_self e, ?_⟩⟩
  · rw [honly e' he', hgate]
    exact ⟨{ owner := 1 }, rfl, rfl⟩
  · rw [honly a ha, honly b hb]
  · rw [List.mem_singleton.mp hh]
    exact ⟨hstart, hid, hgeometry, hgate⟩

theorem Opens.attends (h : f.Opens) : f.Attends f.worker.objects.toList := by
  have hdeeds : f.moment.deeds = [] := by
    unfold moment
    rw [h.log]
    rfl
  refine .rest ⟨h.sound, fun _ h => h, ?_, ?_, fun e _ => .inl ?_⟩ h.idle
  · rw [hdeeds]
    exact lawful_nil
  · rw [hdeeds]
    exact handedOver_nil
  · rw [hdeeds]
    rfl

/-- **Whatever the next step is, the worker goes on with its task.** -/
theorem Next.attends [Bytewise π] (h : Next f f') (hf : f.Attends O) : f'.Attends O := by
  have hbusy : ∀ {task : Task γ} {rest : Errand π γ Flow}, f.duty = .busy task rest → rest.Tame ∧
      ∃ m₀, Standing O m₀ ∧
        rest.Ensures (task.Keeps O m₀) (task.Done O m₀) (task.Failed O m₀) f.moment := by
    intro task rest hduty
    unfold Attends at hf
    rw [hduty] at hf
    exact hf
  have hidle : f.duty = .idle → Standing O f.moment := by
    intro hduty
    unfold Attends at hf
    rw [hduty] at hf
    exact hf
  cases h with
  | called => exact hf.of_eq rfl rfl
  | advanced hcall hstep =>
    refine hf.of_eq rfl ?_
    unfold moment
    rw [deedsOf_append, (Call.step_of_advance hstep).deeds, List.append_nil]
  | requested => exact hf.of_eq rfl rfl
  | gaveUp => exact hf.of_eq rfl rfl
  | took hduty hnext hold => exact .begin (hidle hduty) (by rw [Task.isOld, hold]; rfl) rfl rfl
  | evicts hduty => exact .begin (hidle hduty) rfl rfl rfl
  | fails hduty => exact .begin (hidle hduty) rfl rfl rfl
  | finished hduty =>
    obtain ⟨-, m₀, -, hdone⟩ := hbusy hduty
    exact .finish hdone rfl
  | parted hduty hact =>
    obtain ⟨htame, m₀, hm₀, -, hparts⟩ := hbusy hduty
    obtain ⟨es, hes, hnext⟩ := (hparts f.worker.toSite).of_ok hact
    refine ⟨htame.2 _, m₀, hm₀, ?_⟩
    rw [← moment_noted hes] at hnext
    exact hnext
  | failed hduty hact =>
    obtain ⟨htame, m₀, hm₀, -, hparts⟩ := hbusy hduty
    obtain ⟨es, hes, hfailed⟩ := (hparts f.worker.toSite).of_error hact
    rw [← moment_noted hes] at hfailed
    exact .fail hfailed rfl
  | @turned task start number t next hduty hfree =>
    obtain ⟨htame, m₀, hm₀, -, hnext⟩ := hbusy hduty
    refine ⟨htame, m₀, hm₀, ?_⟩
    show Errand.Ensures _ _ _ next
      ⟨f.worker.toDesk, deedsOf (f.log ++ [.deed (.turn start number t)])⟩
    rw [deedsOf_append]
    exact hnext

/-- **On every floor that is reached the worker does what its task is about.** -/
theorem Reaches.attends [Bytewise π] {f₀ : Floor π γ} (h : Reaches f₀ f) (h₀ : f₀.Opens) :
    f.Attends f₀.worker.objects.toList := by
  induction h with
  | refl => exact h₀.attends
  | step _ hmove ih => exact (next_of_move hmove).attends ih

end Floor
end DemandPager
