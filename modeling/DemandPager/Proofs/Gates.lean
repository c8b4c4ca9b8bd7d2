/-
# The gates while many threads are about

The gate of an object says that its memory is being unmapped exactly while the object is
not mapped (`Floor.Reaches.tells`): only the worker says so, and it says so before the
registration is taken back. A gate that the worker has retired is held by nobody until a
call revives it (`Floor.Reaches.sealed`): to retire a gate is to wait until nobody holds
it, and nobody enters by a gate that is not alive.

Key definitions: `Floor.Shift`, `Floor.Tells`, `Sealed`, `Dead`, `Floor.Shut`.
Key theorems: `Floor.Next.shift`, `Floor.Reaches.tells`, `Floor.Reaches.sealed`.
-/
import DemandPager.Proofs.Duties

namespace DemandPager

variable {π γ : Type} {O : List (Interval (Object γ))}

/-! ### Entries and turns -/

/-- A milestone maps its object if it is a withdrawal. -/
theorem mapped_snoc_mark {deeds : List Deed} {d : Deed} {start : Nat} {ms : Milestone}
    (h : d.mark? = some (start, ms)) : Mapped start (deeds ++ [d]) ↔ ms = .withdrawn := by
  unfold Mapped
  rw [stage_snoc h]
  simp

/-- Deeds that are no milestones of an object leave it as it is. -/
theorem mapped_append {deeds new : List Deed} {start : Nat} (h : course start new = []) :
    Mapped start (deeds ++ new) ↔ Mapped start deeds := by
  unfold Mapped stage
  rw [course_append, h, List.append_nil]

/-- What is entered follows on a turn, so it maps nothing and unmaps nothing. -/
theorem mapped_snoc_entry {deeds : List Deed} {e : JournalEntry} {start : Nat}
    (h : Legal (course start (deeds ++ [.entry e]))) :
    Mapped start (deeds ++ [.entry e]) ↔ Mapped start deeds := by
  cases hm : (Deed.entry e).mark? with
  | none => exact mapped_append (course_of_unmarked fun d hd => List.mem_singleton.mp hd ▸ hm)
  | some mark =>
    obtain ⟨s, ms⟩ := mark
    have hcourse : course start [.entry e] = _ := course_of_mark hm
    by_cases hs : s = start
    · rw [course_append, hcourse, if_pos hs] at h
      have hfollows : Milestone.Follows (stage start deeds) ms := (inTurn_snoc.mp h).2
      rw [mapped_snoc_mark (hs ▸ hm)]
      unfold Mapped
      generalize stage start deeds = before at hfollows
      rcases Deed.mark_entry hm with rfl | rfl | rfl
      all_goals
        cases hfollows
        simp
    · exact mapped_append (by rw [hcourse, if_neg hs])

theorem mapped_entries {deeds : List Deed} {es : List JournalEntry} {start : Nat}
    (h : Legal (course start (deeds ++ es.map .entry))) :
    Mapped start (deeds ++ es.map .entry) ↔ Mapped start deeds := by
  induction es using List.reverseRecOn with
  | nil => rw [List.map_nil, List.append_nil]
  | append_singleton es e ih =>
    rw [List.map_append, List.map_singleton, ← List.append_assoc] at h ⊢
    rw [mapped_snoc_entry h]
    exact ih (by rw [course_append] at h; exact h.left)

/-! ### What a step changes -/

theorem getElem?_set_some {α : Type} {l : List α} {i k : Nat} {x y : α}
    (h : (l.set i x)[k]? = some y) : (k = i ∧ y = x) ∨ (k ≠ i ∧ l[k]? = some y) := by
  rw [List.getElem?_set] at h
  split at h
  · rename_i heq
    split at h
    · cases h
      exact .inl ⟨heq.symm, rfl⟩
    · cases h
  · rename_i hne
    exact .inr ⟨fun heq => hne heq.symm, h⟩

theorem getElem?_concat_some {α : Type} {l : List α} {k : Nat} {x y : α}
    (h : (l ++ [x])[k]? = some y) : (k < l.length ∧ l[k]? = some y) ∨ (k = l.length ∧ y = x) := by
  rcases Nat.lt_or_ge k l.length with hk | hk
  · rw [List.getElem?_append_left hk] at h
    exact .inl ⟨hk, h⟩
  · rw [List.getElem?_append_right hk, List.getElem?_singleton] at h
    split at h
    · cases h
      exact .inr ⟨by omega, rfl⟩
    · cases h

namespace Floor

variable [Paging π] [Bytewise π] {f f' f₀ : Floor π γ}

/-- What a step changes of the calls, the gates and the log. -/
inductive Shift (f f' : Floor π γ) : Prop
  | called {h : Handle} {intent : Intent} (hh : h ∈ f.handles)
      (hcalls : f'.calls = f.calls ++ [Call.begin h intent])
      (hgates : f'.worker.gates = f.worker.gates) (hlog : f'.log = f.log)
  | advanced {c : Nat} {call : Call} {progress : Progress} {site : Site π γ} {events : List Event}
      (hcall : f.calls[c]? = some call)
      (hstep : Call.Step c f.gone (f.held call.handle.gate) call.handle f.worker.toSite
        call.progress progress site events)
      (hcalls : f'.calls = f.calls.set c { call with progress })
      (hgates : f'.worker.gates = site.gates) (hlog : f'.log = f.log ++ events)
  | retired {number : Nat} (hcalls : f'.calls = f.calls)
      (hgates : f'.worker.gates = f.worker.gates.modify number Gate.retire) (hlog : f'.log = f.log)
  | noted {es : List JournalEntry} (hcalls : f'.calls = f.calls)
      (hgates : f'.worker.gates = f.worker.gates)
      (hlog : f'.log = f.log ++ (es.map Deed.entry).map .deed)
  | turned {start number : Nat} {t : GateTurn} (hfree : t = .retire → f.held number = false)
      (hcalls : f'.calls = f.calls)
      (hgates : f'.worker.gates = f.worker.gates.modify number t.apply)
      (hlog : f'.log = f.log ++ [.deed (.turn start number t)])

theorem Next.shift (h : Next f f') (hf : f.Attends O) : Shift f f' := by
  have hquiet : f'.calls = f.calls → f'.worker.gates = f.worker.gates → f'.log = f.log →
      Shift f f' :=
    fun hcalls hgates hlog =>
      @Shift.noted _ _ _ _ _ [] hcalls hgates (by rw [hlog]; exact (List.append_nil _).symm)
  have hpart : ∀ {β : Type} {task : Task γ} {step : WorkerM π γ β} {next : β → Errand π γ Flow},
      f.duty = .busy task (.part step next) → ∀ w, Worker.Accounts step w := by
    intro β task step next hduty
    unfold Attends at hf
    rw [hduty] at hf
    exact hf.1.1
  have hnews : ∀ {w : Worker π γ} {es : List JournalEntry}, Accounted f.worker w es →
      f.log ++ f.news w = f.log ++ (es.map Deed.entry).map .deed := by
    intro w es hes
    unfold news
    rw [hes.journal, List.drop_left]
  cases h with
  | called hh => exact .called hh rfl rfl rfl
  | advanced hcall hstep => exact .advanced hcall (Call.step_of_advance hstep) rfl rfl rfl
  | requested hsite =>
    cases hsite with
    | exchange => exact hquiet rfl rfl rfl
    | retire => exact .retired rfl rfl rfl
  | gaveUp => exact hquiet rfl rfl rfl
  | took => exact hquiet rfl rfl rfl
  | evicts => exact hquiet rfl rfl rfl
  | fails => exact hquiet rfl rfl rfl
  | finished => exact hquiet rfl rfl rfl
  | parted hduty hact =>
    obtain ⟨es, hes⟩ := (hpart hduty f.worker).of_ok hact
    exact .noted rfl hes.gates (hnews hes)
  | failed hduty hact =>
    obtain ⟨es, hes⟩ := (hpart hduty f.worker).of_error hact
    exact .noted rfl hes.gates (hnews hes)
  | turned hduty hfree => exact .turned hfree rfl rfl rfl

/-- The handles stay, and calls are made with them. -/
theorem Next.handles (h : Next f f') (hf : ∀ call ∈ f.calls, call.handle ∈ f.handles) :
    f'.handles = f.handles ∧ ∀ call ∈ f'.calls, call.handle ∈ f'.handles := by
  cases h with
  | @called h intent hh =>
    refine ⟨rfl, fun call hcall => ?_⟩
    rcases List.mem_append.mp hcall with hcall | hcall
    · exact hf call hcall
    · rw [List.mem_singleton.mp hcall]
      cases intent <;> exact hh
  | @advanced c call progress site events hcall =>
    refine ⟨rfl, fun call' hcall' => ?_⟩
    rcases List.mem_or_eq_of_mem_set hcall' with hcall' | rfl
    · exact hf call' hcall'
    · exact hf call (List.mem_of_getElem? hcall)
  | requested => exact ⟨rfl, hf⟩
  | gaveUp => exact ⟨rfl, hf⟩
  | took => exact ⟨rfl, hf⟩
  | evicts => exact ⟨rfl, hf⟩
  | fails => exact ⟨rfl, hf⟩
  | finished => exact ⟨rfl, hf⟩
  | parted => exact ⟨rfl, hf⟩
  | failed => exact ⟨rfl, hf⟩
  | turned => exact ⟨rfl, hf⟩

theorem Reaches.handles (h : Reaches f₀ f) (h₀ : f₀.Opens) :
    f.handles = f₀.handles ∧ ∀ call ∈ f.calls, call.handle ∈ f.handles := by
  induction h with
  | refl => exact ⟨rfl, fun call hcall => by rw [h₀.calls] at hcall; cases hcall⟩
  | step _ hmove ih =>
    obtain ⟨heq, hmem⟩ := (next_of_move hmove).handles ih.2
    exact ⟨heq.trans ih.1, hmem⟩

/-- Every call is about one of the objects. -/
theorem Reaches.object (h : Reaches f₀ f) (h₀ : f₀.Opens) {call : Call} (hcall : call ∈ f.calls) :
    ∃ e ∈ f₀.worker.objects.toList, e.start = call.handle.start ∧
      e.value.gate = call.handle.gate := by
  obtain ⟨heq, hmem⟩ := h.handles h₀
  obtain ⟨e, he, hstart, -, -, hgate⟩ := h₀.handles call.handle (heq ▸ hmem call hcall)
  exact ⟨e, he, hstart, hgate⟩

/-! ### What the gates tell -/

end Floor

theorem Gate.unmapping_modify {g : Gate → Gate} (hg : ∀ x, (g x).unmapping = x.unmapping)
    (gates : List Gate) (number n : Nat) :
    (gates.modify number g)[n]?.map Gate.unmapping = gates[n]?.map Gate.unmapping := by
  rw [List.getElem?_modify]
  cases gates[n]? with
  | none => rfl
  | some x =>
    show some (if number = n then g x else x).unmapping = some x.unmapping
    split
    · rw [hg]
    · rfl

/-- Callers never say that memory is being unmapped, and never that it is not. -/
theorem Call.Step.unmapping [Bytewise π] {number : Nat} {gone held : Bool} {h : Handle}
    {s s' : Site π γ} {before after : Progress} {events : List Event}
    (hstep : Step number gone held h s before after s' events) (n : Nat) :
    s'.gates[n]?.map Gate.unmapping = s.gates[n]?.map Gate.unmapping := by
  cases hstep with
  | retires => exact Gate.unmapping_modify (g := Gate.retire) (fun _ => rfl) ..
  | revives => exact Gate.unmapping_modify (g := Gate.revive) (fun _ => rfl) ..
  | _ => rfl

namespace Floor

variable [Paging π] [Bytewise π] {f f' f₀ : Floor π γ}

omit [Paging π] [Bytewise π] in
/-- The gate of every object says that the memory is being unmapped exactly while the object
is not mapped. -/
def Tells (O : List (Interval (Object γ))) (f : Floor π γ) : Prop :=
  ∀ e ∈ O, ∃ unmapping, f.worker.gates[e.value.gate]?.map Gate.unmapping = some unmapping ∧
    (unmapping = false ↔ Mapped e.start (deedsOf f.log))

omit [Paging π] in
theorem Shift.tells (h : Shift f f') (hlawful : Lawful O (deedsOf f'.log))
    (hstarts : ∀ e ∈ O, ∀ e' ∈ O, e.start = e'.start → e = e')
    (hnumbers : ∀ e ∈ O, ∀ e' ∈ O, e.value.gate = e'.value.gate → e = e') (hf : f.Tells O) :
    f'.Tells O := by
  intro e he
  obtain ⟨unmapping, hflag, htells⟩ := hf e he
  have hkeep : f'.worker.gates[e.value.gate]?.map Gate.unmapping =
        f.worker.gates[e.value.gate]?.map Gate.unmapping →
      (Mapped e.start (deedsOf f'.log) ↔ Mapped e.start (deedsOf f.log)) →
      ∃ unmapping, f'.worker.gates[e.value.gate]?.map Gate.unmapping = some unmapping ∧
        (unmapping = false ↔ Mapped e.start (deedsOf f'.log)) :=
    fun hgate hmapped => ⟨unmapping, hgate.trans hflag, htells.trans hmapped.symm⟩
  cases h with
  | called hh hcalls hgates hlog => exact hkeep (by rw [hgates]) (by rw [hlog])
  | advanced hcall hstep hcalls hgates hlog =>
    refine hkeep (by rw [hgates]; exact hstep.unmapping _) ?_
    rw [hlog, deedsOf_append, hstep.deeds, List.append_nil]
  | retired hcalls hgates hlog =>
    refine hkeep ?_ (by rw [hlog])
    rw [hgates]
    exact Gate.unmapping_modify (g := Gate.retire) (fun _ => rfl) ..
  | noted hcalls hgates hlog =>
    refine hkeep (by rw [hgates]) ?_
    have hlegal := hlawful.legal e.start
    rw [hlog, deedsOf_append, deedsOf_deeds] at hlegal ⊢
    exact mapped_entries hlegal
  | @turned start number t hfree hcalls hgates hlog =>
    have hmem : Deed.turn start number t ∈ deedsOf f'.log := by
      rw [hlog, deedsOf_append]
      exact List.mem_append_right _ (List.mem_singleton_self _)
    obtain ⟨e', he', rfl, rfl⟩ := hlawful.turns _ _ _ hmem
    have hdeeds : deedsOf f'.log = deedsOf f.log ++ [.turn e'.start e'.value.gate t] := by
      rw [hlog, deedsOf_append]
      rfl
    have hmilestone : course e.start [.turn e'.start e'.value.gate t] =
        if e'.start = e.start then [t.milestone] else [] := course_of_mark rfl
    by_cases heq : e' = e
    · subst heq
      obtain ⟨g, hg, rfl⟩ := Option.map_eq_some_iff.mp hflag
      have hlegal := hlawful.legal e'.start
      rw [hdeeds, course_append, hmilestone, if_pos rfl] at hlegal
      have hfollows : Milestone.Follows (stage e'.start (deedsOf f.log)) t.milestone :=
        (inTurn_snoc.mp hlegal).2
      refine ⟨(t.apply g).unmapping, ?_, ?_⟩
      · rw [hgates, List.getElem?_modify_eq, hg]
        rfl
      · rw [hdeeds, mapped_snoc_mark rfl]
        unfold Mapped at htells
        cases t with
        | beginUnmap => simp [GateTurn.apply, Gate.beginUnmap, GateTurn.milestone]
        | abortUnmap => simp [GateTurn.apply, Gate.abortUnmap, GateTurn.milestone]
        | retire =>
          show g.unmapping = false ↔ _
          rw [htells]
          generalize stage e'.start (deedsOf f.log) = before at hfollows
          cases hfollows
          simp [GateTurn.milestone]
    · refine hkeep ?_ ?_
      · have hne : e'.value.gate ≠ e.value.gate := fun h => heq (hnumbers e' he' e he h)
        rw [hgates, List.getElem?_modify_ne _ _ hne]
      · rw [hdeeds]
        refine mapped_append ?_
        rw [hmilestone, if_neg fun h => heq (hstarts e' he' e he h)]

/-- **The gates tell at any time which objects are mapped.** -/
theorem Reaches.tells (h : Reaches f₀ f) (h₀ : f₀.Opens) : f.Tells f₀.worker.objects.toList := by
  induction h with
  | refl =>
    intro e he
    obtain ⟨g, hg, hmapped⟩ := h₀.gates e he
    refine ⟨g.unmapping, by rw [hg]; rfl, fun _ => .inl ?_, fun _ => hmapped⟩
    rw [h₀.log]
    rfl
  | step hreach hmove ih =>
    have hnext := next_of_move hmove
    have hf := hreach.attends h₀
    refine (hnext.shift hf).tells (hnext.attends hf).lawful ?_ h₀.distinct ih
    exact fun e he e' he' heq => h₀.sound.eq_of_start he he' heq

/-! ### Gates that the worker has retired -/

end Floor

theorem Site.gate_of_getElem? {s : Site π γ} {number : Nat} {g : Gate}
    (h : s.gates[number]? = some g) : s.gate number = g := by
  unfold gate
  rw [List.getD_eq_getElem?_getD, h]
  rfl

/-- The worker has retired the gate of a number, and nobody has revived it since. -/
def Sealed (number : Nat) (log : List Event) : Prop :=
  ∃ before start after, log = before ++ .deed (.turn start number .retire) :: after ∧
    ∀ call, .revived call number ∉ after

/-- A gate that is sealed now was sealed before, or its retirement is new. -/
theorem Sealed.before {number : Nat} {log new : List Event} (h : Sealed number (log ++ new)) :
    (Sealed number log ∧ ∀ call, .revived call number ∉ new) ∨
      ∃ start, .deed (.turn start number .retire) ∈ new := by
  obtain ⟨before, start, after, heq, hafter⟩ := h
  rcases List.append_eq_append_iff.mp heq with ⟨mid, rfl, hnew⟩ | ⟨mid, rfl, hmid⟩
  · refine .inr ⟨start, ?_⟩
    rw [hnew]
    simp
  · cases mid with
    | nil =>
      refine .inr ⟨start, ?_⟩
      rw [List.nil_append] at hmid
      rw [← hmid]
      simp
    | cons x mid =>
      obtain ⟨rfl, rfl⟩ := List.cons_eq_cons.mp hmid
      refine .inl ⟨⟨before, start, mid, rfl, fun call h => ?_⟩, fun call h => ?_⟩
      · exact hafter call (List.mem_append_left _ h)
      · exact hafter call (List.mem_append_right _ h)

/-- How a call begins. -/
theorem Call.begin_eq (h : Handle) (intent : Intent) :
    (∃ cells, begin h intent = ⟨h, .arriving cells⟩) ∨
      (∃ cause, begin h intent = ⟨h, .accessed (.error cause)⟩) ∨
        begin h intent = ⟨h, .destroying⟩ := by
  cases intent with
  | read region offset len =>
    unfold begin
    dsimp only
    cases h.permit region false offset len with
    | error cause => exact .inr (.inl ⟨_, rfl⟩)
    | ok => exact .inl ⟨_, rfl⟩
  | write region offset bytes =>
    unfold begin
    dsimp only
    cases h.permit region true offset bytes.length with
    | error cause => exact .inr (.inl ⟨_, rfl⟩)
    | ok => exact .inl ⟨_, rfl⟩
  | destroy => exact .inr (.inr rfl)

/-- A call that holds a gate after a step has held it before, or has found it alive. -/
theorem Call.Step.holds [Bytewise π] {number n : Nat} {gone held : Bool} {h : Handle}
    {s s' : Site π γ} {before after : Progress} {events : List Event}
    (hstep : Step number gone held h s before after s' events)
    (hholds : (⟨h, after⟩ : Call).holds n = true) :
    (⟨h, before⟩ : Call).holds n = true ∨ h.gate = n ∧ (s.gate h.gate).alive = true := by
  unfold Call.holds at hholds
  rw [Bool.and_eq_true, beq_iff_eq] at hholds
  obtain ⟨rfl, hholds⟩ := hholds
  cases hstep with
  | enters halive => exact .inr ⟨rfl, halive⟩
  | loads => exact .inl (by simp [Call.holds])
  | stores => exact .inl (by simp [Call.holds])
  | copied => exact .inl (by simp [Call.holds])
  | asked => exact .inl (by simp [Call.holds])
  | _ => cases hholds

/-- The gate of a number is not alive, if there is one. -/
def Dead (number : Nat) (gates : List Gate) : Prop := ∀ g ∈ gates[number]?, g.alive = false

namespace Dead

variable {number : Nat} {gates : List Gate}

theorem modify (h : Dead number gates) {g : Gate → Gate}
    (hg : ∀ x : Gate, x.alive = false → (g x).alive = false) (n : Nat) :
    Dead number (gates.modify n g) := by
  intro x hx
  rw [List.getElem?_modify] at hx
  obtain ⟨y, hy, rfl⟩ := Option.map_eq_some_iff.mp hx
  split
  · exact hg y (h y hy)
  · exact h y hy

theorem retire (h : Dead number gates) (n : Nat) : Dead number (gates.modify n Gate.retire) :=
  h.modify (fun _ _ => rfl) n

/-- The worker makes no gate alive. -/
theorem turn (h : Dead number gates) (n : Nat) (t : GateTurn) :
    Dead number (gates.modify n t.apply) := by
  refine h.modify (fun x hx => ?_) n
  cases t with
  | retire => rfl
  | beginUnmap => exact hx
  | abortUnmap => exact hx

/-- A gate that is retired is not alive. -/
theorem of_retire : Dead number (gates.modify number Gate.retire) := by
  intro x hx
  rw [List.getElem?_modify_eq] at hx
  obtain ⟨y, -, rfl⟩ := Option.map_eq_some_iff.mp hx
  rfl

theorem gate {s : Site π γ} (h : Dead number s.gates) : (s.gate number).alive = false := by
  cases hx : s.gates[number]? with
  | none =>
    unfold Site.gate
    rw [List.getD_eq_getElem?_getD, hx]
    rfl
  | some x =>
    rw [Site.gate_of_getElem? hx]
    exact h x hx

end Dead

/-- A gate that is not alive comes to life when a call revives it. -/
theorem Call.Step.dead [Bytewise π] {number n : Nat} {gone held : Bool} {h : Handle}
    {s s' : Site π γ} {before after : Progress} {events : List Event}
    (hstep : Step number gone held h s before after s' events)
    (hnone : ∀ call, .revived call n ∉ events) (hs : Dead n s.gates) : Dead n s'.gates := by
  cases hstep with
  | retires => exact hs.retire h.gate
  | revives =>
    have hne : h.gate ≠ n := fun heq => hnone number (heq ▸ List.mem_singleton_self _)
    intro x hx
    exact hs x ((List.getElem?_modify_ne _ _ hne).symm.trans hx)
  | _ => exact hs

namespace Floor

variable [Paging π] [Bytewise π] {f f' f₀ : Floor π γ}

omit [Paging π] [Bytewise π] in
theorem held_eq_false {number : Nat} :
    f.held number = false ↔ ∀ call ∈ f.calls, call.holds number = false := by
  unfold held
  rw [List.any_eq_false]
  simp

omit [Paging π] [Bytewise π] in
/-- The gate of a number is not alive, and nobody holds it. -/
def Shut (number : Nat) (f : Floor π γ) : Prop :=
  Dead number f.worker.gates ∧ f.held number = false

omit [Paging π] in
/-- A shut gate stays shut until a call revives it. -/
theorem Shift.shut {number : Nat} {new : List Event} (h : Shift f f')
    (hnew : f'.log = f.log ++ new) (hnone : ∀ call, .revived call number ∉ new)
    (hf : f.Shut number) : f'.Shut number := by
  obtain ⟨hdead, hfree⟩ := hf
  have hsame : f'.calls = f.calls → f'.held number = false := by
    intro hcalls
    unfold held at hfree ⊢
    rw [hcalls]
    exact hfree
  cases h with
  | @called h intent hh hcalls hgates hlog =>
    refine ⟨hgates ▸ hdead, held_eq_false.mpr fun call hcall => ?_⟩
    rw [hcalls] at hcall
    rcases List.mem_append.mp hcall with hcall | hcall
    · exact held_eq_false.mp hfree call hcall
    · rw [List.mem_singleton.mp hcall]
      rcases Call.begin_eq h intent with ⟨_, heq⟩ | ⟨_, heq⟩ | heq
      all_goals
        rw [heq]
        exact Bool.and_false _
  | @advanced c call progress site events hcall hstep hcalls hgates hlog =>
    obtain rfl : events = new := List.append_cancel_left (hlog.symm.trans hnew)
    refine ⟨hgates ▸ hstep.dead hnone hdead, held_eq_false.mpr fun call' hcall' => ?_⟩
    rw [hcalls] at hcall'
    rcases List.mem_or_eq_of_mem_set hcall' with hcall' | rfl
    · exact held_eq_false.mp hfree call' hcall'
    · rw [← Bool.not_eq_true]
      intro hholds
      rcases hstep.holds hholds with hbefore | ⟨rfl, halive⟩
      · rw [held_eq_false.mp hfree call (List.mem_of_getElem? hcall)] at hbefore
        cases hbefore
      · rw [hdead.gate] at halive
        cases halive
  | retired hcalls hgates hlog => exact ⟨hgates ▸ hdead.retire _, hsame hcalls⟩
  | noted hcalls hgates hlog => exact ⟨hgates ▸ hdead, hsame hcalls⟩
  | turned hfree' hcalls hgates hlog => exact ⟨hgates ▸ hdead.turn _ _, hsame hcalls⟩

omit [Paging π] in
theorem Shift.log (h : Shift f f') : ∃ new, f'.log = f.log ++ new := by
  cases h with
  | called hh hcalls hgates hlog => exact ⟨[], by rw [hlog, List.append_nil]⟩
  | advanced hcall hstep hcalls hgates hlog => exact ⟨_, hlog⟩
  | retired hcalls hgates hlog => exact ⟨[], by rw [hlog, List.append_nil]⟩
  | noted hcalls hgates hlog => exact ⟨_, hlog⟩
  | turned hfree hcalls hgates hlog => exact ⟨_, hlog⟩

omit [Paging π] in
/-- The worker shuts a gate when it retires it. -/
theorem Shift.retires {start number : Nat} {new : List Event} (h : Shift f f')
    (hnew : f'.log = f.log ++ new) (hmem : .deed (.turn start number .retire) ∈ new) :
    f'.Shut number := by
  have hdeed : Deed.turn start number .retire ∈ deedsOf new := List.mem_filterMap.mpr ⟨_, hmem, rfl⟩
  have hdeeds : ∀ new', f'.log = f.log ++ new' → Deed.turn start number .retire ∈ deedsOf new' :=
    fun new' heq => List.append_cancel_left (hnew.symm.trans heq) ▸ hdeed
  cases h with
  | called hh hcalls hgates hlog => cases hdeeds [] (by rw [hlog, List.append_nil])
  | advanced hcall hstep hcalls hgates hlog =>
    have hdeed := hdeeds _ hlog
    rw [hstep.deeds] at hdeed
    cases hdeed
  | retired hcalls hgates hlog => cases hdeeds [] (by rw [hlog, List.append_nil])
  | noted hcalls hgates hlog =>
    have hdeed := hdeeds _ hlog
    rw [deedsOf_deeds] at hdeed
    obtain ⟨e, -, heq⟩ := List.mem_map.mp hdeed
    cases heq
  | turned hfree hcalls hgates hlog =>
    cases List.mem_singleton.mp (hdeeds _ hlog)
    refine ⟨hgates ▸ Dead.of_retire, ?_⟩
    unfold held at hfree ⊢
    rw [hcalls]
    exact hfree rfl

/-- **A gate that the worker has retired is shut until a call revives it.** -/
theorem Reaches.sealed {number : Nat} (h : Reaches f₀ f) (h₀ : f₀.Opens)
    (hsealed : Sealed number f.log) : f.Shut number := by
  induction h with
  | refl =>
    obtain ⟨before, start, after, heq, -⟩ := hsealed
    rw [h₀.log] at heq
    simp at heq
  | step hreach hmove ih =>
    have hshift := (next_of_move hmove).shift (hreach.attends h₀)
    obtain ⟨new, hnew⟩ := hshift.log
    rw [hnew] at hsealed
    rcases hsealed.before with ⟨hbefore, hnone⟩ | ⟨start, hmem⟩
    · exact hshift.shut hnew hnone (ih hbefore)
    · exact hshift.retires hnew hmem

end Floor

end DemandPager
