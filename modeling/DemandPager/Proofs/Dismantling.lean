/-
# The conduct of the teardown

The teardown releases the objects on the books, gives up those that were refused, and
answers what is queued. Whatever other threads do between its parts, in the end every
object was released, or the accesses to it were not let go and its gate says for good that
its memory is being unmapped; and every destructor has run once
(`Worker.shutdownErrand_ensures`).

Key definitions: `Bars`, `Reduced`, `GivenUp`, `Dismantled`.
Key theorems: `Worker.freeAllErrand_ensures`, `Worker.abandonAllErrand_ensures`,
`Worker.shutdownErrand_ensures`.
-/
import DemandPager.Proofs.Conduct

namespace DemandPager

variable {π γ α : Type} {O : List (Interval (Object γ))} {S : Nat → Prop}

/-! ### Lists of objects -/

/-- The ids of the objects whose destructors are to run. -/
def farewells (entries : List (Interval (Object γ))) : List Nat :=
  entries.filterMap fun e => if e.value.callbacks.destructor.isSome then some e.value.id else none

theorem destructors_givingBack (e : Interval (Object γ)) (result : Except PagerError Unit) :
    (e.givingBack result).filterMap Deed.destructor? = farewells [e] := by
  unfold Interval.givingBack Object.farewell farewells
  cases hd : e.value.callbacks.destructor.isSome with
  | true => simp only [hd, if_true, List.filterMap_cons, List.filterMap_nil]; rfl
  | false => simp only [hd, Bool.false_eq_true, if_false, List.filterMap_cons]; rfl

/-! ### Barred gates -/

/-- The gate of a number was retired, or it says for good that memory is being unmapped. -/
def Bars (number : Nat) (deeds : List Deed) : Prop :=
  ∃ before after start t, deeds = before ++ .turn start number t :: after ∧
    (t = .retire ∨
      t = .beginUnmap ∧ ∀ start', Deed.turn start' number .abortUnmap ∉ after)

theorem Bars.append {number : Nat} {deeds new : List Deed} (h : Bars number deeds)
    (hnew : ∀ start, Deed.turn start number .abortUnmap ∉ new) : Bars number (deeds ++ new) := by
  obtain ⟨before, after, start, t, rfl, ht⟩ := h
  refine ⟨before, after ++ new, start, t, by simp, ht.imp_right fun ht => ⟨ht.1, fun s hs => ?_⟩⟩
  exact (List.mem_append.mp hs).elim (ht.2 s) (hnew s)

theorem bars_of_retire {number start : Nat} {deeds : List Deed}
    (h : .turn start number .retire ∈ deeds) : Bars number deeds := by
  obtain ⟨before, after, rfl⟩ := List.append_of_mem h
  exact ⟨before, after, start, .retire, rfl, .inl rfl⟩

/-! ### Releasing all objects -/

/-- Some objects were released, the others stay. -/
structure Reduced (m m' : Moment γ) : Prop where
  objects : ∀ e ∈ m'.desk.objects.toList, e ∈ m.desk.objects.toList
  gone : ∀ e ∈ m.desk.objects.toList, e ∈ m'.desk.objects.toList ∨
    (stage e.start m'.deeds = some .released ∧ .turn e.start e.value.gate .retire ∈ m'.deeds)
  course : ∀ s, (∀ e ∈ m.desk.objects.toList, e.start ≠ s) →
    course s m'.deeds = course s m.deeds
  deeds : ∃ new, m'.deeds = m.deeds ++ new
  destructors : (m'.deeds.filterMap Deed.destructor? ++ farewells m'.desk.objects.toList).Perm
    (m.deeds.filterMap Deed.destructor? ++ farewells m.desk.objects.toList)

theorem Reduced.refl (m : Moment γ) : Reduced m m :=
  ⟨fun _ h => h, fun _ h => .inl h, fun _ _ => rfl, ⟨[], (List.append_nil _).symm⟩, .refl _⟩

theorem Reduced.trans {m m' m'' : Moment γ} (hm : m.desk.objects.Sound) (h : Reduced m m')
    (h' : Reduced m' m'') : Reduced m m'' where
  objects := fun e he => h.objects e (h'.objects e he)
  gone := fun e he => by
    by_cases hleft : e ∈ m'.desk.objects.toList
    · exact h'.gone e hleft
    · obtain ⟨hstage, hturn⟩ := (h.gone e he).resolve_left hleft
      obtain ⟨new, hnew⟩ := h'.deeds
      refine .inr ⟨?_, hnew ▸ List.mem_append_left _ hturn⟩
      -- No object that was left lies where the released one lay.
      have hcourse := h'.course e.start fun x hx heq =>
        hleft (hm.eq_of_start (h.objects x hx) he heq ▸ hx)
      unfold stage at hstage ⊢
      rw [hcourse]
      exact hstage
  course := fun s hs => (h'.course s fun e he => hs e (h.objects e he)).trans (h.course s hs)
  deeds := by
    obtain ⟨new, hnew⟩ := h.deeds
    obtain ⟨new', hnew'⟩ := h'.deeds
    exact ⟨new ++ new', by rw [hnew', hnew, List.append_assoc]⟩
  destructors := h'.destructors.trans h.destructors

/-- Off the books goes what the destructor tells. -/
theorem Gone.destructors {e : Interval (Object γ)} {m m' : Moment γ} (h : Gone e m m') :
    m'.deeds.filterMap Deed.destructor? =
      m.deeds.filterMap Deed.destructor? ++ farewells [e] := by
  obtain ⟨quiet, result, hquiet, hdeeds⟩ := h.deeds
  rw [hdeeds, List.filterMap_append, List.filterMap_append, List.filterMap_append,
    destructors_mute hquiet, destructors_givingBack]
  simp [Interval.lettingGo, Deed.destructor?]

theorem Gone.reduced {e : Interval (Object γ)} {m m' : Moment γ} (h : Gone e m m')
    (hm : m.desk.objects.Sound) (he : e ∈ m.desk.objects.toList) : Reduced m m' where
  objects := fun x hx => by
    rw [h.objects] at hx
    exact List.mem_of_mem_filter hx
  gone := fun x hx => by
    by_cases heq : x.start = e.start
    · obtain rfl := hm.eq_of_start hx he heq
      refine .inr ⟨?_, ?_⟩
      · unfold stage
        rw [h.course, if_pos rfl]
        simp
      · obtain ⟨quiet, result, -, hdeeds⟩ := h.deeds
        rw [hdeeds]
        simp [Interval.lettingGo]
    · rw [h.objects]
      exact .inl (List.mem_filter.mpr ⟨hx, decide_eq_true heq⟩)
  course := fun s hs => by rw [h.course, if_neg (hs e he), List.append_nil]
  deeds := by
    obtain ⟨quiet, result, -, hdeeds⟩ := h.deeds
    exact ⟨_, by rw [hdeeds, List.append_assoc, List.append_assoc]⟩
  destructors := by
    have hperm : (farewells (e :: m'.desk.objects.toList)).Perm
        (farewells m.desk.objects.toList) := by
      rw [h.objects]
      exact (perm_of_mem hm.starts_ne he).filterMap _
    rw [h.destructors, List.append_assoc]
    refine List.Perm.append_left _ ?_
    unfold farewells at hperm ⊢
    rw [← List.filterMap_append]
    exact hperm

theorem Declined.reduced {start : Nat} {m m' : Moment γ} (h : Declined start m m') :
    Reduced m m' := by
  obtain ⟨new, hnew, hdestructors⟩ : ∃ new, m'.deeds = m.deeds ++ new ∧
      new.filterMap Deed.destructor? = [] := by
    obtain ⟨quiet, hquiet, hdeeds | ⟨e, -, -, cause, hdeeds⟩⟩ := h.deeds
    · exact ⟨quiet, hdeeds, destructors_mute hquiet⟩
    · refine ⟨quiet ++ e.refusal cause, hdeeds.trans (List.append_assoc ..), ?_⟩
      rw [List.filterMap_append, destructors_mute hquiet]
      simp [Interval.refusal, Deed.destructor?]
  refine ⟨fun e he => h.objects ▸ he, fun e he => .inl (h.objects ▸ he), fun s hs => ?_,
    ⟨new, hnew⟩, ?_⟩
  · rcases h.course s with heq | ⟨⟨e, he, heq⟩, -, -⟩
    · exact heq
    · exact absurd heq (hs e he)
  · rw [hnew, List.filterMap_append, hdestructors, List.append_nil, h.objects]

namespace Worker

variable [Paging π] {m₀ m : Moment γ}

theorem freeAllErrand_ensures : ∀ (entries : List (Interval (Object γ))) (m : Moment γ),
    Within O (fun _ => True) m₀ m → Standing O m →
    (freeAllErrand entries : Errand π γ Unit).Ensures (Within O (fun _ => True) m₀)
      (fun _ m' => Within O (fun _ => True) m₀ m' ∧ Standing O m' ∧ Reduced m m')
      (fun _ m' => Within O (fun _ => True) m₀ m') m
  | [], m, hm, hstanding => ⟨hm, hstanding, .refl m⟩
  | e :: rest, m, hm, hstanding => by
    have hrest : ∀ m', Within O (fun _ => True) m₀ m' → Standing O m' → Reduced m m' →
        (freeAllErrand rest : Errand π γ Unit).Ensures (Within O (fun _ => True) m₀)
          (fun _ m' => Within O (fun _ => True) m₀ m' ∧ Standing O m' ∧ Reduced m m')
          (fun _ m' => Within O (fun _ => True) m₀ m') m' := fun m' hm' hstanding' hreduced =>
      (freeAllErrand_ensures rest m' hm' hstanding').mono (fun _ h => h)
        (fun _ _ h => ⟨h.1, h.2.1, hreduced.trans hstanding.sound h.2.2⟩) fun _ _ h => h
    unfold freeAllErrand
    rw [Errand.ensures_bind, Errand.ensures_attempt]
    refine (freeErrand_ensures trivial hm hstanding).mono (fun _ h => h) ?_ ?_
    · rintro _ m' ⟨hm', hstanding', x, hx, -, -, hgone⟩
      exact hrest m' hm' hstanding' (hgone.reduced hstanding.sound hx)
    · rintro f m' ⟨hm', herror⟩
      refine ⟨fun cause hf => ?_, fun _ _ => hm'⟩
      obtain ⟨hstanding', hdeclined⟩ := herror cause hf
      exact hrest m' hm' hstanding' hdeclined.reduced

end Worker

/-! ### Giving objects up -/

/-- What is done when an object whose accesses are not let go is given up. -/
def Interval.leaking (e : Interval (Object γ)) (cause : PagerError) : List Deed :=
  [.turn e.start e.value.gate .beginUnmap, .entry (.unregister e.start e.len (.error cause))] ++
    e.value.farewell.map .entry

theorem course_leaking (e : Interval (Object γ)) (cause : PagerError) (start : Nat) :
    course start (e.leaking cause) = if e.start = start then [.begun, .refused] else [] := by
  unfold Interval.leaking Object.farewell course
  by_cases h : e.start = start <;> split <;> simp [Deed.mark?, GateTurn.milestone, h]

theorem handedOver_leaking (e : Interval (Object γ)) (cause : PagerError) (deeds : List Deed) :
    HandedOver (deeds ++ e.leaking cause) := by
  unfold Interval.leaking Object.farewell
  split
  · exact handedOver_append rfl rfl
  · exact handedOver_append rfl rfl

/-- What is done when an object is given up. -/
def Interval.Surrenders (e : Interval (Object γ)) (new : List Deed) : Prop :=
  (∃ result, new = e.lettingGo ++ e.givingBack result) ∨ ∃ cause, new = e.leaking cause

/-- An object that is given up was released, or the accesses to it were not let go. Its
gate is barred and its destructor has run. -/
structure GivenUp (entries : List (Interval (Object γ))) (m m' : Moment γ) : Prop where
  desk : m'.desk = m.desk
  ended : ∀ e ∈ entries, stage e.start m'.deeds = some .released ∨
    stage e.start m'.deeds = some .refused
  course : ∀ s, (∀ e ∈ entries, e.start ≠ s) → course s m'.deeds = course s m.deeds
  late : ∃ new, m'.deeds = m.deeds ++ new ∧ (∀ e ∈ entries, Bars e.value.gate new) ∧
    ∀ start number, .turn start number .abortUnmap ∉ new
  destructors : m'.deeds.filterMap Deed.destructor? =
    m.deeds.filterMap Deed.destructor? ++ farewells entries

theorem Interval.Surrenders.givenUp {e : Interval (Object γ)} {new : List Deed}
    (h : e.Surrenders new) {m m' : Moment γ} (hdesk : m'.desk = m.desk)
    (hdeeds : m'.deeds = m.deeds ++ new) : GivenUp [e] m m' := by
  have hcourse : ∀ s, course s m'.deeds = course s m.deeds ++ course s new := fun s => by
    rw [hdeeds, course_append]
  have hdestructors : new.filterMap Deed.destructor? = farewells [e] := by
    rcases h with ⟨result, rfl⟩ | ⟨cause, rfl⟩
    · rw [List.filterMap_append, destructors_givingBack]
      rfl
    · exact destructors_givingBack e (.ok ())
  refine ⟨hdesk, fun x hx => ?_, fun s hs => ?_,
    ⟨new, hdeeds, fun x hx => ?_, fun s number => ?_⟩, ?_⟩
  · rw [List.mem_singleton.mp hx]
    unfold stage
    rw [hcourse]
    rcases h with ⟨result, rfl⟩ | ⟨cause, rfl⟩
    · rw [course_append, course_lettingGo, course_givingBack, if_pos rfl, if_pos rfl]
      exact .inl (by simp)
    · rw [course_leaking, if_pos rfl]
      exact .inr (by simp)
  · have hne := hs e (List.mem_singleton.mpr rfl)
    rw [hcourse]
    rcases h with ⟨result, rfl⟩ | ⟨cause, rfl⟩
    · rw [course_append, course_lettingGo, course_givingBack, if_neg hne, if_neg hne]
      simp
    · rw [course_leaking, if_neg hne, List.append_nil]
  · rw [List.mem_singleton.mp hx]
    rcases h with ⟨result, rfl⟩ | ⟨cause, rfl⟩
    · have hretire : .turn e.start e.value.gate .retire ∈ e.lettingGo ++ e.givingBack result := by
        simp [Interval.lettingGo]
      exact bars_of_retire hretire
    · refine ⟨[], _, e.start, .beginUnmap, rfl, .inr ⟨rfl, fun s hs => ?_⟩⟩
      simp [Object.farewell] at hs
  · rcases h with ⟨result, rfl⟩ | ⟨cause, rfl⟩
    · simp [Interval.lettingGo, Interval.givingBack]
    · simp [Interval.leaking]
  · rw [hdeeds, List.filterMap_append, hdestructors]

theorem GivenUp.nil (m : Moment γ) : GivenUp [] m m :=
  ⟨rfl, fun _ h => (by cases h), fun _ _ => rfl,
    ⟨[], (List.append_nil _).symm, fun _ h => (by cases h), fun _ _ h => by cases h⟩,
    (List.append_nil _).symm⟩

theorem GivenUp.cons {e : Interval (Object γ)} {rest : List (Interval (Object γ))}
    {m m' m'' : Moment γ} (h : GivenUp [e] m m') (h' : GivenUp rest m' m'')
    (hne : ∀ x ∈ rest, x.start ≠ e.start) : GivenUp (e :: rest) m m'' where
  desk := h'.desk.trans h.desk
  ended := fun x hx => by
    rcases List.mem_cons.mp hx with rfl | hx
    · have hended := h.ended x (List.mem_singleton.mpr rfl)
      unfold stage at hended ⊢
      rw [h'.course x.start hne]
      exact hended
    · exact h'.ended x hx
  course := fun s hs => by
    rw [h'.course s fun x hx => hs x (List.mem_cons_of_mem _ hx)]
    exact h.course s fun x hx => hs x (List.mem_singleton.mp hx ▸ List.mem_cons_self ..)
  late := by
    obtain ⟨new, hnew, hbars, hno⟩ := h.late
    obtain ⟨new', hnew', hbars', hno'⟩ := h'.late
    refine ⟨new ++ new', by rw [hnew', hnew, List.append_assoc], fun x hx => ?_,
      fun s number hs => ?_⟩
    · rcases List.mem_cons.mp hx with rfl | hx
      · exact (hbars x (List.mem_singleton.mpr rfl)).append fun s => hno' s _
      · obtain ⟨before, after, s, t, rfl, ht⟩ := hbars' x hx
        exact ⟨new ++ before, after, s, t, (List.append_assoc ..).symm, ht⟩
    · exact (List.mem_append.mp hs).elim (hno s number) (hno' s number)
  destructors := by
    rw [h'.destructors, h.destructors, List.append_assoc]
    unfold farewells
    rw [← List.filterMap_append]
    rfl

namespace Worker

variable [Paging π] {m₀ m : Moment γ}

/-- An object is given up, whatever the memory answers. -/
theorem abandonErrand_ensures {e : Interval (Object γ)} (he : e ∈ O) (hS : S e.start)
    (hm : Within O S m₀ m) (hs : HandedOver m.deeds) (hmapped : Mapped e.start m.deeds) :
    (abandonErrand e : Errand π γ Unit).Ensures (Within O S m₀)
      (fun _ m' => Within O S m₀ m' ∧ HandedOver m'.deeds ∧ GivenUp [e] m m')
      (fun _ _ => False) m := by
  have hbegun := hm.turned (t := .beginUnmap) he hS hs hmapped.follows
  have hstage := stage_turned m e.start e.value.gate .beginUnmap
  unfold abandonErrand
  rw [Errand.ensures_bind, Errand.ensures_gate]
  refine ⟨hm, ?_⟩
  rw [Errand.ensures_bind, Errand.ensures_lift]
  refine ⟨hbegun, fun s => ends_callPages fun result pages _ => ⟨_, rfl, ?_⟩⟩
  cases result with
  | ok =>
    have hgone : Within O S m₀ ((m.turned e.start e.value.gate .beginUnmap).noted m.desk
        [.unregister e.start e.len (.ok ())]) :=
      hbegun.marked rfl hS (handedOver_snoc rfl) (hstage ▸ .letGo) rfl rfl
    have hretired := hgone.turned (t := .retire) he hS (handedOver_snoc rfl) (by
      rw [stage_noted rfl]
      exact .retire)
    refine ⟨hgone, hretired, fun s => ends_callPages fun result' pages' _ => ⟨_, rfl, ?_⟩⟩
    have hreleased :=
      @Within.marked _ _ _ _ _ m.desk (.release e.start e.len result') _ _ hretired rfl
      hS (handedOver_snoc rfl) (by rw [stage_turned]; exact .release) rfl rfl
    have hdeeds : m.deeds ++ [.turn e.start e.value.gate .beginUnmap] ++
        [.entry (.unregister e.start e.len (.ok ()))] ++ [.turn e.start e.value.gate .retire] ++
        [.entry (.release e.start e.len result')] ++ e.value.farewell.map .entry =
        m.deeds ++ (e.lettingGo ++ e.givingBack result') := by
      simp [Interval.lettingGo, Interval.givingBack]
    refine ⟨hreleased,
      fun s => finish_ends ⟨_, rfl, hreleased.farewell (handedOver_snoc rfl) .., ?_, ?_⟩⟩
    · have hhanded := handedOver_givingBack e result' (m.deeds ++ e.lettingGo)
      rw [List.append_assoc, ← hdeeds] at hhanded
      exact hhanded
    · exact Interval.Surrenders.givenUp (.inl ⟨result', rfl⟩) rfl hdeeds
  | error cause =>
    have hrefused : Within O S m₀ ((m.turned e.start e.value.gate .beginUnmap).noted m.desk
        [.unregister e.start e.len (.error cause)]) :=
      hbegun.marked rfl hS (handedOver_snoc rfl) (hstage ▸ .refuse) rfl rfl
    have hdeeds : m.deeds ++ [.turn e.start e.value.gate .beginUnmap] ++
        [.entry (.unregister e.start e.len (.error cause))] ++ e.value.farewell.map .entry =
        m.deeds ++ e.leaking cause := by
      simp [Interval.leaking]
    refine ⟨hrefused,
      fun s => finish_ends ⟨_, rfl, hrefused.farewell (handedOver_snoc rfl) .., ?_, ?_⟩⟩
    · have hhanded := handedOver_leaking e cause m.deeds
      rw [← hdeeds] at hhanded
      exact hhanded
    · exact Interval.Surrenders.givenUp (.inr ⟨cause, rfl⟩) rfl hdeeds

/-- The given objects are given up, one after the other. -/
theorem abandonAllErrand_ensures : ∀ (entries : List (Interval (Object γ))) (m : Moment γ),
    (entries.Pairwise fun a b => a.start ≠ b.start) → (∀ e ∈ entries, e ∈ O) →
    (∀ e ∈ entries, Mapped e.start m.deeds) →
    Within O (fun _ => True) m₀ m → HandedOver m.deeds →
    (abandonAllErrand entries : Errand π γ Unit).Ensures (Within O (fun _ => True) m₀)
      (fun _ m' => Within O (fun _ => True) m₀ m' ∧ HandedOver m'.deeds ∧ GivenUp entries m m')
      (fun _ _ => False) m
  | [], m, _, _, _, hm, hs => ⟨hm, hs, .nil m⟩
  | e :: rest, m, hdistinct, hknown, hmapped, hm, hs => by
    obtain ⟨hne, hdistinct⟩ := List.pairwise_cons.mp hdistinct
    obtain ⟨he, hknown⟩ := List.forall_mem_cons.mp hknown
    obtain ⟨hmapped₁, hmapped⟩ := List.forall_mem_cons.mp hmapped
    unfold abandonAllErrand
    rw [Errand.ensures_bind]
    refine (abandonErrand_ensures he trivial hm hs hmapped₁).mono (fun _ h => h) ?_ fun _ _ h => h
    rintro _ m' ⟨hm', hs', hgone⟩
    have hmapped' : ∀ x ∈ rest, Mapped x.start m'.deeds := fun x hx => by
      have hx' := hmapped x hx
      unfold Mapped stage at hx' ⊢
      rw [hgone.course x.start fun y hy => List.mem_singleton.mp hy ▸ hne x hx]
      exact hx'
    refine (abandonAllErrand_ensures rest m' hdistinct hknown hmapped' hm' hs').mono (fun _ h => h)
      ?_ fun _ _ h => h
    rintro _ m'' ⟨hm'', hs'', hgone'⟩
    exact ⟨hm'', hs'', hgone.cons hgone' fun x hx => (hne x hx).symm⟩

end Worker

/-! ### The whole teardown -/

/-- Since a moment nothing was done but to answer. -/
structure Answering (O : List (Interval (Object γ))) (m m' : Moment γ) : Prop where
  desk : m'.desk = m.desk
  lawful : Lawful O m'.deeds
  handedOver : HandedOver m'.deeds
  answers : ∃ new, m'.deeds = m.deeds ++ new ∧ ∀ d ∈ new, ∃ ticket a, d = .entry (.answer ticket a)

theorem Answering.refl {m : Moment γ} (hm : Lawful O m.deeds) (hs : HandedOver m.deeds) :
    Answering O m m :=
  ⟨rfl, hm, hs, [], (List.append_nil _).symm, fun _ h => by cases h⟩

theorem Answering.trans {m m' m'' : Moment γ} (h : Answering O m m') (h' : Answering O m' m'') :
    Answering O m m'' where
  desk := h'.desk.trans h.desk
  lawful := h'.lawful
  handedOver := h'.handedOver
  answers := by
    obtain ⟨new, hnew, hanswers⟩ := h.answers
    obtain ⟨new', hnew', hanswers'⟩ := h'.answers
    refine ⟨new ++ new', by rw [hnew', hnew, List.append_assoc], fun d hd => ?_⟩
    exact (List.mem_append.mp hd).elim (hanswers d) (hanswers' d)

theorem Answering.entry {m : Moment γ} (hm : Lawful O m.deeds) (hs : HandedOver m.deeds)
    (ticket : Nat) (a : Answer) : Answering O m (m.noted m.desk [.answer ticket a]) where
  desk := rfl
  lawful := hm.snoc_entry rfl (.other hs rfl)
  handedOver := handedOver_snoc rfl
  answers := ⟨_, rfl, fun _ hd => ⟨ticket, a, List.mem_singleton.mp hd⟩⟩

theorem Answering.course {m m' : Moment γ} (h : Answering O m m') (s : Nat) :
    course s m'.deeds = course s m.deeds := by
  obtain ⟨new, hnew, hanswers⟩ := h.answers
  have hnone : DemandPager.course s new = [] := course_of_unmarked fun d hd => by
    obtain ⟨ticket, a, rfl⟩ := hanswers d hd
    rfl
  rw [hnew, course_append, hnone, List.append_nil]

theorem Answering.destructors {m m' : Moment γ} (h : Answering O m m') :
    m'.deeds.filterMap Deed.destructor? = m.deeds.filterMap Deed.destructor? := by
  obtain ⟨new, hnew, hanswers⟩ := h.answers
  have hnone : new.filterMap Deed.destructor? = [] := List.filterMap_eq_nil_iff.mpr fun d hd => by
    obtain ⟨ticket, a, rfl⟩ := hanswers d hd
    rfl
  rw [hnew, List.filterMap_append, hnone, List.append_nil]

theorem Answering.bars {m m' : Moment γ} (h : Answering O m m') {number : Nat}
    (hbars : Bars number m.deeds) : Bars number m'.deeds := by
  obtain ⟨new, hnew, hanswers⟩ := h.answers
  rw [hnew]
  refine hbars.append fun start hd => ?_
  obtain ⟨ticket, a, heq⟩ := hanswers _ hd
  cases heq

/-- The objects on the books were released, or the accesses to them were not let go. All
gates are barred, all destructors have run, and the books are empty. -/
structure Dismantled (O : List (Interval (Object γ))) (m m' : Moment γ) : Prop where
  lawful : Lawful O m'.deeds
  handedOver : HandedOver m'.deeds
  ended : ∀ e ∈ m.desk.objects.toList, stage e.start m'.deeds = some .released ∨
    stage e.start m'.deeds = some .refused
  course : ∀ s, (∀ e ∈ m.desk.objects.toList, e.start ≠ s) →
    course s m'.deeds = course s m.deeds
  bars : ∀ e ∈ m.desk.objects.toList, Bars e.value.gate m'.deeds
  destructors : (m'.deeds.filterMap Deed.destructor?).Perm
    (m.deeds.filterMap Deed.destructor? ++ farewells m.desk.objects.toList)
  terminated : m'.desk.phase = .terminated
  objects : m'.desk.objects = .empty
  ring : m'.desk.ring = .ofCapacity 1
  used : m'.desk.used = 0

/-- Objects that were released or given up are dismantled. -/
theorem Dismantled.of_reduced {m m₁ m₂ m₃ m₄ m₅ : Moment γ} {desk : Desk γ}
    (hm : m.desk.objects.Sound) (h₁ : Reduced m m₁) (hdeeds₂ : m₂.deeds = m₁.deeds)
    (h₂ : GivenUp m₁.desk.objects.toList m₂ m₃) (hdeeds₄ : m₄.deeds = m₃.deeds)
    (h₄ : Answering O m₄ m₅) (hphase : desk.phase = .terminated) (hobjects : desk.objects = .empty)
    (hring : desk.ring = .ofCapacity 1) (hused : desk.used = 0) :
    Dismantled O m ⟨desk, m₅.deeds⟩ := by
  have hcourse : ∀ s, DemandPager.course s m₅.deeds = DemandPager.course s m₃.deeds := fun s => by
    rw [h₄.course, hdeeds₄]
  have hlate : ∀ number, Bars number m₃.deeds → Bars number m₅.deeds :=
    fun number h => h₄.bars (hdeeds₄ ▸ h)
  obtain ⟨new, hnew, hbars, hno⟩ := h₂.late
  rw [hdeeds₂] at hnew
  refine ⟨h₄.lawful, h₄.handedOver, fun e he => ?_, fun s hs => ?_,
    fun e he => hlate _ ?_, ?_, hphase,
    hobjects, hring, hused⟩
  · unfold stage
    rw [hcourse]
    by_cases hleft : e ∈ m₁.desk.objects.toList
    · exact h₂.ended e hleft
    · obtain ⟨hstage, -⟩ := (h₁.gone e he).resolve_left hleft
      rw [h₂.course e.start fun x hx heq => hleft (hm.eq_of_start (h₁.objects x hx) he heq ▸ hx),
        hdeeds₂]
      exact .inl hstage
  · rw [hcourse, h₂.course s fun e he => hs e (h₁.objects e he), hdeeds₂, h₁.course s hs]
  · rw [hnew]
    by_cases hleft : e ∈ m₁.desk.objects.toList
    · obtain ⟨before, after, s, t, heq, ht⟩ := hbars e hleft
      exact ⟨m₁.deeds ++ before, after, s, t, by rw [heq, List.append_assoc], ht⟩
    · obtain ⟨-, hturn⟩ := (h₁.gone e he).resolve_left hleft
      exact (bars_of_retire hturn).append fun s => hno s _
  · rw [h₄.destructors, hdeeds₄, h₂.destructors, hdeeds₂]
    exact h₁.destructors

namespace Worker

variable [Paging π] {m₀ m : Moment γ}

omit [Paging π] in
/-- A step that enters nothing. -/
theorem ensures_silent {inv : Moment γ → Prop} {post : Unit → Moment γ → Prop}
    {fail : Failure → Moment γ → Prop} {f : Worker π γ → Worker π γ}
    (hf : ∀ w, (f w).journal = w.journal) (hm : inv m)
    (hpost : ∀ s, post () ⟨(f ⟨s, m.desk⟩).toDesk, m.deeds⟩) :
    (Errand.lift (modify f) : Errand π γ Unit).Ensures inv post fail m := by
  refine ⟨hm, fun s => ⟨[], (hf _).trans (List.append_nil _).symm, ?_⟩⟩
  rw [Moment.noted_nil]
  exact hpost s

omit [Paging π] in
theorem dismissAllErrand_ensures : ∀ (messages : List (Message γ)) (m : Moment γ),
    Lawful O m.deeds → HandedOver m.deeds →
    (dismissAllErrand messages : Errand π γ Unit).Ensures (fun m => Lawful O m.deeds)
      (fun _ m' => Answering O m m') (fun _ _ => False) m
  | [], m, hm, hs => .refl hm hs
  | message :: rest, m, hm, hs => by
    have hnext : ∀ m', Answering O m m' →
        (dismissAllErrand rest : Errand π γ Unit).Ensures (fun m => Lawful O m.deeds)
          (fun _ m'' => Answering O m m'') (fun _ _ => False) m' := fun m' h =>
      (dismissAllErrand_ensures rest m' h.lawful h.handedOver).mono (fun _ h => h)
        (fun _ _ h' => h.trans h') fun _ _ h => h
    unfold dismissAllErrand
    rw [Errand.ensures_bind, Errand.ensures_lift]
    refine ⟨hm, fun s => ?_⟩
    cases message with
    | allocate object ticket => exact ⟨_, rfl, hnext _ (.entry hm hs ..)⟩
    | free id start ticket => exact ⟨_, rfl, hnext _ (.entry hm hs ..)⟩
    | shutdown =>
      refine ⟨[], (List.append_nil _).symm, ?_⟩
      rw [Moment.noted_nil]
      exact hnext _ (.refl hm hs)

/-- **The teardown takes everything apart**, whatever other threads do in between. -/
theorem shutdownErrand_ensures (hm : Standing O m) :
    (shutdownErrand : Errand π γ Unit).Ensures (fun m => Lawful O m.deeds)
      (fun _ m' => Dismantled O m m') (fun _ m' => Lawful O m'.deeds) m := by
  unfold shutdownErrand
  rw [Errand.ensures_bind]
  refine ensures_silent (fun _ => rfl) hm.lawful fun _ => ?_
  rw [Errand.ensures_bind]
  refine ensures_silent (fun _ => rfl) hm.lawful fun _ => ?_
  rw [Errand.ensures_bind, Errand.ensures_lift]
  refine ⟨hm.lawful, fun s => ⟨[], (List.append_nil _).symm, ?_⟩⟩
  rw [Moment.noted_nil, Errand.ensures_bind]
  set m₀ : Moment γ := ⟨{ m.desk with phase := .shuttingDown }, m.deeds⟩
  have hm₀ : Standing O m₀ := ⟨hm.sound, hm.known, hm.lawful, hm.handedOver, hm.mapped⟩
  have hwithin₀ : Within O (fun _ => True) m₀ m₀ := ⟨hm.lawful, fun _ _ => rfl, rfl⟩
  refine (freeAllErrand_ensures _ m₀ hwithin₀ hm₀).mono
    (fun _ h => h.lawful) ?_ fun _ _ h => h.lawful
  rintro _ m₁ ⟨hwithin, hm₁, hreduced⟩
  rw [Errand.ensures_bind, Errand.ensures_lift]
  refine ⟨hm₁.lawful, fun s => ⟨[], (List.append_nil _).symm, ?_⟩⟩
  rw [Moment.noted_nil, Errand.ensures_bind]
  set m₂ : Moment γ := ⟨{ m₁.desk with objects := .empty }, m₁.deeds⟩
  have hwithin₂ : Within O (fun _ => True) m₂ m₂ := ⟨hm₁.lawful, fun _ _ => rfl, rfl⟩
  refine (abandonAllErrand_ensures _ m₂ hm₁.sound.starts_ne hm₁.known hm₁.mapped hwithin₂
    hm₁.handedOver).mono (fun _ h => h.lawful) ?_ fun _ _ h => h.elim
  rintro _ m₃ ⟨hwithin₃, hhanded, hgivenUp⟩
  rw [Errand.ensures_bind]
  refine ensures_silent (fun _ => rfl) hwithin₃.lawful fun _ => ?_
  rw [Errand.ensures_bind]
  refine ensures_silent (fun _ => rfl) hwithin₃.lawful fun _ => ?_
  rw [Errand.ensures_bind, Errand.ensures_lift]
  refine ⟨hwithin₃.lawful, fun s => ⟨[], (List.append_nil _).symm, ?_⟩⟩
  rw [Moment.noted_nil, Errand.ensures_bind]
  set m₄ : Moment γ := ⟨{ m₃.desk with ring := .ofCapacity 1, used := 0 }, m₃.deeds⟩
  refine (dismissAllErrand_ensures _ m₄ hwithin₃.lawful hhanded).mono (fun _ h => h) ?_
    fun _ _ h => h.elim
  rintro _ m₅ hanswering
  refine ensures_silent (fun _ => rfl) hanswering.lawful fun _ => ?_
  have hdesk : m₅.desk = { m₁.desk with objects := .empty, ring := .ofCapacity 1, used := 0 } := by
    rw [hanswering.desk]
    simp only [m₄, hgivenUp.desk, m₂]
  have hreduced₁ : Reduced m m₁ :=
    ⟨hreduced.objects, hreduced.gone, hreduced.course, hreduced.deeds, hreduced.destructors⟩
  have hdeeds₂ : m₂.deeds = m₁.deeds := rfl
  have hdeeds₄ : m₄.deeds = m₃.deeds := rfl
  refine Dismantled.of_reduced hm.sound hreduced₁ hdeeds₂ hgivenUp hdeeds₄ hanswering rfl ?_ ?_ ?_
  all_goals
    show _ = _
    simp only [hdesk]

end Worker
end DemandPager
