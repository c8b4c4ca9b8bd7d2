/-
# The teardown

The serving ends with a teardown: every object is released, those that cannot be are
abandoned, and the messages that are still queued are answered. While the books balance
it always comes to its end, whatever the memory refuses, unless a callback breaks off
(`Worker.windUp_ends`).

A fault that is not handled leaves books that balance, unless its last call was a read
that was refused. In that case the bytes of the chunk that was to be read are in use
without a record, and the teardown breaks off at the first release that is not refused
(`Worker.teardown_after_fault`).

Key definitions: `Worker.AllRefused`, `Worker.TornDown`, `Worker.closing`,
`Worker.readRefused`.
Key theorems: `Worker.freeAll_ends`, `Worker.abandonAll_ends`,
`Worker.dismissAll_ends`, `Worker.windUp_ends`, `Worker.teardown_after_fault`.
-/
import DemandPager.Proofs.Budget
import DemandPager.Worker.Loop

namespace DemandPager

variable {π γ : Type}

/-- The ticket of a message that is to be answered. -/
def Message.ticket? : Message γ → Option Nat
  | .allocate _ ticket | .free _ _ ticket => some ticket
  | .shutdown => none

theorem Message.Posted.ticket_lt {m : Message γ} {tickets t : Nat} (h : m.Posted tickets)
    (ht : m.ticket? = some t) : t < tickets := by
  cases m with
  | allocate => cases ht; exact h.2
  | free => cases ht; exact h
  | shutdown => cases ht

namespace Exchange

variable {x : Exchange γ} {ticket t : Nat} {a : Answer}

theorem answerTo_finish (x : Exchange γ) (ticket t : Nat) (a : Answer) :
    (x.finish ticket a).answerTo t =
      x.completions[t]?.bind fun c => if ticket = t then (c.finish a).answer else c.answer := by
  unfold finish answerTo
  simp only [List.getElem?_modify]
  cases x.completions[t]? with
  | none => rfl
  | some c => by_cases h : ticket = t <;> simp [h]

theorem isSome_finish (c : Completion Answer) (a : Answer) : (c.finish a).answer.isSome := by
  unfold Completion.finish
  cases hc : c.answer with
  | none => rfl
  | some b => simp [hc]

/-- A ticket that gets an answer has one. -/
theorem answerTo_finish_self (h : ticket < x.completions.length) :
    ((x.finish ticket a).answerTo ticket).isSome := by
  rw [answerTo_finish, List.getElem?_eq_getElem h]
  simp [isSome_finish]

/-- A ticket that has an answer keeps one. -/
theorem answerTo_finish_mono (h : (x.answerTo t).isSome) :
    ((x.finish ticket a).answerTo t).isSome := by
  rw [answerTo_finish]
  unfold answerTo at h
  cases hc : x.completions[t]? with
  | none => rw [hc] at h; cases h
  | some c =>
    rw [hc] at h
    by_cases heq : ticket = t
    · simp [heq, isSome_finish]
    · simpa [heq] using h

end Exchange

namespace Worker

variable {w v w' : Worker π γ} {es es' : List JournalEntry} {lost : Nat}

/-! ### Releasing everything -/

/-- Objects were released, and no other objects are left than there were. -/
structure Thinned (lost : Nat) (w w' : Worker π γ) (es : List JournalEntry) : Prop
    extends Kept w w' es where
  objects : ∀ e ∈ w'.objects.toList, e ∈ w.objects.toList
  letGo : ∀ e ∈ w.objects.toList, e ∈ w'.objects.toList ∨ LetGo e es
  filed : w'.toDesk.Filed
  owes : w'.toDesk.Owes lost

theorem Thinned.trans (h : Thinned lost w v es) (h' : Thinned lost v w' es') :
    Thinned lost w w' (es ++ es') where
  toKept := h.toKept.trans h'.toKept
  objects := fun e he => h.objects e (h'.objects e he)
  letGo := fun e he => by
    rcases h.letGo e he with hleft | hgone
    · exact (h'.letGo e hleft).imp_right fun hl => hl.mono (List.subset_append_right ..)
    · exact .inr (hgone.mono (List.subset_append_left ..))
  filed := h'.filed
  owes := h'.owes

variable [Paging π]

theorem Handled.thinned (h : Handled lost w w' es) : Thinned lost w w' es where
  toKept := h.toKept
  objects := fun _ he => h.objects ▸ he
  letGo := fun _ he => .inl (h.objects.symm ▸ he)
  filed := h.filed
  owes := h.owes

theorem Freed.thinned {e : Interval (Object γ)} (h : Freed lost e w w' es) (hw : w.toDesk.Filed)
    (he : e ∈ w.objects.toList) : Thinned lost w w' es where
  toKept := h.toKept
  objects := fun x hx => by
    rw [h.objects] at hx
    exact List.mem_of_mem_filter hx
  letGo := fun x hx => by
    by_cases hstart : x.start = e.start
    · have hsame : x = e := by
        have hx' := hw.objects.holds_start hx
        rw [hstart] at hx'
        exact hw.objects.eq_of_holds hx he hx' (hw.objects.holds_start he)
      exact .inr (hsame ▸ h.letGo)
    · rw [h.objects]
      exact .inl (List.mem_filter.mpr ⟨hx, decide_eq_true hstart⟩)
  filed := h.filed
  owes := h.owes

/-- All the given objects cannot be released, one after the other. -/
def AllRefused : List (Interval (Object γ)) → Worker π γ → Prop
  | [], _ => True
  | e :: rest, w =>
    ∃ cause v, free e.value.id e.start w = .error (.error cause) v ∧ AllRefused rest v

/-- Objects are released one after the other, whatever is refused. While the books owe
something this comes to an end only if everything is refused. -/
theorem freeAll_ends : ∀ (entries : List (Interval (Object γ))) (w : Worker π γ),
    w.toDesk.Filed → w.toDesk.Owes lost →
    Ends (freeAll entries) w
      (fun _ w' => (0 < lost → AllRefused entries w) ∧ ∃ es, Thinned lost w w' es)
      (fun f w' => (f = .abort .callback ∧ HookBreaks w w') ∨
        f = .abort .unbalanced ∧ 0 < lost ∧ ¬AllRefused entries w)
  | [], w, hw, ho =>
    ⟨fun _ => trivial, [], Kept.refl w, fun _ h => h, fun _ h => .inl h, hw, ho⟩
  | e :: rest, w, hw, ho => by
    have hnext : ∀ v es, Thinned lost w v es →
        (0 < lost → ∃ cause, free e.value.id e.start w = .error (.error cause) v) →
        Ends (freeAll rest) v
          (fun _ w' => (0 < lost → AllRefused (e :: rest) w) ∧ ∃ es, Thinned lost w w' es)
          (fun f w' => (f = .abort .callback ∧ HookBreaks w w') ∨
            f = .abort .unbalanced ∧ 0 < lost ∧ ¬AllRefused (e :: rest) w) := by
      intro v es hv hrefused
      apply (freeAll_ends rest v hv.filed hv.owes).mono
      · rintro _ w' ⟨hrest, es', hw'⟩
        refine ⟨fun hlost => ?_, _, hv.trans hw'⟩
        obtain ⟨cause, hfree⟩ := hrefused hlost
        exact ⟨cause, v, hfree, hrest hlost⟩
      · rintro f w' (⟨rfl, hbreaks⟩ | ⟨rfl, hlost, hrest⟩)
        · exact .inl ⟨rfl, hbreaks.of_later hv.journal hv.objects⟩
        · refine .inr ⟨rfl, hlost, ?_⟩
          rintro ⟨_, _, hfree', hrest'⟩
          obtain ⟨cause, hfree⟩ := hrefused hlost
          rw [hfree] at hfree'
          cases hfree'
          exact hrest hrest'
    unfold freeAll
    rw [ends_bind, ends_attempt]
    apply (free_ends hw ho).exactly.mono
    · rintro _ v ⟨-, rfl, x, hx, -, -, es, hv⟩
      exact hnext v es (hv.thinned hw hx) fun hlost => absurd hlost (Nat.lt_irrefl 0)
    · rintro f v ⟨hfree, ⟨rfl, hbreaks⟩ | ⟨rfl, hlost⟩ | ⟨cause, es, rfl, hv⟩⟩
      · exact ⟨fun _ h => (by cases h), fun _ _ => .inl ⟨rfl, hbreaks⟩⟩
      · refine ⟨fun _ h => (by cases h), fun _ _ => .inr ⟨rfl, hlost, ?_⟩⟩
        rintro ⟨_, _, hfree', -⟩
        rw [hfree] at hfree'
        cases hfree'
      · exact ⟨fun _ _ => hnext v es hv.thinned fun _ => ⟨cause, hfree⟩,
          fun _ h => by cases h⟩

/-! ### Abandoning what is left -/

omit [Paging π] in
/-- Objects were let go without being taken off the books. -/
structure Abandoned (entries : List (Interval (Object γ))) (w w' : Worker π γ)
    (es : List JournalEntry) : Prop where
  desk : w'.toDesk = w.toDesk
  exchange : w'.exchange = w.exchange
  journal : w'.journal = w.journal ++ es
  letGo : ∀ e ∈ entries, LetGo e es

theorem abandon_ends (e : Interval (Object γ)) :
    Ends (abandon e) w (fun _ w' => ∃ es, Abandoned [e] w w' es) (fun _ _ => False) := by
  have hletGo : ∀ es : List JournalEntry, ∀ result, .unregister e.start e.len result ∈ es →
      e.value.farewell ⊆ es → ∀ x ∈ [e], LetGo x es := by
    intro es result hunregister hfarewell x hx
    rw [List.mem_singleton.mp hx]
    exact letGo_of_farewell ⟨result, hunregister⟩ hfarewell
  unfold abandon
  simp only [ends_bind, ends_changeGate]
  refine ends_callPages fun result pages _ => ?_
  cases result with
  | ok =>
    simp only [ends_bind, ends_changeGate]
    refine ends_callPages fun result' pages' _ => ?_
    refine finish_ends ⟨_, rfl, rfl, (List.append_assoc ..).trans (List.append_assoc ..), ?_⟩
    apply hletGo _ (.ok ()) (List.mem_append_left _ (List.mem_singleton.mpr rfl))
    exact fun x hx => List.mem_append_right _ (List.mem_append_right _ hx)
  | error cause =>
    refine finish_ends ⟨_, rfl, rfl, List.append_assoc .., ?_⟩
    apply hletGo _ (.error cause) (List.mem_append_left _ (List.mem_singleton.mpr rfl))
    exact List.subset_append_right ..

theorem abandonAll_ends : ∀ (entries : List (Interval (Object γ))) (w : Worker π γ),
    Ends (abandonAll entries) w (fun _ w' => ∃ es, Abandoned entries w w' es) (fun _ _ => False)
  | [], w => ⟨[], rfl, rfl, (List.append_nil _).symm, fun _ h => by cases h⟩
  | e :: rest, w => by
    unfold abandonAll
    rw [ends_bind]
    refine (abandon_ends e).mono ?_ fun _ _ h => h
    rintro _ v ⟨es, hv⟩
    refine (abandonAll_ends rest v).mono ?_ fun _ _ h => h
    rintro _ w' ⟨es', hw'⟩
    refine ⟨es ++ es', hw'.desk.trans hv.desk, hw'.exchange.trans hv.exchange, ?_, fun x hx => ?_⟩
    · rw [hw'.journal, hv.journal, List.append_assoc]
    · rcases List.mem_cons.mp hx with rfl | hrest
      · exact (hv.letGo x (List.mem_singleton.mpr rfl)).mono (List.subset_append_left ..)
      · exact (hw'.letGo x hrest).mono (List.subset_append_right ..)

/-! ### Answering what is queued -/

omit [Paging π] in
/-- Messages were answered. -/
structure Dismissed (messages : List (Message γ)) (w w' : Worker π γ) (es : List JournalEntry) :
    Prop where
  desk : w'.toDesk = w.toDesk
  journal : w'.journal = w.journal ++ es
  channel : w'.exchange.channel = w.exchange.channel
  tickets : w'.exchange.completions.length = w.exchange.completions.length
  kept : ∀ t, (w.exchange.answerTo t).isSome → (w'.exchange.answerTo t).isSome
  answered : ∀ m ∈ messages, ∀ t, m.ticket? = some t → t < w.exchange.completions.length →
    (w'.exchange.answerTo t).isSome

omit [Paging π] in
theorem dismiss_ends (m : Message γ) :
    Ends (dismiss m) w (fun _ w' => ∃ es, Dismissed [m] w w' es) (fun _ _ => False) := by
  have hreply : ∀ ticket answer, m.ticket? = some ticket →
      ∃ es, Dismissed [m] w { w with
        journal := w.journal ++ [.answer ticket answer]
        exchange := w.exchange.finish ticket answer } es := by
    intro ticket answer hticket
    refine ⟨_, rfl, rfl, rfl, List.length_modify .., fun t => Exchange.answerTo_finish_mono, ?_⟩
    intro x hx t ht hlt
    rw [List.mem_singleton.mp hx, hticket] at ht
    cases ht
    exact Exchange.answerTo_finish_self hlt
  cases m with
  | allocate object ticket => exact hreply ticket _ rfl
  | free id start ticket => exact hreply ticket _ rfl
  | shutdown =>
    refine ⟨[], rfl, (List.append_nil _).symm, rfl, rfl, fun _ h => h, fun x hx t ht => ?_⟩
    rw [List.mem_singleton.mp hx] at ht
    cases ht

omit [Paging π] in
theorem dismissAll_ends : ∀ (messages : List (Message γ)) (w : Worker π γ),
    Ends (dismissAll messages) w (fun _ w' => ∃ es, Dismissed messages w w' es) (fun _ _ => False)
  | [], w => ⟨[], rfl, (List.append_nil _).symm, rfl, rfl, fun _ h => h, fun _ h => by cases h⟩
  | m :: rest, w => by
    unfold dismissAll
    rw [ends_bind]
    refine (dismiss_ends m).mono ?_ fun _ _ h => h
    rintro _ v ⟨es, hv⟩
    refine (dismissAll_ends rest v).mono ?_ fun _ _ h => h
    rintro _ w' ⟨es', hw'⟩
    refine ⟨es ++ es', hw'.desk.trans hv.desk, ?_, hw'.channel.trans hv.channel,
      hw'.tickets.trans hv.tickets, fun t ht => hw'.kept t (hv.kept t ht), fun x hx t ht hlt => ?_⟩
    · rw [hw'.journal, hv.journal, List.append_assoc]
    · rcases List.mem_cons.mp hx with rfl | hrest
      · exact hw'.kept t (hv.answered x (List.mem_singleton.mpr rfl) t ht hlt)
      · exact hw'.answered x hrest t ht (hv.tickets ▸ hlt)

/-! ### The whole teardown -/

omit [Paging π] in
/-- The state in which the teardown begins to release objects. -/
def closing (w : Worker π γ) (forgotten : Except PagerError Unit) : Worker π γ :=
  { w with
    phase := .shuttingDown
    journal := w.journal ++ [.forget faultToken forgotten]
    exchange := { w.exchange with stopping := true } }

omit [Paging π] in
/-- Everything was torn down: all objects were let go and all messages were answered. -/
structure TornDown (w w' : Worker π γ) : Prop where
  phase : w'.phase = .terminated
  objects : w'.objects.toList = []
  letGo : ∃ es, w'.journal = w.journal ++ es ∧ ∀ e ∈ w.objects.toList, LetGo e es
  queue : w'.exchange.channel.pending = [] ∧ w'.exchange.channel.closed
  answered : ∀ m ∈ w.exchange.channel.pending, ∀ t, m.ticket? = some t →
    (w'.exchange.answerTo t).isSome

/-- **The teardown comes to its end.** It breaks off only if a callback does, or if the
books owe something and some release is not refused. -/
theorem windUp_ends {forgotten : Except PagerError Unit} (hw : w.toDesk.Filed)
    (ho : w.toDesk.Owes lost) (hposted : w.toSite.Posted) :
    Ends (windUp forgotten) w
      (fun _ w' => (0 < lost → AllRefused w.objects.toList (w.closing forgotten)) ∧ TornDown w w')
      (fun f w' => (f = .abort .callback ∧ HookBreaks w w') ∨
        f = .abort .unbalanced ∧ 0 < lost ∧
          ¬AllRefused w.objects.toList (w.closing forgotten)) := by
  have hfiled : (w.closing forgotten).toDesk.Filed := hw.of_eq rfl rfl rfl
  have howes : (w.closing forgotten).toDesk.Owes lost := ho.of_eq rfl rfl rfl
  unfold windUp shutdown
  simp only [ends_bind, ends_note, ends_modify, ends_get]
  refine (freeAll_ends w.objects.toList (w.closing forgotten) hfiled howes).mono ?_ fun f u h =>
    h.imp_left fun hbroke =>
      ⟨hbroke.1, hbroke.2.of_later (v := w.closing forgotten) rfl fun _ => id⟩
  rintro _ v ⟨hrefused, es, hv⟩
  refine (abandonAll_ends v.objects.toList _).mono ?_ fun _ _ h => h.elim
  rintro _ u ⟨es', hu⟩
  have hexchange : u.exchange = { w.exchange with
      stopping := true, stats := u.exchange.stats } := by
    rw [hu.exchange]
    exact hv.exchange
  have hpending : u.exchange.channel.pending = w.exchange.channel.pending := by rw [hexchange]
  refine (dismissAll_ends u.exchange.channel.pending _).mono ?_ fun _ _ h => h.elim
  rintro _ x ⟨es'', hx⟩
  refine ⟨hrefused, rfl, ?_, ⟨[.forget faultToken forgotten] ++ es ++ es' ++ es'', ?_,
    fun e he => ?_⟩, ?_, fun m hm t ht => ?_⟩
  · show x.toDesk.objects.toList = []
    rw [hx.desk]
    show u.toDesk.objects.toList = []
    rw [hu.desk]
    rfl
  · show x.journal = _
    rw [hx.journal]
    show u.journal ++ es'' = _
    rw [hu.journal]
    show v.journal ++ es' ++ es'' = _
    rw [hv.journal]
    simp only [closing, List.append_assoc]
  · rcases hv.letGo e he with hleft | hgone
    · refine (hu.letGo e hleft).mono fun y hy => ?_
      exact List.mem_append_left _ (List.mem_append_right _ hy)
    · refine hgone.mono fun y hy => ?_
      exact List.mem_append_left _ (List.mem_append_left _ (List.mem_append_right _ hy))
  · show x.exchange.channel.pending = [] ∧ x.exchange.channel.closed
    rw [hx.channel]
    exact ⟨rfl, rfl⟩
  · apply hx.answered m (hpending ▸ hm) t ht
    show t < u.exchange.completions.length
    rw [hexchange]
    exact (hposted m hm).ticket_lt ht

/-! ### After a fault that is not handled -/

omit [Paging π] in
/-- Whether the last entry between two states is that of a read that was refused. -/
def readRefused (w w' : Worker π γ) : Bool :=
  (w'.journal.drop w.journal.length).getLast?.any (·.isReadRefused)

omit [Paging π] in
theorem readRefused_eq_false (hkept : Kept w w' es) : readRefused w w' = false ↔ Calm es := by
  unfold readRefused Calm
  rw [hkept.journal, List.drop_left]
  cases es.getLast? with
  | none => simp
  | some x => simp

/-- **After a fault that is not handled the books balance and the teardown comes to its
end, unless the fault ended with a refused read.** After a refused read the bytes in use
exceed those of the live records, and the teardown breaks off as soon as a release is
not refused. -/
theorem teardown_after_fault {w w' : Worker π γ} (h : Reachable w) {address : Nat}
    {cause : PagerError} (hfault : handleFault address w = .error (.error cause) w')
    (forgotten : Except PagerError Unit) :
    (readRefused w w' = false → w'.ring.liveBytes = .ok w'.used ∧
      Ends (windUp forgotten) w' (fun _ w'' => TornDown w' w'')
        (fun f w'' => f = .abort .callback ∧ HookBreaks w' w'')) ∧
    (readRefused w w' = true → (∃ n, w'.ring.liveBytes = .ok n ∧ n < w'.used) ∧
      Ends (windUp forgotten) w'
        (fun _ w'' => AllRefused w'.objects.toList (w'.closing forgotten) ∧ TornDown w' w'')
        (fun f w'' => (f = .abort .callback ∧ HookBreaks w' w'') ∨
          f = .abort .unbalanced ∧
            ¬AllRefused w'.objects.toList (w'.closing forgotten))) := by
  have hw := h.inOrder
  obtain ⟨es, he⟩ := ((handleFault_inOrder hw).of_error hfault).1 cause rfl
  have hposted := he.toKept.posted hw.posted
  rw [← Bool.not_eq_false, readRefused_eq_false he.toKept]
  rcases he.owes with ⟨hcalm, howes⟩ | ⟨hread, ⟨r, -, hlive, howes⟩, -⟩
  · refine ⟨fun _ => ⟨(Desk.owes_zero_iff.mp howes).1, ?_⟩, fun hread => absurd hcalm hread⟩
    refine (windUp_ends he.filed howes hposted).mono (fun _ _ h => h.2) ?_
    rintro f _ (hbreaks | ⟨-, hlost, -⟩)
    · exact hbreaks
    · exact absurd hlost (Nat.lt_irrefl 0)
  · rw [Nat.zero_add] at howes
    have hsize := ChunkRecord.isLive_iff.mp hlive
    have hused := howes.used
    have hlt := howes.used_lt
    refine ⟨fun hcalm => absurd hcalm hread, fun _ => ⟨⟨w'.ring.liveSum, ?_, by omega⟩, ?_⟩⟩
    · exact Ring.liveBytes_eq_ok.mpr ⟨by omega, rfl⟩
    · refine (windUp_ends he.filed howes hposted).mono (fun _ _ h => ⟨h.1 hsize, h.2⟩) ?_
      rintro f _ (hbreaks | ⟨rfl, -, hrefused⟩)
      · exact .inl hbreaks
      · exact .inr ⟨rfl, hrefused⟩

/-- Two chunks are loaded, and the next read will be refused. -/
def sampleRefusing : Worker ScriptedMemory Unit :=
  (sampleRun [0x10000010, 0x10000000]).onSite fun s =>
    { s with pages := s.pages.failNext .readResident 1 }

/-- A third chunk does not fit; the oldest cannot be read to be dropped, and then the
teardown breaks off. -/
theorem teardown_after_fault_sample :
    (∃ n, (after (handleFault 0x10000020) sampleRefusing).ring.liveBytes = .ok n ∧
      n < (after (handleFault 0x10000020) sampleRefusing).used) ∧
    ending (windUp (.ok ())) (after (handleFault 0x10000020) sampleRefusing) =
      some (.abort .unbalanced) := by
  have hreach : Reachable sampleRefusing :=
    .meanwhile sampleRun_full (sampleRun_full.inOrder.posted)
  have hfault := eq_error_of_ending (show ending (handleFault 0x10000020) sampleRefusing =
    some (.error (.ofCode Errno.invalid)) by decide +kernel)
  have hread :
    readRefused sampleRefusing (after (handleFault 0x10000020) sampleRefusing) = true := by
    decide +kernel
  exact ⟨((teardown_after_fault hreach hfault (.ok ())).2 hread).1, by decide +kernel⟩

end Worker
end DemandPager
