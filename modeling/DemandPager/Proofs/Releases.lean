/-
# Releasing objects keeps the books

To release an object its resident chunks are handed over, its registration is taken
back, the object and its bytes go off the books, and its memory is given back. A
release that is refused, because a chunk cannot be read or the registration is not
given back, leaves the books alone (`Worker.free_ends`). The totals are checked at the
end, so no release succeeds while the books owe anything.

Key definitions: `LetGo`, `Worker.Freed`.
Key theorems: `Worker.writeBackAll_ends`, `Worker.unmap_ends`, `Worker.strike_ends`,
`Worker.free_ends`.
-/
import DemandPager.Proofs.Faults

namespace DemandPager

variable {π γ : Type}

/-- The entries say that the registration of an object was to be taken back and that
its destructor ran, if it has one. -/
def LetGo (e : Interval (Object γ)) (es : List JournalEntry) : Prop :=
  (∃ result, .unregister e.start e.len result ∈ es) ∧
    (e.value.callbacks.destructor.isSome → .destructor e.value.id ∈ es)

/-- What the journal says of the destructor of an object. -/
def Object.farewell (o : Object γ) : List JournalEntry :=
  if o.callbacks.destructor.isSome then [.destructor o.id] else []

theorem Interval.offerable_subset (e : Interval (Object γ)) (records : List ChunkRecord) :
    e.offerable records ⊆ records := by
  unfold offerable
  split
  · exact List.filter_subset_self ..
  · exact List.nil_subset _

theorem LetGo.mono {e : Interval (Object γ)} {es es' : List JournalEntry} (h : LetGo e es)
    (hsub : es ⊆ es') : LetGo e es' :=
  ⟨h.1.imp fun _ hr => hsub hr, fun hd => hsub (h.2 hd)⟩

theorem letGo_of_farewell {e : Interval (Object γ)} {es : List JournalEntry}
    (hunregister : ∃ result, .unregister e.start e.len result ∈ es)
    (hfarewell : e.value.farewell ⊆ es) : LetGo e es := by
  refine ⟨hunregister, fun hd => hfarewell ?_⟩
  unfold Object.farewell
  rw [if_pos hd]
  exact List.mem_singleton.mpr rfl

namespace Worker

variable [Paging π] {w w' : Worker π γ} {lost : Nat}

/-! ### Parts of a release -/

/-- Chunks on record are handed over one after the other. -/
theorem writeBackAll_ends : ∀ (records : List ChunkRecord) (w : Worker π γ), w.toDesk.Filed →
    (∀ r ∈ records, r ∈ w.ring.toList ∧ r.isLive) →
    Ends (writeBackAll (records.map (·.address))) w
      (fun _ w' => ∃ es, SameBooks w w' es ∧
        OfferedAll w.objects.toList records w.pages w.client w'.pages w'.client)
      (fun f w' => (f = .abort .callback ∧ HookBreaks w w') ∨
        ∃ cause es, f = .error cause ∧ SameBooks w w' es ∧ Moves w.view w'.view)
  | [], w, _, _ => ⟨[], SameBooks.refl w, .nil⟩
  | r :: rest, w, hw, hrecords => by
    obtain ⟨hmem, hlive⟩ := hrecords r (List.mem_cons_self ..)
    obtain ⟨e, he, k, hr⟩ := hw.chunks r hmem hlive
    rw [List.map_cons]
    unfold writeBackAll
    rw [ends_bind]
    apply (writeBackChunk_ends hw he hr (hw.fits r hmem)).mono
    · rintro _ v ⟨es, hv, -, hoffer⟩
      have hrest : ∀ x ∈ rest, x ∈ v.ring.toList ∧ x.isLive := by
        intro x hx
        rw [hv.ring]
        exact hrecords x (List.mem_cons_of_mem _ hx)
      apply (writeBackAll_ends rest v (hv.filed hw) hrest).mono
      · rintro _ w' ⟨es', hw', hall⟩
        rw [hv.objects] at hall
        exact ⟨_, hv.trans hw', .cons he hr hoffer hall⟩
      · rintro f w' (⟨rfl, hbreaks⟩ | ⟨cause, es', rfl, hw', hmoves⟩)
        · exact .inl ⟨rfl, hbreaks.of_later hv.journal fun x hx => hv.objects ▸ hx⟩
        · refine .inr ⟨cause, _, rfl, hv.trans hw', .head ?_ hmoves⟩
          rw [hv.view]
          exact .offer hmem he hr hoffer
    · rintro f v (hbroke | ⟨cause, rfl, hv, hread, hclient⟩)
      · exact .inl hbroke
      · refine .inr ⟨cause, _, rfl, hv, .single ?_⟩
        rw [hv.view, hclient]
        exact .unread hread

/-- The resident chunks of an object are handed over. -/
theorem handOverAll_ends (e : Interval (Object γ)) (hw : w.toDesk.Filed) :
    Ends (handOverAll e) w
      (fun _ w' => ∃ es, SameBooks w w' es ∧
        OfferedAll w.objects.toList (e.offerable w.ring.toList) w.pages w.client w'.pages w'.client)
      (fun f w' => (f = .abort .callback ∧ HookBreaks w w') ∨
        ∃ cause es, f = .error cause ∧ SameBooks w w' es ∧ Moves w.view w'.view) := by
  unfold handOverAll Interval.offerable
  rw [ends_ite]
  refine ⟨fun hwants => ?_, fun hwants => ?_⟩
  · simp only [ends_bind, ends_get]
    rw [if_pos hwants]
    refine writeBackAll_ends _ w hw fun r hr => ?_
    rw [List.mem_filter, Bool.and_eq_true] at hr
    exact ⟨hr.1, hr.2.2⟩
  · rw [if_neg hwants]
    exact ⟨[], SameBooks.refl w, .nil⟩

/-- Either the registration is taken back and the gate is retired, or both stay. -/
theorem unmap_ends {start len gate : Nat} {post : PUnit → Worker π γ → Prop}
    {fail : Failure → Worker π γ → Prop}
    (hdone : ∀ gates pages, Called (Paging.unregister start len) w.pages (.ok ()) pages →
      post ⟨⟩ { w with
        gates, pages, journal := w.journal ++ [.unregister start len (.ok ())] })
    (hrefused : ∀ gates pages cause,
      Called (Paging.unregister start len) w.pages (.error cause) pages →
      fail (.error cause) { w with
        gates, pages, journal := w.journal ++ [.unregister start len (.error cause)] }) :
    Ends (unmap start len gate) w post fail := by
  unfold unmap
  simp only [ends_bind, ends_changeGate]
  refine ends_callPages fun result pages hcalled => ?_
  cases result with
  | ok => exact hdone _ _ hcalled
  | error cause =>
    simp only [ends_bind, ends_changeGate, ends_refuse]
    exact hrefused _ _ _ hcalled

omit [Paging π] in
/-- An object that is recorded can be taken off the books, together with its bytes. -/
theorem strike_ends {e : Interval (Object γ)} (hw : w.toDesk.Filed) (ho : w.toDesk.Owes lost)
    (he : e ∈ w.objects.toList) {post : Object γ → Worker π γ → Prop}
    {fail : Failure → Worker π γ → Prop}
    (h : ∀ objects ring used, w.objects.remove e.start = .ok (e.value, objects) → ring.Sound →
      ring.toList = Ring.retired e.value.id w.ring.toList → used = ring.liveSum + lost →
      used ≤ w.used → post e.value { w with objects, ring, used }) :
    Ends (strike e.value.id e.start) w post fail := by
  have hused := ho.used
  have hsum : w.ring.liveSum < wordBound := Nat.lt_of_le_of_lt (by omega) ho.used_lt
  obtain ⟨objects, hremove⟩ := IntervalMap.remove_of_mem hw.objects he
  obtain ⟨hreleased, hring, hlist⟩ := Ring.retireOwner_spec hw.ring hsum e.value.id
  have hbytes := Ring.bytesOf_retired e.value.id w.ring.toList
  rw [← hlist] at hbytes
  unfold Ring.liveSum at hused
  have hsub : Word.sub w.used (Ring.ownBytes e.value.id w.ring.toList) =
      .ok ((w.ring.retireOwner e.value.id).2.liveSum + lost) := by
    unfold Ring.liveSum
    exact Word.sub_eq_ok.mpr ⟨by omega, by omega⟩
  unfold strike
  simp only [ends_bind, ends_get, hremove, ends_settle_ok, ends_modify, ends_set, hreleased,
    ends_checked_ok]
  rw [hsub, ends_checked_ok]
  apply h objects _ _ hremove hring hlist rfl
  unfold Ring.liveSum
  omega

omit [Paging π] in
/-- The books without an object and its bytes. -/
theorem struck_filed {d : Desk γ} {e : Interval (Object γ)} {objects : IntervalMap (Object γ)}
    {ring : Ring} (hd : d.Filed) (hremove : d.objects.remove e.start = .ok (e.value, objects))
    (hring : ring.Sound) (hlist : ring.toList = Ring.retired e.value.id d.ring.toList) :
    { d with objects, ring }.Filed := by
  obtain ⟨x, hx, -, hvalue, hmem⟩ := IntervalMap.remove_eq_ok hd.objects hremove
  refine ⟨IntervalMap.sound_remove hd.objects hremove, fun y hy => hd.built y ((hmem y).mp hy).1,
    fun y hy => hd.len y ((hmem y).mp hy).1, hring, fun r hr hlive => ?_,
      fun r hr => ?_, hd.scratch⟩
  · obtain ⟨hold, howner⟩ := Ring.of_mem_retired (hlist ▸ hr) hlive
    obtain ⟨y, hy, k, hk⟩ := hd.chunks r hold hlive
    refine ⟨y, (hmem y).mpr ⟨hy, ?_⟩, k, hk⟩
    rintro rfl
    exact howner (hvalue ▸ hk.owner)
  · rcases Ring.mem_retired (hlist ▸ hr) with ⟨hold, -⟩ | hzero
    · exact hd.fits r hold
    · rw [hzero]
      decide

omit [Paging π] in
theorem finish_ends {o : Object γ} {post : PUnit → Worker π γ → Prop}
    {fail : Failure → Worker π γ → Prop}
    (h : post ⟨⟩ { w with
      client := o.finished w.client, journal := w.journal ++ o.farewell }) :
    Ends (finish o) w post fail := by
  unfold Object.finished Object.farewell at h
  unfold finish
  cases hd : o.callbacks.destructor with
  | none =>
    rw [hd] at h
    simp only [Option.isSome_none, Bool.false_eq_true, if_false, List.append_nil] at h
    exact h
  | some destructor =>
    rw [hd] at h
    exact h

/-- An object went off the books and its memory was given back. -/
structure Discharged (lost : Nat) (e : Interval (Object γ)) (w w' : Worker π γ)
    (es : List JournalEntry) : Prop extends Kept w w' es where
  objects : w'.objects.toList = w.objects.toList.filter (·.start ≠ e.start)
  records : w'.ring.toList = Ring.retired e.value.id w.ring.toList
  client : w'.client = e.value.finished w.client
  released : ∃ result, Called (Paging.release e.start e.len) w.pages result w'.pages
  filed : w'.toDesk.Filed
  owes : w'.toDesk.Owes lost
  entries : ∃ result, es = .release e.start e.len result :: e.value.farewell
  stats : w'.exchange.stats = w.exchange.stats.record .free

theorem discharge_ends {e : Interval (Object γ)} (hw : w.toDesk.Filed) (ho : w.toDesk.Owes lost)
    (he : e ∈ w.objects.toList) :
    Ends (discharge e) w (fun _ w' => lost = 0 ∧ ∃ es, Discharged lost e w w' es)
      (fun f _ => f = .abort .unbalanced ∧ 0 < lost) := by
  unfold discharge
  rw [ends_bind]
  refine strike_ends hw ho he fun objects ring used hremove hring hlist hused hle => ?_
  rw [ends_bind]
  refine ends_callPages fun result pages hreleased => ?_
  rw [ends_bind]
  apply finish_ends
  simp only [ends_bind, ends_count]
  set s : Worker π γ := { w with
    objects, ring, used, pages
    client := e.value.finished w.client
    journal := w.journal ++ [.release e.start e.len result] ++ e.value.farewell
    exchange := { w.exchange with stats := w.exchange.stats.record .free } }
  have hfiled : s.toDesk.Filed := by
    have h : { w.toDesk with objects, ring }.Filed := struck_filed hw hremove hring hlist
    exact h.of_eq rfl rfl rfl
  have howes : s.toDesk.Owes lost :=
    ⟨hused, hle.trans ho.used_le, Nat.lt_of_le_of_lt hle ho.used_lt⟩
  apply (checkTotals_ends howes).mono
  · rintro _ _ ⟨rfl, hlost⟩
    exact ⟨hlost, _, ⟨List.append_assoc .., rfl, rfl, rfl, rfl⟩, IntervalMap.toList_remove hremove,
      hlist, rfl, ⟨result, hreleased⟩, hfiled, howes, ⟨result, rfl⟩, rfl⟩
  · rintro f _ ⟨rfl, -, hlost⟩
    exact ⟨rfl, hlost⟩

/-! ### A release -/

/-- An object was released. -/
structure Freed (lost : Nat) (e : Interval (Object γ)) (w w' : Worker π γ)
    (es : List JournalEntry) : Prop extends Kept w w' es where
  objects : w'.objects.toList = w.objects.toList.filter (·.start ≠ e.start)
  filed : w'.toDesk.Filed
  owes : w'.toDesk.Owes lost
  moves : Moves w.view w'.view
  letGo : LetGo e es

omit [Paging π] in
theorem objectAt_eq_some (hw : w.toDesk.Filed) {id start : Nat} {e : Interval (Object γ)}
    (h : w.objectAt id start = some e) :
    e ∈ w.objects.toList ∧ e.start = start ∧ e.value.id = id := by
  unfold objectAt at h
  obtain ⟨hfind, heq⟩ := Option.filter_eq_some_iff.mp h
  rw [Bool.and_eq_true, beq_iff_eq, beq_iff_eq] at heq
  exact ⟨((IntervalMap.find?_eq_some hw.objects).mp hfind).1, heq⟩

/-- **A release takes the object off the books with its bytes, or it is refused and
leaves the books alone.** It succeeds only if the books owe nothing. -/
theorem free_ends {id start : Nat} (hw : w.toDesk.Filed) (ho : w.toDesk.Owes lost) :
    Ends (free id start) w
      (fun _ w' => lost = 0 ∧ ∃ e ∈ w.objects.toList, e.start = start ∧ e.value.id = id ∧
        ∃ es, Freed lost e w w' es)
      (fun f w' => (f = .abort .callback ∧ HookBreaks w w') ∨ (f = .abort .unbalanced ∧ 0 < lost) ∨
        ∃ cause es, f = .error cause ∧ Handled lost w w' es) := by
  unfold free
  simp only [ends_bind, ends_get]
  cases hat : w.objectAt id start with
  | none => exact .inr (.inr ⟨_, [], rfl, Kept.refl w, rfl, hw, ho, .refl⟩)
  | some e =>
    obtain ⟨he, rfl, rfl⟩ := objectAt_eq_some hw hat
    rw [ends_bind]
    apply (handOverAll_ends e hw).mono
    · rintro _ v ⟨es, hv, hoffer⟩
      rw [ends_bind]
      refine unmap_ends (fun gates freed hfreed => ?_) fun gates pages cause hcalled => ?_
      · set u : Worker π γ := { v with
          gates, pages := freed, journal := v.journal ++ [.unregister e.start e.len (.ok ())] }
        have hu : Kept w u (es ++ [.unregister e.start e.len (.ok ())]) := by
          refine hv.toKept.trans ⟨rfl, rfl, rfl, rfl, rfl⟩
        have heu : e ∈ u.objects.toList := by
          rw [show u.objects = w.objects from hv.objects]
          exact he
        apply (discharge_ends (w := u) (hv.filed hw) (hv.owes ho) heu).mono
        · rintro _ w' ⟨hlost, es', hd⟩
          refine ⟨hlost, e, he, rfl, rfl, _, hu.trans hd.toKept, ?_, hd.filed, hd.owes, ?_, ?_⟩
          · rw [hd.objects]
            rw [show u.objects = w.objects from hv.objects]
          · obtain ⟨result, hreleased⟩ := hd.released
            have hview : w'.view = { w.view with
                pages := w'.pages
                client := e.value.finished v.client
                objects := w.view.objects.filter (·.start ≠ e.start)
                records := Ring.retired e.value.id w.view.records } := by
              unfold Worker.view
              rw [hd.objects, hd.records, hd.client, hd.ringGrowable]
              rw [show u.objects = w.objects from hv.objects, show u.ring = w.ring from hv.ring,
                show u.ringGrowable = w.ringGrowable from hv.ringGrowable]
            rw [hview]
            exact .single (.strike he hoffer hfreed hreleased)
          · obtain ⟨result, rfl⟩ := hd.entries
            refine letGo_of_farewell ⟨.ok (), by simp⟩ fun x hx => ?_
            exact List.mem_append_right _ (List.mem_cons_of_mem _ hx)
        · rintro f w' ⟨rfl, hlost⟩
          exact .inr (.inl ⟨rfl, hlost⟩)
      · refine .inr (.inr ⟨cause, _, rfl, hv.toKept.trans ⟨rfl, rfl, rfl, rfl, rfl⟩,
          hv.objects, hv.filed hw, hv.owes ho, ?_⟩)
        have hmoves : Moves w.view v.view := by
          rw [hv.view]
          exact hoffer.moves (e.offerable_subset _)
        exact hmoves.tail (.unregister hcalled)
    · rintro f v (hbroke | ⟨cause, es, rfl, hv, hmoves⟩)
      · exact .inl hbroke
      · exact .inr (.inr ⟨cause, es, rfl, hv.toKept, hv.objects, hv.filed hw, hv.owes ho, hmoves⟩)

end Worker
end DemandPager
