/-
# Faults keep the books

What the handling of a fault does, whatever the memory answers and whatever the
callbacks do. An address belongs to one chunk of one object, if to any
(`Worker.locateFault_eq_ok`); that chunk is filled, installed and recorded. A fault
that is handled leaves the books as they were, but for records and bytes
(`Worker.handleFault_ends`).

Key theorems: `Worker.locateFault_eq_ok`, `Worker.fillChunk_ends`,
`Worker.recordChunk_ends`, `Worker.handleFault_ends`.
-/
import DemandPager.Proofs.Eviction

namespace DemandPager

variable {π γ : Type}

/-- The number of the chunk that an address of a body belongs to. -/
def Interval.chunkNumber (e : Interval (Object γ)) (address : Nat) : Nat :=
  (address - e.bodyStart) / (e.value.geometry.loadCount * e.value.geometry.stride)

/-- The record of a chunk. -/
def Interval.chunkRecord (e : Interval (Object γ)) (k : Nat) : ChunkRecord where
  address := e.chunkStart k
  size := (e.value.geometry.chunk k).bytes
  owner := e.value.id

/-- The target of a populate callback keeps its length. -/
theorem Object.length_fill {o : Object γ} {first stop : Nat} {target filled : Bytes}
    {client client' : γ} {result : FillEnd}
    (h : o.fill first stop target client = (result, filled, client')) :
    filled.length = target.length := by
  unfold fill at h
  cases h
  unfold Bytes.overlay
  rw [List.length_append, List.length_take, List.length_drop]
  omega

namespace Worker

/-! ### Finding a chunk -/

/-- What is found for an address is the chunk of the object that holds it. -/
theorem locateFault_eq_ok {d : Desk γ} (hd : d.Filed) {address : Nat} {site : FaultSite γ}
    (h : locateFault d.objects address = .ok site) :
    ∃ e ∈ d.objects.toList, e.Holds address ∧ e.bodyStart ≤ address ∧
      (e.chunkRecord (e.chunkNumber address)).IsChunkOf e (e.chunkNumber address) ∧
      site = { object := e.value, bodyStart := e.bodyStart,
               span := e.value.geometry.chunk (e.chunkNumber address) } := by
  unfold locateFault at h
  cases hfind : d.objects.find? address with
  | none => rw [hfind] at h; cases h
  | some e =>
    obtain ⟨he, hholds⟩ := (IntervalMap.find?_eq_some hd.objects).mp hfind
    rw [hfind] at h
    simp only [hd.bodyStart_eq he] at h
    obtain ⟨_, hstart, h⟩ := Checked.bind_eq_ok.mp h
    cases hstart
    obtain ⟨hbody, h⟩ := Checked.guard_eq_ok.mp h
    obtain ⟨found, hfound, h⟩ := Checked.bind_eq_ok.mp h
    cases found with
    | none => cases h
    | some span =>
      cases h
      obtain ⟨hfull, hchunk, rfl⟩ := (Geometry.locate_eq_some (hd.regular he)).mp hfound
      exact ⟨e, he, hholds, Nat.le_of_not_lt hbody, ⟨rfl, hfull, hchunk, rfl, rfl⟩, rfl⟩

theorem locateFault_eq_error {d : Desk γ} (hd : d.Filed) {address : Nat} {f : Failure}
    (h : locateFault d.objects address = .error f) :
    f = .error (.unknownAddress address) ∨ f = .abort .overflow := by
  unfold locateFault at h
  cases hfind : d.objects.find? address with
  | none =>
    rw [hfind] at h
    cases h
    exact .inl rfl
  | some e =>
    obtain ⟨he, -⟩ := (IntervalMap.find?_eq_some hd.objects).mp hfind
    rw [hfind] at h
    simp only [hd.bodyStart_eq he] at h
    rcases Checked.bind_eq_error.mp h with h | ⟨start, -, h⟩
    · cases h
    split at h
    · cases h
      exact .inl rfl
    · rcases Checked.bind_eq_error.mp h with h | ⟨found, -, h⟩
      · exact .inr (Geometry.locate_eq_error (hd.regular he) h)
      · cases found with
        | none =>
          cases h
          exact .inl rfl
        | some span => cases h

/-! ### Filling and recording -/

variable [Paging π] {w w' : Worker π γ} {lost : Nat}

omit [Paging π] in
/-- Filling a chunk touches nothing but the scratch buffer and the callers' state. -/
theorem fillChunk_ends {e : Interval (Object γ)} {k : Nat} (hg : e.value.geometry.Regular)
    (hsize : (e.value.geometry.chunk k).bytes ≤ w.scratch.size) :
    Ends (fillChunk e.value (e.value.geometry.chunk k)) w
      (fun content w' => (∃ x, x.isReadRefused = false ∧ SameBooks w w' [x]) ∧
        w'.pages = w.pages ∧ Filled e k w.client content w'.client)
      (fun f w' => f = .abort .callback ∨
        ∃ reason, f = .error (.populate reason) ∧
          (∃ x, x.isReadRefused = false ∧ SameBooks w w' [x]) ∧
          w'.pages = w.pages ∧ GaveUp e k w.client w'.client) := by
  have hcontent : e.contentLen k ≤ (e.value.geometry.chunk k).bytes := hg.content_le_bytes
  have htarget : (w.scratch.take (e.contentLen k)).length = e.contentLen k :=
    Buffer.length_take (hcontent.trans hsize)
  obtain ⟨⟨result, filled, client⟩, hfill⟩ : ∃ answer, e.value.fill (e.value.geometry.chunk k).first
    (e.value.geometry.chunk k).stop (w.scratch.take (e.contentLen k)) w.client = answer := ⟨_, rfl⟩
  have hlength : filled.length = e.contentLen k := by
    rw [← htarget]
    exact Object.length_fill hfill
  have hnote : ∀ scratch : Buffer, ∀ stats, scratch.size = w.scratch.size →
      ∃ x, x.isReadRefused = false ∧ SameBooks w { w with
        client
        scratch
        journal := w.journal ++ [.populate e.value.id (e.value.geometry.chunk k).first
          (e.value.geometry.chunk k).stop (e.contentLen k)]
        exchange := { w.exchange with stats } } [x] :=
    fun _ _ hscratch => ⟨_, rfl, ⟨rfl, rfl, rfl, rfl, rfl⟩, rfl, rfl, rfl, rfl, hscratch⟩
  unfold fillChunk
  simp only [ends_bind, ends_note, ends_get, ends_set]
  rw [show (e.value.geometry.chunk k).count * e.value.geometry.stride = e.contentLen k from rfl,
    hfill]
  cases result with
  | gaveUp reason =>
    refine .inr ⟨reason, rfl, hnote _ w.exchange.stats rfl, rfl, _, reason, filled, htarget, hfill⟩
  | broke => exact .inl rfl
  | filled =>
    simp only [ends_bind, ends_count, ends_modify, ends_get, ends_pure]
    refine ⟨hnote _ _ rfl, trivial, _, filled, htarget, hfill, ?_⟩
    set zeros := Bytes.zeros ((e.value.geometry.chunk k).bytes - e.contentLen k) with hzeros
    have htake : (w.scratch.write filled).take (e.contentLen k) = filled := by
      rw [← hlength]
      exact Buffer.take_write (by rw [hlength]; exact hcontent.trans hsize)
    have hwhole : (filled ++ zeros).length = (e.value.geometry.chunk k).bytes := by
      rw [List.length_append, hlength, hzeros, Bytes.zeros, List.length_replicate]
      omega
    rw [htake, ← hwhole]
    exact Buffer.take_write (by rw [hwhole]; exact hsize)

omit [Paging π] in
/-- A chunk that was installed is recorded with its bytes. There may be no place for
the record. -/
theorem recordChunk_ends {e : Interval (Object γ)} {k : Nat} {r : ChunkRecord}
    (hw : w.toDesk.Filed) (ho : w.toDesk.Owes lost) (he : e ∈ w.objects.toList)
    (hr : r.IsChunkOf e k) (hfits : Word.isAllocatable r.size)
    (hle : w.used + r.size ≤ w.limits.high) (hlt : w.used + r.size < wordBound) :
    Ends (recordChunk r) w
      (fun _ w' => Kept w w' [] ∧ w'.objects = w.objects ∧ w'.toDesk.Filed ∧
        w'.toDesk.Owes lost ∧ w'.view = { w.view with records := w.view.records ++ [r] })
      (fun f w' => (f = .abort .unbalanced ∧ 0 < lost) ∨
        f = .error .ringExhausted ∧ w' = w ∧ w.ringGrowable = false) := by
  have hadd : Word.add w.used r.size = .ok (w.used + r.size) := Word.add_eq_ok.mpr ⟨hlt, rfl⟩
  unfold recordChunk
  simp only [ends_bind, ends_get]
  rcases Ring.push_spec hw.ring r w.ringGrowable with
    ⟨ring, hpush, hring, hlist⟩ | ⟨hpush, -, hgrow⟩
  · rw [hpush, ends_settle_ok]
    simp only [ends_set, hadd, ends_checked_ok, ends_modify, ends_count]
    set v : Worker π γ := { w with
      ring
      used := w.used + r.size
      exchange := { w.exchange with stats := w.exchange.stats.record .install } } with hv
    have hmem : ∀ x ∈ ring.toList, x ∈ w.ring.toList ∨ x = r := by
      intro x hx
      rwa [hlist, List.mem_append, List.mem_singleton] at hx
    have hfiled : v.toDesk.Filed := by
      refine ⟨hw.objects, hw.built, hw.len, hring, fun x hx hlive => ?_, fun x hx => ?_, hw.scratch⟩
      · rcases hmem x hx with hold | rfl
        · exact hw.chunks x hold hlive
        · exact ⟨e, he, k, hr⟩
      · rcases hmem x hx with hold | rfl
        · exact hw.fits x hold
        · exact hfits
    have howes : v.toDesk.Owes lost := by
      refine ⟨?_, hle, hlt⟩
      have hused := ho.used
      unfold Ring.liveSum at hused
      show w.used + r.size = Ring.bytesOf ring.toList + lost
      rw [hlist, Ring.bytesOf_append, Ring.bytesOf_cons, Ring.bytesOf_nil]
      omega
    apply (checkTotals_ends howes).mono
    · rintro _ w' ⟨rfl, -⟩
      refine ⟨⟨(List.append_nil _).symm, rfl, rfl, rfl, rfl⟩, rfl, hfiled, howes, ?_⟩
      unfold Worker.view
      rw [← hlist]
    · rintro f w' ⟨rfl, -, hlost⟩
      exact .inl ⟨rfl, hlost⟩
  · rw [hpush, ends_settle_error]
    exact .inr ⟨rfl, rfl, hgrow⟩

/-! ### Handling a fault -/

/-- **A chunk is loaded with the books kept.** There has to be room for it. -/
theorem loadChunk_ends {e : Interval (Object γ)} {k : Nat} (hw : w.toDesk.Filed)
    (ho : w.toDesk.Owes lost) (he : e ∈ w.objects.toList) (hr : (e.chunkRecord k).IsChunkOf e k)
    (hsize : (e.value.geometry.chunk k).bytes ≤ w.scratch.size)
    (hle : w.used + (e.value.geometry.chunk k).bytes ≤ w.limits.high)
    (hlt : w.used + (e.value.geometry.chunk k).bytes < wordBound) :
    Ends (loadChunk { object := e.value, bodyStart := e.bodyStart,
                      span := e.value.geometry.chunk k }) w
      (fun _ w' => ∃ es, Handled lost w w' es) (FaultFails lost w) := by
  have hfits : Word.isAllocatable (e.chunkRecord k).size := Word.isAllocatable_mono hsize hw.scratch
  unfold loadChunk
  simp only [ends_bind]
  apply (fillChunk_ends (hw.regular he) hsize).mono
  · rintro content v ⟨⟨x, hx, hv⟩, hpages, hfill⟩
    simp only [ends_checked, Word.add_eq_ok]
    refine ⟨?_, fun f hf => .inl ⟨.overflow, Word.exact_eq_error hf, .inl rfl⟩⟩
    rintro _ ⟨-, rfl⟩
    refine ends_callPages fun result pages hcalled => ?_
    rw [hpages] at hcalled
    set y : JournalEntry := .install (e.chunkStart k) content result with hy
    set u : Worker π γ := { v with pages, journal := v.journal ++ [y] } with hu
    have hu' : SameBooks w u ([x] ++ [y]) :=
      hv.trans ⟨⟨rfl, rfl, rfl, rfl, rfl⟩, rfl, rfl, rfl, rfl, rfl⟩
    have hview : u.view = { w.view with pages, client := v.client } := hu'.view
    have hcalm : Calm ([x] ++ [y]) := calm_append_singleton rfl
    rw [ends_settle]
    refine ⟨fun installed hok => ?_, fun cause herr => ?_⟩
    · subst hok
      cases installed with
      | true =>
        rw [if_pos rfl]
        have hused : u.used = w.used := hu'.used
        have hlimits : u.limits = w.limits := hu'.limits
        refine (recordChunk_ends (hu'.filed hw) (hu'.owes ho)
          (by rw [hu'.objects]; exact he) hr hfits
          (by rw [hused, hlimits]; exact hle) (by rw [hused]; exact hlt)).mono ?_ ?_
        · rintro _ w' ⟨hkept, hobjects, hfiled, howes, hview'⟩
          refine ⟨_, hu'.toKept.trans hkept, hobjects.trans hu'.objects, hfiled, howes,
            ?_⟩
          rw [hview', hview]
          exact .single (.load he hr hfill hcalled)
        · rintro f w' (⟨rfl, hlost⟩ | ⟨rfl, rfl, hgrow⟩)
          · exact .inl ⟨.unbalanced, rfl, .inr ⟨rfl, hlost⟩⟩
          · refine hu'.fails hcalm hw ho (fun h => by cases h) ?_
            rw [hu'.ringGrowable] at hgrow
            rw [hview]
            exact .single (.spill he hr hfill hcalled hgrow)
      | false =>
        rw [if_neg Bool.false_ne_true, ends_count]
        refine ⟨_, ⟨hu'.journal, ?_, hu'.limits, hu'.ringGrowable, hu'.phase⟩, hu'.objects,
          hu'.filed hw, hu'.owes ho, ?_⟩
        · rw [hu'.exchange]
        · show Moves w.view u.view
          rw [hview]
          exact .single (.waste he hr hfill hcalled fun h => by cases h)
    · subst herr
      refine hu'.fails hcalm hw ho (fun _ => ⟨y, rfl, rfl⟩) ?_
      rw [hview]
      exact .single (.waste he hr hfill hcalled fun h => by cases h)
  · rintro f v (rfl | ⟨reason, rfl, ⟨x, hx, hv⟩, hpages, hgave⟩)
    · exact .inl ⟨.callback, rfl, .inl rfl⟩
    · refine hv.fails (calm_singleton hx) hw ho (fun h => by cases h) ?_
      rw [hv.view, hpages]
      exact .single (.giveUp he hr.hasChunk hgave)

/-- **A fault that is handled keeps the books, and one that is not fails in one of the
known ways.** -/
theorem handleFault_ends {address : Nat} (hw : w.toDesk.Filed) (ho : w.toDesk.Owes lost)
    (hmarks : w.limits.low ≤ w.limits.high) :
    Ends (handleFault address) w (fun _ w' => ∃ es, Handled lost w w' es) (FaultFails lost w) := by
  unfold handleFault
  simp only [ends_bind, ends_count, ends_get, ends_checked]
  set counted : Worker π γ := { w with
    exchange := { w.exchange with stats := w.exchange.stats.record .fault } } with hcounted
  have hsame : SameBooks w counted [] :=
    ⟨⟨(List.append_nil _).symm, rfl, rfl, rfl, rfl⟩, rfl, rfl, rfl, rfl, rfl⟩
  refine ⟨fun site hsite => ?_, fun f hf => ?_⟩
  · obtain ⟨e, he, -, -, hr, rfl⟩ := locateFault_eq_ok hw hsite
    set k := e.chunkNumber address with hk
    rw [ends_ite]
    refine ⟨fun _ => ?_, fun hlarge => ?_⟩
    · exact hsame.fails calm_nil hw ho (fun h => by cases h) .refl
    have hfill : (e.value.geometry.chunk k).bytes ≤ w.limits.high := Nat.le_of_not_lt hlarge
    simp only [ends_bind, ends_checked, ends_set]
    refine ⟨fun scratch hgrow => ?_, fun f hf => ?_⟩
    · obtain ⟨hscratch, hbytes⟩ := Buffer.growTo_size hw.scratch hgrow
      have hlarger : w.scratch.size ≤ scratch.size := Buffer.size_le_of_growTo hgrow
      set grown : Worker π γ := { counted with scratch } with hgrown
      have hfiled : grown.toDesk.Filed :=
        ⟨hw.objects, hw.built, hw.len, hw.ring, hw.chunks, hw.fits, hscratch⟩
      have howes : grown.toDesk.Owes lost := ho.of_eq rfl rfl rfl
      have hbegin : Drops lost w grown [] :=
        ⟨⟨⟨(List.append_nil _).symm, rfl, rfl, rfl, rfl⟩, rfl, hfiled, howes, .refl⟩, hlarger,
          List.suffix_refl _, Nat.le_refl _, calm_nil⟩
      refine (evictFor_ends (w := grown) hfiled howes hmarks hfill).mono ?_ fun _ _ h =>
        hbegin.fails h
      rintro _ v ⟨es, hv, hle, hlt⟩
      have hroom := hbegin.trans hv
      have hmem : e ∈ v.objects.toList := by
        rw [hroom.objects]
        exact he
      refine (loadChunk_ends hv.filed hv.owes hmem hr (hbytes.trans hv.scratch) hle hlt).mono ?_
        fun _ _ h => hroom.fails h
      rintro _ w' ⟨es', hw'⟩
      exact ⟨_, hroom.toHandled.trans hw'⟩
    · exact .inl ⟨.capacity, Buffer.growTo_error hf, .inl rfl⟩
  · rcases locateFault_eq_error hw hf with rfl | rfl
    · exact hsame.fails calm_nil hw ho (fun h => by cases h) .refl
    · exact .inl ⟨.overflow, rfl, .inl rfl⟩

end Worker
end DemandPager
