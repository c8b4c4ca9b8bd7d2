/-
# How a fault can end

An address that lies in the body of an object is found with its chunk, and the chunk fits
within the budget. So a fault on it is handled, unless somebody else fails: the memory
refuses a call, a callback gives up or breaks off, or the ring is full and may not grow
(`Worker.fault_excused`). A fault on any other address is refused, and nothing but the count
of faults changes.

Key definitions: `Worker.Hindered`, `Worker.PopulateCalled`, `Worker.Defaults`, `Worker.Excused`,
`Interval.InBody`.
Key theorems: `Worker.locateFault_inside`, `Worker.locateFault_outside`,
`Worker.evictFor_hindered`, `Worker.loadChunk_excused`, `Worker.fault_excused`.
-/
import DemandPager.Proofs.Sizes

namespace DemandPager

variable {π γ : Type}

/-- The address lies in the body of the object, which takes whole pages. -/
def Interval.InBody (e : Interval (Object γ)) (address : Nat) : Prop :=
  e.bodyStart ≤ address ∧ address < e.start + e.value.geometry.trueSize

namespace Interval.InBody

variable {e : Interval (Object γ)} {address : Nat}

/-- The object holds the addresses of its body. -/
theorem holds (h : e.InBody address) (hlen : e.len = e.value.geometry.trueSize) :
    e.Holds address := by
  obtain ⟨hle, hlt⟩ := h
  refine ⟨(Nat.le_add_right ..).trans hle, ?_⟩
  rwa [hlen]

/-- The address is an offset of the body in whole pages. -/
theorem offset_lt (h : e.InBody address) :
    address - e.bodyStart < e.value.geometry.pagedBody := by
  obtain ⟨hle, hlt⟩ := h
  unfold Interval.bodyStart at hle ⊢
  unfold Geometry.trueSize at hlt
  omega

end Interval.InBody

namespace Worker

/-! ### Addresses inside and outside of bodies -/

theorem locateFault_inside {d : Desk γ} (hd : d.Filed) {e : Interval (Object γ)}
    (he : e ∈ d.objects.toList) {address : Nat} (hbody : e.InBody address)
    (hfull : e.value.geometry.loadCount * e.value.geometry.stride < wordBound) :
    locateFault d.objects address =
      .ok { object := e.value, bodyStart := e.bodyStart,
            span := e.value.geometry.chunk (e.chunkNumber address) } := by
  have hholds := hbody.holds (hd.len e he)
  have hg := hd.regular he
  have hlocate : e.value.geometry.locate (address - e.bodyStart) =
      .ok (some (e.value.geometry.chunk (e.chunkNumber address))) :=
    (Geometry.locate_eq_some hg).mpr ⟨hfull, hg.hasChunk_of_lt hbody.offset_lt, rfl⟩
  unfold locateFault
  simp only [(IntervalMap.find?_eq_some hd.objects).mpr ⟨he, hholds⟩, hd.bodyStart_eq he]
  refine Checked.bind_eq_ok.mpr ⟨_, rfl, Checked.guard_eq_ok.mpr ⟨Nat.not_lt.mpr hbody.1, ?_⟩⟩
  exact Checked.bind_eq_ok.mpr ⟨_, hlocate, rfl⟩

theorem locateFault_outside {d : Desk γ} (hd : d.Filed) {address : Nat}
    (hout : ∀ e ∈ d.objects.toList, ¬e.InBody address) :
    locateFault d.objects address = .error (.error (.unknownAddress address)) := by
  unfold locateFault
  cases hfind : d.objects.find? address with
  | none => rfl
  | some e =>
    obtain ⟨he, hholds⟩ := (IntervalMap.find?_eq_some hd.objects).mp hfind
    have hheader : address < e.bodyStart := by
      have hlen := hd.len e he
      have hnot := hout e he
      unfold Interval.InBody at hnot
      unfold Interval.Holds at hholds
      omega
    simp only [hd.bodyStart_eq he]
    refine Checked.bind_eq_error.mpr (.inr ⟨_, rfl, ?_⟩)
    rw [if_pos hheader]
    rfl

/-! ### Making room -/

variable [Paging π] {w v w' : Worker π γ} {lost : Nat}

omit [Paging π] in
/-- The memory refused a call, the last of those that were made, or a hook of an object
broke off. -/
inductive Hindered (w : Worker π γ) : Failure → Worker π γ → Prop
  | refused {w' : Worker π γ} {es : List JournalEntry} {x : JournalEntry} {cause : PagerError}
      (hjournal : w'.journal = w.journal ++ es) (hlast : es.getLast? = some x)
      (hx : x.refusal? = some cause) : Hindered w (.error cause) w'
  | broke {w' : Worker π γ} (h : HookBreaks w w') : Hindered w (.abort .callback) w'

omit [Paging π] in
/-- What hinders later hinders the whole. -/
theorem Hindered.of_later {f : Failure} {es : List JournalEntry} (h : Hindered v f w')
    (hjournal : v.journal = w.journal ++ es) (hobjects : v.objects = w.objects) :
    Hindered w f w' := by
  cases h with
  | refused hjournal' hlast hx =>
    refine .refused (by rw [hjournal', hjournal, List.append_assoc]) ?_ hx
    rw [List.getLast?_append, hlast]
    rfl
  | broke h => exact .broke (h.of_later hjournal fun _ he => hobjects ▸ he)

/-- The books owe bytes, and it comes out: no record is left to drop, or the totals disagree. -/
def Defaults (lost : Nat) (f : Failure) : Prop :=
  0 < lost ∧ (f = .error .ringEmpty ∨ f = .abort .unbalanced)

theorem dropOldest_hindered (hw : w.toDesk.Filed) (ho : w.toDesk.Owes lost) (hused : 0 < w.used) :
    Ends dropOldest w (fun _ _ => True) fun f w' => Hindered w f w' ∨ Defaults lost f := by
  unfold dropOldest
  simp only [ends_bind, ends_get]
  rcases Ring.pop_spec hw.ring with ⟨hnil, hpop⟩ | ⟨record, ring, hpop, hring, hlist⟩
  · have hsum := ho.used
    unfold Ring.liveSum at hsum
    rw [hnil, Ring.bytesOf_nil] at hsum
    rw [hpop, ends_settle_error]
    exact .inr ⟨by omega, .inl rfl⟩
  have hmem : record ∈ w.ring.toList := hlist ▸ List.mem_cons_self ..
  rw [hpop, ends_settle_ok]
  simp only [ends_modify]
  set popped : Worker π γ := { w with ring }
  rw [ends_ite]
  refine ⟨fun hlive => ?_, fun _ => trivial⟩
  obtain ⟨e, he, k, hr⟩ := hw.chunks record hmem hlive
  rw [ends_bind]
  apply (writeBackChunk_ends (w := popped) (popped_filed hw hring hlist) he hr
    (hw.fits record hmem)).mono
  · rintro _ v ⟨es, hv, -, -⟩
    apply (dropChunk_ends (hv.owes (popped_owes ho hlist))).mono fun _ _ _ => trivial
    rintro f w' (⟨rfl, hlost⟩ | ⟨cause, rfl, htook⟩)
    · exact .inr ⟨hlost, .inr rfl⟩
    · exact .inl (Hindered.of_later (v := v) (.refused htook.journal rfl rfl) hv.journal hv.objects)
  · rintro f v (⟨rfl, hbreaks⟩ | ⟨cause, rfl, hv, -, -⟩)
    · exact .inl (.broke hbreaks)
    · exact .inl (.refused hv.journal rfl rfl)

theorem dropWhileCrowded_hindered (fill : Nat) : ∀ (records : Nat) (w : Worker π γ),
    w.toDesk.Filed → w.toDesk.Owes lost → w.ring.toList.length ≤ records →
    Ends (dropWhileCrowded fill records) w (fun _ _ => True)
      fun f w' => Hindered w f w' ∨ Defaults lost f
  | 0, w, hw, ho, hrecords => by
    unfold dropWhileCrowded
    simp only [ends_bind, ends_get]
    rw [ends_ite]
    refine ⟨fun hcrowded => .inr ⟨?_, .inl rfl⟩, fun _ => trivial⟩
    -- no record is left, so what is in use is owed
    have hnil : w.ring.toList = [] := List.length_eq_zero_iff.mp (by omega)
    have hsum := ho.used
    unfold Ring.liveSum at hsum
    rw [hnil, Ring.bytesOf_nil] at hsum
    refine Nat.pos_of_ne_zero fun hzero => ?_
    rw [crowded_eq_false.mpr (.inl (by omega))] at hcrowded
    cases hcrowded
  | records + 1, w, hw, ho, hrecords => by
    unfold dropWhileCrowded
    simp only [ends_bind, ends_get]
    rw [ends_ite]
    refine ⟨fun hcrowded => ?_, fun _ => trivial⟩
    have hused : 0 < w.used := by
      unfold crowded at hcrowded
      simp only [Bool.and_eq_true, decide_eq_true_eq] at hcrowded
      exact hcrowded.1
    rw [ends_bind]
    refine ((dropOldest_ends hw ho hused).and (dropOldest_hindered hw ho hused)).mono ?_
      fun _ _ h => h.2
    rintro _ v ⟨⟨es, hv, hlength⟩, -⟩
    refine (dropWhileCrowded_hindered fill records v hv.filed hv.owes (by omega)).mono
      (fun _ _ h => h) fun _ _ h => ?_
    exact h.imp_left (·.of_later hv.journal hv.objects)

omit [Paging π] in
theorem not_defaults_zero {f : Failure} : ¬Defaults 0 f := fun h => Nat.lt_irrefl 0 h.1

theorem evictFor_hindered {fill : Nat} (hw : w.toDesk.Filed) (ho : w.toDesk.Owes 0)
    (hfill : fill ≤ w.limits.high) (hhigh : 2 * w.limits.high < wordBound) :
    Ends (evictFor fill) w (fun _ _ => True) (Hindered w) := by
  have hused := ho.used_le
  have hadd : Word.add w.used fill = .ok (w.used + fill) := Word.add_eq_ok.mpr ⟨by omega, rfl⟩
  unfold evictFor
  simp only [ends_bind, ends_get, hadd, ends_checked_ok]
  rw [ends_ite]
  refine ⟨fun _ => ?_, fun _ => trivial⟩
  exact (dropWhileCrowded_hindered fill _ w hw ho (Nat.le_of_eq (Ring.length_toList hw.ring))).mono
    (fun _ _ h => h) fun _ _ h => h.resolve_right not_defaults_zero

/-! ### Loading a chunk -/

omit [Paging π] in
/-- The populate callback of an object was called for the elements of chunk `k` and ended in
this way. It was handed the front of the scratch buffer; besides the callers' state, the buffer
and the entry of the call all is as before. -/
structure PopulateCalled (e : Interval (Object γ)) (k : Nat) (result : FillEnd)
    (w w' : Worker π γ) : Prop where
  target : (w.scratch.take (e.contentLen k)).length = e.contentLen k
  call : ∃ filled,
    e.value.fill (e.value.geometry.chunk k).first (e.value.geometry.chunk k).stop
      (w.scratch.take (e.contentLen k)) w.client = (result, filled, w'.client) ∧
    w' = { w with
      client := w'.client
      scratch := w.scratch.write filled
      journal := w.journal ++ [.populate e.value.id (e.value.geometry.chunk k).first
        (e.value.geometry.chunk k).stop (e.contentLen k)] }

omit [Paging π] in
/-- Why a fault on chunk `k` of an object was not handled: something hindered it, the
callback that fills the chunk failed, as the last call that was made, or there is no place for
the record. -/
inductive Excused (e : Interval (Object γ)) (k : Nat) (w : Worker π γ) : Failure → Worker π γ → Prop
  | hindered {f : Failure} {w' : Worker π γ} (h : Hindered w f w') : Excused e k w f w'
  | gaveUp {v w' : Worker π γ} {es : List JournalEntry} {reason : String}
      (hjournal : v.journal = w.journal ++ es)
      (hcalled : PopulateCalled e k (.gaveUp reason) v w') :
      Excused e k w (.error (.populate reason)) w'
  | broke {v w' : Worker π γ} {es : List JournalEntry} (hjournal : v.journal = w.journal ++ es)
      (hcalled : PopulateCalled e k .broke v w') : Excused e k w (.abort .callback) w'
  | full {w' : Worker π γ} (hgrow : w'.ringGrowable = false)
      (hfull : w'.ring.toList.length = w'.ring.capacity) : Excused e k w (.error .ringExhausted) w'

omit [Paging π] in
theorem Excused.of_later {e : Interval (Object γ)} {k : Nat} {f : Failure} {es : List JournalEntry}
    (h : Excused e k v f w') (hjournal : v.journal = w.journal ++ es)
    (hobjects : v.objects = w.objects) : Excused e k w f w' := by
  cases h with
  | hindered h => exact .hindered (h.of_later hjournal hobjects)
  | gaveUp hjournal' hcalled =>
    exact .gaveUp (by rw [hjournal', hjournal, List.append_assoc]) hcalled
  | broke hjournal' hcalled =>
    exact .broke (by rw [hjournal', hjournal, List.append_assoc]) hcalled
  | full hgrow hfull => exact .full hgrow hfull

omit [Paging π] in
theorem fillChunk_excused {e : Interval (Object γ)} {k : Nat} (hg : e.value.geometry.Regular)
    (hsize : (e.value.geometry.chunk k).bytes ≤ w.scratch.size) :
    Ends (fillChunk e.value (e.value.geometry.chunk k)) w (fun _ _ => True) (Excused e k w) := by
  have htarget : (w.scratch.take (e.contentLen k)).length = e.contentLen k :=
    Buffer.length_take (hg.content_le_bytes.trans hsize)
  have hstart : w.journal = w.journal ++ [] := (List.append_nil _).symm
  unfold fillChunk
  simp only [ends_bind, ends_note, ends_get, ends_set]
  rw [show (e.value.geometry.chunk k).count * e.value.geometry.stride = e.contentLen k from rfl]
  cases hfill : (e.value.fill (e.value.geometry.chunk k).first (e.value.geometry.chunk k).stop
    (w.scratch.take (e.contentLen k)) w.client).1 with
  | gaveUp reason => exact .gaveUp hstart ⟨htarget, _, Prod.ext hfill rfl, rfl⟩
  | broke => exact .broke hstart ⟨htarget, _, Prod.ext hfill rfl, rfl⟩
  | filled => trivial

omit [Paging π] in
/-- A record is put into the ring, unless the ring is full. -/
theorem recordChunk_pushes {r : ChunkRecord} (hring : w.ring.Sound) :
    Ends (recordChunk r) w (fun _ _ => True) fun _ w' =>
      w'.ring.toList = w.ring.toList ++ [r] ∨ w.ring.toList.length = w.ring.capacity := by
  unfold recordChunk
  simp only [ends_bind, ends_get]
  rcases Ring.push_spec hring r w.ringGrowable with ⟨ring, hpush, -, hlist⟩ | ⟨hpush, hfull, -⟩
  · rw [hpush, ends_settle_ok]
    unfold checkTotals
    simp only [ends_set, ends_bind, ends_get, ends_checked, ends_ensure, ends_modify, ends_count,
      hlist]
    simp only [true_or, implies_true, and_self]
  · rw [hpush, ends_settle_error]
    exact .inr ((Ring.length_toList hring).trans hfull)

omit [Paging π] in
/-- A chunk of an object begins at an address that exists. -/
theorem chunkStart_eq {e : Interval (Object γ)} {k : Nat} (hw : w.toDesk.Filed)
    (he : e ∈ w.objects.toList) (hr : (e.chunkRecord k).IsChunkOf e k) :
    Word.add e.bodyStart (e.value.geometry.chunk k).offset = .ok (e.chunkStart k) := by
  obtain ⟨-, hend⟩ := hr.within (hw.regular he) (hw.len e he)
  have hwords := hw.objects.end_lt e he
  refine Word.add_eq_ok.mpr ⟨?_, rfl⟩
  change e.bodyStart + (e.value.geometry.chunk k).offset + _ ≤ _ at hend
  omega

/-- **A chunk for which there is room is loaded, unless a callback or the memory fails or the
ring is full.** -/
theorem loadChunk_excused {e : Interval (Object γ)} {k : Nat} (hw : w.toDesk.Filed)
    (ho : w.toDesk.Owes lost) (he : e ∈ w.objects.toList) (hr : (e.chunkRecord k).IsChunkOf e k)
    (hsize : (e.value.geometry.chunk k).bytes ≤ w.scratch.size)
    (hle : w.used + (e.value.geometry.chunk k).bytes ≤ w.limits.high)
    (hlt : w.used + (e.value.geometry.chunk k).bytes < wordBound) :
    Ends (loadChunk { object := e.value, bodyStart := e.bodyStart,
                      span := e.value.geometry.chunk k }) w (fun _ _ => True)
      fun f w' => Excused e k w f w' ∨ Defaults lost f := by
  have hfits : Word.isAllocatable (e.chunkRecord k).size := Word.isAllocatable_mono hsize hw.scratch
  have hstart := chunkStart_eq hw he hr
  unfold loadChunk
  simp only [ends_bind]
  refine ((fillChunk_ends (hw.regular he) hsize).and
    (fillChunk_excused (hw.regular he) hsize)).mono ?_ fun _ _ h => .inl h.2
  rintro content v ⟨⟨⟨x, -, hv⟩, -, -⟩, -⟩
  rw [hstart, ends_checked_ok]
  refine ends_callPages fun result pages _ => ?_
  set y : JournalEntry := .install (e.chunkStart k) content result
  set u : Worker π γ := { v with pages, journal := v.journal ++ [y] }
  have hu : SameBooks w u ([x] ++ [y]) :=
    hv.trans ⟨⟨rfl, rfl, rfl, rfl, rfl⟩, rfl, rfl, rfl, rfl, rfl⟩
  rw [ends_settle]
  refine ⟨fun installed _ => ?_, fun cause herr => ?_⟩
  · rw [ends_ite]
    refine ⟨fun _ => ?_, fun _ => trivial⟩
    refine ((recordChunk_ends (hu.filed hw) (hu.owes ho) (by rw [hu.objects]; exact he) hr hfits
      (by rw [hu.used, hu.limits]; exact hle) (by rw [hu.used]; exact hlt)).and
      (recordChunk_pushes (hu.filed hw).ring)).mono (fun _ _ _ => trivial) ?_
    rintro f w' ⟨⟨rfl, hlost⟩ | ⟨rfl, rfl, hgrow⟩, hpushed⟩
    · exact .inr ⟨hlost, .inr rfl⟩
    · refine .inl (.full hgrow (hpushed.resolve_left fun heq => ?_))
      simpa using congrArg List.length heq
  · refine .inl (.hindered (.refused hu.journal rfl ?_))
    show JournalEntry.refusal? (.install (e.chunkStart k) content result) = some cause
    rw [herr]
    rfl

/-! ### Handling a fault -/

/-- An address in a body has a chunk. -/
theorem chunkRecord_isChunkOf {d : Desk γ} (hd : d.Filed) {e : Interval (Object γ)}
    (he : e ∈ d.objects.toList) {address : Nat} (hbody : e.InBody address)
    (hfull : e.value.geometry.loadCount * e.value.geometry.stride < wordBound) :
    (e.chunkRecord (e.chunkNumber address)).IsChunkOf e (e.chunkNumber address) :=
  ⟨rfl, hfull, (hd.regular he).hasChunk_of_lt hbody.offset_lt, rfl, rfl⟩

/-- The worker after a fault was counted. -/
def faulted (w : Worker π γ) : Worker π γ :=
  w.onExchange fun x => { x with stats := x.stats.record .fault }

/-- A fault in a body comes to make room and to load the chunk, with a scratch buffer that is
large enough. -/
theorem handleFault_begins {e : Interval (Object γ)} {address : Nat} (hw : w.toDesk.Filed)
    (hsized : w.toDesk.Sized) (hhigh : 2 * w.limits.high < wordBound) (he : e ∈ w.objects.toList)
    (hbody : e.InBody address)
    (hfull : e.value.geometry.loadCount * e.value.geometry.stride < wordBound) :
    ∃ scratch : Buffer, (e.value.geometry.chunk (e.chunkNumber address)).bytes ≤ scratch.size ∧
      { faulted w with scratch }.toDesk.Filed ∧
      handleFault address w =
        (evictFor (e.value.geometry.chunk (e.chunkNumber address)).bytes >>= fun _ =>
          loadChunk { object := e.value, bodyStart := e.bodyStart,
                      span := e.value.geometry.chunk (e.chunkNumber address) })
          { faulted w with scratch } := by
  have hfits : (e.value.geometry.chunk (e.chunkNumber address)).bytes ≤ w.limits.high :=
    hsized e he (e.chunkNumber address)
  have hallocatable :
      Word.isAllocatable (e.value.geometry.chunk (e.chunkNumber address)).bytes := by
    unfold Word.isAllocatable
    rw [decide_eq_true_eq]
    omega
  obtain ⟨scratch, hgrow⟩ := Buffer.growTo_ok (b := w.scratch) hallocatable
  obtain ⟨hscratch, hbytes⟩ := Buffer.growTo_size hw.scratch hgrow
  refine ⟨scratch, hbytes,
    ⟨hw.objects, hw.built, hw.len, hw.ring, hw.chunks, hw.fits, hscratch⟩, ?_⟩
  show (checked (locateFault w.objects address) >>= _ : WorkerM π γ Unit) (faulted w) = _
  rw [locateFault_inside hw he hbody hfull]
  show (if w.limits.high < _ then _ else _ : WorkerM π γ Unit) (faulted w) = _
  rw [if_neg (Nat.not_lt.mpr hfits)]
  show (checked (w.scratch.growTo _) >>= _ : WorkerM π γ Unit) (faulted w) = _
  rw [hgrow]
  rfl

theorem handleFault_excused {e : Interval (Object γ)} {address : Nat} (hw : w.toDesk.Filed)
    (ho : w.toDesk.Owes 0) (hmarks : w.limits.low ≤ w.limits.high) (hsized : w.toDesk.Sized)
    (hhigh : 2 * w.limits.high < wordBound)
    (he : e ∈ w.objects.toList) (hbody : e.InBody address)
    (hfull : e.value.geometry.loadCount * e.value.geometry.stride < wordBound) :
    Ends (handleFault address) w (fun _ _ => True) (Excused e (e.chunkNumber address) w) := by
  obtain ⟨scratch, hbytes, hfiled, hrun⟩ := handleFault_begins hw hsized hhigh he hbody hfull
  set k := e.chunkNumber address
  have hr : (e.chunkRecord k).IsChunkOf e k := chunkRecord_isChunkOf hw he hbody hfull
  have hfits : (e.value.geometry.chunk k).bytes ≤ w.limits.high := hsized e he k
  set grown : Worker π γ := { faulted w with scratch }
  have howes : grown.toDesk.Owes 0 := ho.of_eq rfl rfl rfl
  have hstart : grown.journal = w.journal ++ [] := (List.append_nil _).symm
  refine Ends.of_run_eq ?_ hrun
  rw [ends_bind]
  refine ((evictFor_ends (w := grown) hfiled howes hmarks hfits).and
    (evictFor_hindered (w := grown) hfiled howes hfits hhigh)).mono ?_ ?_
  · rintro _ v ⟨⟨es, hv, hle, hlt⟩, -⟩
    have hobjects : v.objects = w.objects := hv.objects
    refine (loadChunk_excused hv.filed hv.owes (by rw [hobjects]; exact he) hr
      (hbytes.trans hv.scratch) hle hlt).mono (fun _ _ h => h) fun _ _ h => ?_
    exact (h.resolve_right not_defaults_zero).of_later hv.journal hobjects
  · rintro f v ⟨-, hhindered⟩
    exact .hindered (hhindered.of_later hstart rfl)

/-- **A fault in the body of an object is handled**, unless the memory refuses a call, a
callback gives up or breaks off, or the ring is full and may not grow. So the worker itself
never finds such a chunk too large, the ring empty or the address unknown. A fault on any
other address is refused, and nothing but the count of faults changes. -/
theorem fault_excused {w : Worker π γ} (h : Reachable w) (hhigh : w.limits.high < 2 ^ 63)
    (address : Nat) :
    (∀ e ∈ w.objects.toList, e.InBody address →
      e.value.geometry.loadCount * e.value.geometry.stride < wordBound →
      ((∃ w', handleFault address w = .ok () w') ∨ ∃ f w', handleFault address w = .error f w' ∧
        Excused e (e.chunkNumber address) w f w') ∧
      ∀ cause w', handleFault address w = .error (.error cause) w' →
        (∃ chunk high, cause = .chunkTooLarge chunk high) ∨ cause = .ringEmpty ∨
          (∃ a, cause = .unknownAddress a) →
        ∃ es x, w'.journal = w.journal ++ es ∧ es.getLast? = some x ∧ x.refusal? = some cause) ∧
    ((∀ e ∈ w.objects.toList, ¬e.InBody address) →
      handleFault address w = .error (.error (.unknownAddress address)) (faulted w)) := by
  have hw := h.inOrder
  have hdouble : 2 * w.limits.high < wordBound := by
    show _ < 18446744073709551616
    omega
  refine ⟨fun e he hbody hfull => ?_, fun hout => ?_⟩
  · have hends := handleFault_excused hw.filed hw.owes hw.marks.le h.sized hdouble he hbody hfull
    refine ⟨?_, fun cause w' herr hown => ?_⟩
    · cases hact : handleFault address w with
      | ok a w' => exact .inl ⟨w', rfl⟩
      | error f w' => exact .inr ⟨f, w', rfl, hends.of_error hact⟩
    · cases hends.of_error herr with
      | hindered hhindered =>
        cases hhindered with
        | refused hjournal hlast hx => exact ⟨_, _, hjournal, hlast, hx⟩
      | gaveUp => rcases hown with ⟨_, _, h⟩ | h | ⟨_, h⟩ <;> cases h
      | full => rcases hown with ⟨_, _, h⟩ | h | ⟨_, h⟩ <;> cases h
  · show (checked (locateFault w.objects address) >>= _ : WorkerM π γ Unit) (faulted w) = _
    rw [locateFault_outside hw.filed hout]
    rfl

/-- The object of the sample run lies at 0x10000000 and its body has 128 bytes. A fault in it
that finds the budget used up is handled; one behind it is refused. -/
theorem fault_excused_sample :
    (∃ w', handleFault 0x10000020 (sampleRun [0x10000010, 0x10000000]) = .ok () w') ∧
      handleFault 0x10000080 (sampleRun [0x10000010, 0x10000000]) =
        .error (.error (.unknownAddress 0x10000080))
          (faulted (sampleRun [0x10000010, 0x10000000])) := by
  have hobjects : ((sampleRun [0x10000010, 0x10000000]).objects.toList.map fun e =>
      (e.start, e.value.geometry)) = [(0x10000000, sampleObject.geometry)] := by decide +kernel
  obtain ⟨e, he, hfields⟩ := List.map_eq_singleton_iff.mp hobjects
  obtain ⟨hstart, hgeometry⟩ := Prod.mk.inj hfields
  have hbody : ∀ address, e.InBody address ↔ 0x10000000 ≤ address ∧ address < 0x10000080 := by
    intro address
    unfold Interval.InBody Interval.bodyStart
    rw [hstart, hgeometry, show sampleObject.geometry.paddedHeader = 0 from rfl,
      show sampleObject.geometry.trueSize = 128 from rfl]
  have hhigh : (sampleRun [0x10000010, 0x10000000]).limits.high < 2 ^ 63 := by decide +kernel
  have hmem : e ∈ (sampleRun [0x10000010, 0x10000000]).objects.toList := by
    rw [he]
    exact List.mem_singleton_self e
  have hfull : e.value.geometry.loadCount * e.value.geometry.stride < wordBound := by
    rw [hgeometry]
    decide
  refine ⟨?_, (fault_excused sampleRun_full hhigh 0x10000080).2 fun e' he' => ?_⟩
  · have hin : e.InBody 0x10000020 := (hbody 0x10000020).mpr ⟨by decide, by decide⟩
    have hending : ending (handleFault 0x10000020) (sampleRun [0x10000010, 0x10000000]) = none := by
      decide +kernel
    obtain ⟨⟨⟩, hok⟩ := eq_ok_of_ending hending
    rcases ((fault_excused sampleRun_full hhigh 0x10000020).1 e hmem hin hfull).1 with
      h | ⟨f, w', h, -⟩
    · exact h
    · rw [hok] at h
      cases h
  · have heq : e' = e := List.mem_singleton.mp (he ▸ he')
    rw [heq, hbody 0x10000080]
    omega

end Worker
end DemandPager
