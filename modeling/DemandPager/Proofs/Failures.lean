/-
# What a fault leaves that is not handled

Until a chunk is installed the handling of a fault only takes away: records of the oldest chunks,
with their pages, and never a page comes (`Worker.Sheds`). If it fails before, the chunk of the
fault is as absent as it was, and the ring has no record of it.

The record of a chunk comes after its installation, and the ring may be full by then. Then the
installation is not taken back: the fault fails, the ring has no record of the chunk, and the chunk
is resident all the same (`Worker.Stranded`). This is the only such way
(`Worker.failed_fault_leaves`).

Key definitions: `Worker.Sheds`, `Worker.Stranded`.
Key theorems: `Worker.sheds_easing`, `Worker.handleFault_sheds`, `Worker.failed_fault_leaves`.
-/
import DemandPager.Proofs.Backing
import DemandPager.Proofs.Easing
import DemandPager.Proofs.Outcomes

namespace DemandPager
namespace Worker

variable {π γ α : Type} [Paging π] {m : Paging.Tidy π} {w v w' : Worker π γ}

/-! ### Taking away -/

/-- No page came, and the ring has lost at most some of its oldest records. -/
structure Sheds (m : Paging.Tidy π) (w w' : Worker π γ) : Prop where
  pageSize : Paging.pageSize w'.pages = Paging.pageSize w.pages
  pages : ∀ a, m.content w.pages a = none → m.content w'.pages a = none
  ring : w.ring.Sound → w'.ring.Sound ∧ w'.ring.toList <:+ w.ring.toList
  ringGrowable : w'.ringGrowable = w.ringGrowable

instance : IsPreorder (Worker π γ) (Sheds m) where
  refl w := ⟨rfl, fun _ h => h, fun h => ⟨h, List.suffix_refl _⟩, rfl⟩
  trans := fun _ _ _ h h' => by
    refine ⟨h'.pageSize.trans h.pageSize, fun a ha => h'.pages a (h.pages a ha), fun hring => ?_,
      h'.ringGrowable.trans h.ringGrowable⟩
    obtain ⟨hring, hsuffix⟩ := h.ring hring
    obtain ⟨hring', hsuffix'⟩ := h'.ring hring
    exact ⟨hring', hsuffix'.trans hsuffix⟩

theorem sheds_of_eq (hpages : w'.pages = w.pages) (hring : w'.ring = w.ring)
    (hgrowable : w'.ringGrowable = w.ringGrowable) : Sheds m w w' := by
  refine ⟨by rw [hpages], fun a ha => by rwa [hpages], fun h => ?_, hgrowable⟩
  rw [hring]
  exact ⟨h, List.suffix_refl _⟩

theorem sheds_of_same (hpages : Paging.Same m.content w.pages w'.pages) (hring : w'.ring = w.ring)
    (hgrowable : w'.ringGrowable = w.ringGrowable) : Sheds m w w' := by
  refine ⟨hpages.pageSize, fun a ha => by rwa [hpages.content], fun h => ?_, hgrowable⟩
  rw [hring]
  exact ⟨h, List.suffix_refl _⟩

/-- **To make room only takes away.** -/
theorem sheds_easing : Easing (Sheds (γ := γ) m) where
  books _ _ _ _ _ := sheds_of_eq rfl rfl rfl
  pop {w record ring} hpop := by
    refine ⟨rfl, fun _ h => h, fun hring => ?_, rfl⟩
    rcases Ring.pop_spec hring with ⟨-, herr⟩ | ⟨record', ring', hok, hring', hlist⟩
    · rw [hpop] at herr
      cases herr
    · rw [hpop] at hok
      cases hok
      exact ⟨hring', hlist ▸ List.suffix_cons ..⟩
  handed _ _ _ _ _ := sheds_of_eq rfl rfl rfl
  read hcalled := sheds_of_same (m.readResident hcalled) rfl rfl
  discard hcalled := by
    have hdropped := m.discard hcalled
    refine ⟨hdropped.pageSize, fun a ha => ?_, fun h => ⟨h, List.suffix_refl _⟩, rfl⟩
    rcases hdropped.content a with hsame | ⟨-, hnone⟩
    · exact hsame.trans ha
    · exact hnone

omit [Paging π] in
/-- A record is not made only if the ring is full and may not grow. -/
theorem recordChunk_fails (r : ChunkRecord) (hring : w.ring.Sound) :
    Ends (recordChunk r) w (fun _ _ => True) fun f w' => ∀ cause, f = .error cause →
      cause = .ringExhausted ∧ w' = w ∧ w.ringGrowable = false ∧
        w.ring.toList.length = w.ring.capacity := by
  unfold recordChunk checkTotals
  simp only [ends_bind, ends_get]
  rcases Ring.push_spec hring r w.ringGrowable with ⟨ring, hpush, -, -⟩ | ⟨hpush, hfull, hgrow⟩
  · rw [hpush, ends_settle_ok]
    simp only [ends_set, ends_checked, ends_ensure, ends_modify, ends_count, Ring.liveBytes_eq]
    refine ⟨fun _ _ => ⟨fun _ _ => ⟨fun _ => ⟨fun _ => trivial, ?_⟩, ?_⟩, ?_⟩, ?_⟩
    · rintro - cause ⟨⟩
    · rintro - cause ⟨⟩
    · rintro _ h cause rfl
      cases Word.exact_eq_error h
    · rintro _ h cause rfl
      cases Word.exact_eq_error h
  · rw [hpush, ends_settle_error]
    rintro cause ⟨⟩
    exact ⟨rfl, rfl, hgrow, (Ring.length_toList hring).trans hfull⟩

/-! ### Loading a chunk -/

/-- A chunk was installed, and it stays so although the ring has no place for its record. -/
structure Stranded (m : Paging.Tidy π) (start : Nat) (w w' : Worker π γ) (cause : PagerError) :
    Prop where
  cause : cause = .ringExhausted
  ringGrowable : w.ringGrowable = false
  full : w'.ring.toList.length = w'.ring.capacity
  records : w'.ring.toList <:+ w.ring.toList
  installed : ∃ content, w'.journal.getLast? = some (.install start content (.ok true))
  resident : m.content w'.pages start ≠ none

theorem Stranded.of_later {start : Nat} {cause : PagerError} (h : Stranded m start v w' cause)
    (hv : Sheds m w v) (hring : w.ring.Sound) : Stranded m start w w' cause where
  cause := h.cause
  ringGrowable := hv.ringGrowable.symm.trans h.ringGrowable
  full := h.full
  records := h.records.trans (hv.ring hring).2
  installed := h.installed
  resident := h.resident

omit [Paging π] in
theorem fillChunk_leaves (object : Object γ) (span : Span) :
    Leads (fun w w' => w'.pages = w.pages ∧ w'.ring = w.ring ∧ w'.ringGrowable = w.ringGrowable)
      (fillChunk object span : WorkerM π γ Bytes) w := by
  unfold fillChunk
  unfold Leads
  simp only [ends_bind, ends_note, ends_get, ends_set]
  split
  · exact ⟨rfl, rfl, rfl⟩
  · exact ⟨rfl, rfl, rfl⟩
  · exact ⟨rfl, rfl, rfl⟩

/-- To load a chunk fails without a trace in the memory and on record, or the chunk is stranded. -/
theorem loadChunk_fails {e : Interval (Object γ)} {k : Nat} (hg : e.value.geometry.Regular)
    (hr : (e.chunkRecord k).IsChunkOf e k) (hring : w.ring.Sound)
    (hpage : 0 < Paging.pageSize w.pages)
    (hsize : (e.value.geometry.chunk k).bytes ≤ w.scratch.size) :
    Ends (loadChunk { object := e.value, bodyStart := e.bodyStart,
                      span := e.value.geometry.chunk k }) w (fun _ _ => True)
      (fun f w' => ∀ cause, f = .error cause →
        Sheds m w w' ∨ Stranded m (e.chunkStart k) w w' cause) := by
  unfold loadChunk
  simp only [ends_bind]
  refine ((fillChunk_ends hg hsize).and (fillChunk_leaves _ _)).mono ?_ ?_
  · rintro content v ⟨⟨-, -, hfill⟩, hpages, hv, hgrowable⟩
    simp only [ends_checked, Word.add_eq_ok]
    refine ⟨?_, fun f hf cause hcause => ?_⟩
    · rintro _ ⟨-, rfl⟩
      refine ends_callPages fun result pages hcalled => ?_
      rw [hpages] at hcalled
      set u : Worker π γ := { v with
        pages, journal := v.journal ++ [.install (e.chunkStart k) content result] }
      rw [ends_settle]
      refine ⟨?_, ?_⟩
      · rintro installed rfl
        rw [ends_ite]
        refine ⟨fun htrue => ?_, fun _ => trivial⟩
        subst htrue
        have huring : u.ring = w.ring := hv
        refine (recordChunk_fails (w := u) _ (huring ▸ hring)).mono (fun _ _ h => h) ?_
        intro f w' h cause hcause
        obtain ⟨rfl, rfl, hgrow, hfull⟩ := h cause hcause
        obtain ⟨-, -, hthere⟩ := m.installed hcalled
        refine .inr ⟨rfl, hgrowable.symm.trans hgrow, hfull, huring ▸ List.suffix_refl _,
          ⟨content, List.getLast?_concat ..⟩, hthere hpage ?_⟩
        rw [hfill.length hr hg]
        exact hr.size_pos hg
      · rintro cause rfl _ _
        exact .inl (sheds_of_same (m.uninstalled hcalled fun h => by cases h) hv hgrowable)
    · rw [Word.exact_eq_error hf] at hcause
      cases hcause
  · rintro f v ⟨-, hpages, hv, hgrowable⟩ _ _
    exact .inl (sheds_of_eq hpages hv hgrowable)

/-! ### Handling a fault -/

/-- **A fault that fails only takes away, or it strands its chunk.** -/
theorem handleFault_sheds {lost : Nat} {e : Interval (Object γ)} {address : Nat}
    (hw : w.toDesk.Filed) (ho : w.toDesk.Owes lost) (hmarks : w.limits.low ≤ w.limits.high)
    (he : e ∈ w.objects.toList) (hbody : e.InBody address)
    (hpage : e.value.geometry.pageSize = Paging.pageSize w.pages) :
    Ends (handleFault address) w (fun _ _ => True)
      (fun f w' => ∀ cause, f = .error cause →
        Sheds m w w' ∨ Stranded m (e.chunkStart (e.chunkNumber address)) w w' cause) := by
  have hcounted : ∀ stats, Sheds m w { w with exchange := { w.exchange with stats } } :=
    fun _ => sheds_of_eq rfl rfl rfl
  unfold handleFault
  simp only [ends_bind, ends_count, ends_get, ends_checked]
  refine ⟨fun site hsite => ?_, fun _ _ _ _ => .inl (hcounted _)⟩
  obtain ⟨e', he', hholds, -, hr, rfl⟩ := locateFault_eq_ok hw hsite
  obtain rfl : e' = e := hw.objects.eq_of_holds he' he hholds (hbody.holds (hw.len e he))
  set k := e'.chunkNumber address
  rw [ends_ite]
  refine ⟨fun _ _ _ => .inl (hcounted _), fun hlarge => ?_⟩
  simp only [ends_bind, ends_checked, ends_set]
  refine ⟨fun scratch hgrow => ?_, fun _ _ _ _ => .inl (hcounted _)⟩
  obtain ⟨hscratch, hbytes⟩ := Buffer.growTo_size hw.scratch hgrow
  set grown : Worker π γ := { w with
    exchange := { w.exchange with stats := w.exchange.stats.record .fault }, scratch }
  have hgrown : Sheds m w grown := sheds_of_eq rfl rfl rfl
  have hfiled : grown.toDesk.Filed :=
    ⟨hw.objects, hw.built, hw.len, hw.ring, hw.chunks, hw.fits, hscratch⟩
  have hroom : Ends (evictFor (e'.value.geometry.chunk k).bytes) grown (fun _ => Sheds m grown)
      fun _ => Sheds m grown := sheds_easing.evictFor _
  refine ((evictFor_ends (w := grown) hfiled (ho.of_eq rfl rfl rfl) hmarks
    (Nat.le_of_not_lt hlarge)).and hroom).mono ?_ ?_
  · rintro _ v ⟨⟨_, hv, -, -⟩, hsheds⟩
    have hw' := trans_of (Sheds m) hgrown hsheds
    have hpos : 0 < Paging.pageSize v.pages := by
      rw [hw'.pageSize, ← hpage]
      exact (hw.regular he).page_pos
    refine (loadChunk_fails (m := m) (hw.regular he) hr hv.filed.ring hpos
      (hbytes.trans hv.scratch)).mono (fun _ _ h => h) ?_
    intro f w' h cause hcause
    exact (h cause hcause).imp (trans_of (Sheds m) hw') (·.of_later hw' hw.ring)
  · rintro _ v ⟨-, hsheds⟩ _ _
    exact .inl (trans_of (Sheds m) hgrown hsheds)

/-- **A fault that fails leaves no record of its chunk, and no page of it unless the ring is
exhausted.** In every history, let the address lie in the body of an object, and let its chunk be
absent. If the handling of the fault ends with an error, no live record is of the chunk. All pages
that were absent still are, those of the chunk among them; or the last call has installed the chunk,
the full ring may not grow, and the chunk is resident without a record. -/
theorem failed_fault_leaves (h : History (undisturbed m) w) {e : Interval (Object γ)}
    {address : Nat} (he : e ∈ w.objects.toList) (hbody : e.InBody address)
    (habsent : m.content w.pages (e.chunkStart (e.chunkNumber address)) = none) :
    Ends (handleFault address) w (fun _ _ => True)
      (fun f w' => ∀ cause, f = .error cause →
        (∀ r ∈ w'.ring.toList, r.isLive → r.address ≠ e.chunkStart (e.chunkNumber address)) ∧
        ((∀ a, m.content w.pages a = none → m.content w'.pages a = none) ∨
          Stranded m (e.chunkStart (e.chunkNumber address)) w w' cause)) := by
  obtain ⟨hfiled, ⟨lost, howes⟩, hmarks⟩ := h.upright
  have hbacked := h.backed
  have hfresh : ∀ r ∈ w.ring.toList, r.isLive →
      r.address ≠ e.chunkStart (e.chunkNumber address) :=
    fun r hr hlive heq => hbacked.backed r hr hlive (heq ▸ habsent)
  refine (handleFault_sheds (m := m) hfiled howes hmarks.le he hbody (hbacked.page e he)).mono
    (fun _ _ h => h) ?_
  intro f w' hw' cause hcause
  rcases hw' cause hcause with hsheds | hstranded
  · exact ⟨fun r hr => hfresh r ((hsheds.ring hfiled.ring).2.subset hr), .inl hsheds.pages⟩
  · exact ⟨fun r hr => hfresh r (hstranded.records.subset hr), .inr hstranded⟩

/-- Books whose ring has one slot and may not grow. -/
def sampleNarrow : Worker ScriptedMemory Unit :=
  { sampleStart with ring := .ofCapacity 1, ringGrowable := false }

/-- A chunk of the sample object takes the slot. -/
def sampleFull : Worker ScriptedMemory Unit :=
  after (handleFault 0x10000000) (after (allocate sampleObject) sampleNarrow)

theorem sampleFull_history : History (undisturbed ScriptedMemory.tidy) sampleFull := by
  have hdesk : Desk.ofOptions 16 { high := 32, low := 16 }
      { ringCapacity := 1, ringGrowable := false } = .ok sampleNarrow.toDesk := rfl
  have hstart : History (undisturbed ScriptedMemory.tidy) sampleNarrow :=
    .start hdesk (by decide) trivial
  have hending : ending (allocate sampleObject) sampleNarrow = none := by decide +kernel
  have hplaced : History (undisturbed ScriptedMemory.tidy)
      (after (allocate sampleObject) sampleNarrow) :=
    .allocate hstart sampleObject_built (fun _ _ _ _ he => absurd he List.not_mem_nil)
      (.inl (eq_ok_of_ending hending))
  have hending : ending (handleFault 0x10000000) (after (allocate sampleObject) sampleNarrow) =
      none := by decide +kernel
  obtain ⟨⟨⟩, hloaded⟩ := eq_ok_of_ending hending
  exact .fault hplaced (.inl ⟨_, hloaded⟩)

/-- The next chunk of the sample object is resident and has no record. -/
theorem failed_fault_leaves_sample :
    sampleFull.pages.content 0x10000010 = none ∧
    ∃ w', handleFault 0x10000010 sampleFull = .error (.error .ringExhausted) w' ∧
      (∀ r ∈ w'.ring.toList, r.isLive → r.address ≠ 0x10000010) ∧
      w'.pages.content 0x10000010 ≠ none := by
  have hobjects : (sampleFull.objects.toList.map fun e => (e.start, e.value.geometry)) =
      [(0x10000000, sampleObject.geometry)] := by decide +kernel
  have habsent : sampleFull.pages.content 0x10000010 = none := by decide +kernel
  have hending : ending (handleFault 0x10000010) sampleFull = some (.error .ringExhausted) := by
    decide +kernel
  have hthere : (after (handleFault 0x10000010) sampleFull).pages.content 0x10000010 ≠ none := by
    decide +kernel
  have hfault := eq_error_of_ending hending
  have hhistory := sampleFull_history
  generalize after (handleFault 0x10000010) sampleFull = w' at hthere hfault
  generalize sampleFull = w at hobjects habsent hfault hhistory ⊢
  obtain ⟨e, he, hfields⟩ := List.map_eq_singleton_iff.mp hobjects
  obtain ⟨hstart, hgeometry⟩ := Prod.mk.inj hfields
  have hchunk : e.chunkStart (e.chunkNumber 0x10000010) = 0x10000010 := by
    unfold Interval.chunkStart Interval.chunkNumber Interval.bodyStart
    rw [hstart, hgeometry]
    decide
  have hbody : e.InBody 0x10000010 := by
    unfold Interval.InBody Interval.bodyStart
    rw [hstart, hgeometry]
    decide
  obtain ⟨hrecords, -⟩ := (failed_fault_leaves hhistory (he ▸ List.mem_singleton_self e) hbody
    (hchunk.symm ▸ habsent)).of_error hfault .ringExhausted rfl
  exact ⟨habsent, w', hfault, hchunk ▸ hrecords, hthere⟩

end Worker
end DemandPager
