/-
# Every live record is backed by a page

Over a tidy memory the first page of each chunk on record has content, and no two live records are
of one chunk. This holds whatever calls are refused, as long as the host takes no page away behind
the back of the worker and a reservation never meets an object that is recorded.

The converse does not hold: a chunk can be resident without a record, if its record found no place
or if it could not be read when it was to be dropped.

Key definitions: `Paging.Recedes`, `Sited`, `Backed`, `undisturbed`.
Key theorems: `Move.backed`, `Placing.recedes`, `Placing.backed`, `Worker.History.backed`.
-/
import DemandPager.Proofs.Histories
import DemandPager.Proofs.Residency
import DemandPager.Proofs.Tidiness

namespace DemandPager

open Worker (Called CalledBreakable)

variable {π γ : Type} [Paging π]

/-! ### Pages that lose their content -/

namespace Paging

variable {content : π → Nat → Option Bytes} {start len : Nat} {p p' p'' : π}

/-- Only pages of a range lose their content. -/
structure Recedes (content : π → Nat → Option Bytes) (start len : Nat) (p p' : π) : Prop where
  pageSize : Paging.pageSize p' = Paging.pageSize p
  content : ∀ a, content p a ≠ none → content p' a = none → start ≤ a ∧ a < start + len

theorem Recedes.trans (h : Recedes content start len p p') (h' : Recedes content start len p' p'') :
    Recedes content start len p p'' := by
  refine ⟨h'.pageSize.trans h.pageSize, fun a hbefore hafter => ?_⟩
  by_cases hbetween : content p' a = none
  · exact h.content a hbefore hbetween
  · exact h'.content a hbetween hafter

theorem Same.recedes (h : Same content p p') : Recedes content start len p p' := by
  refine ⟨h.pageSize, fun a hbefore hafter => ?_⟩
  rw [h.content] at hafter
  exact absurd hafter hbefore

theorem Dropped.recedes (h : Dropped content start len p p') : Recedes content start len p p' := by
  refine ⟨h.pageSize, fun a hbefore hafter => ?_⟩
  rcases h.content a with hsame | hin
  · exact absurd (hsame.symm.trans hafter) hbefore
  · exact hin.1

/-- What is given takes nothing away, wherever it is. -/
theorem Given.recedes {start' len' : Nat} (h : Given content start' len' p p') :
    Recedes content start len p p' := by
  refine ⟨h.pageSize, fun a hbefore hafter => ?_⟩
  rcases h.content a with hsame | hin
  · exact absurd (hsame.symm.trans hafter) hbefore
  · exact absurd hafter hin.2

end Paging

open Paging (Recedes)

/-- To lay out the memory of an object takes nothing away. -/
theorem Laid.recedes (m : Paging.Tidy π) {o : Object γ} {start start' len' : Nat} {pages pages' : π}
    (h : Laid o pages start pages') : Recedes m.content start' len' pages pages' := by
  obtain ⟨reserved, registered, hreserve, hregister, hzero⟩ := h
  have hregistered : Recedes m.content start' len' pages registered :=
    (m.reserve hreserve).recedes.trans (m.register hregister).recedes
  split at hzero
  · exact hregistered.trans (m.zero hzero).recedes
  · exact hzero ▸ hregistered

/-! ### Records and pages -/

variable {m : Paging.Tidy π} {s s' : View π γ} {e e' : Interval (Object γ)} {r r' : ChunkRecord}
  {k k' : Nat}

/-- The objects lie apart, each as its geometry says, and have the pages of the memory. -/
structure Sited (s : View π γ) : Prop where
  objects : (IntervalMap.mk s.objects).Sound
  built : ∀ e ∈ s.objects, e.value.geometry.Built
  len : ∀ e ∈ s.objects, e.len = e.value.geometry.trueSize
  page : ∀ e ∈ s.objects, e.value.geometry.pageSize = Paging.pageSize s.pages

namespace Sited

theorem of_empty (h : s.objects = []) : Sited s := by
  have hnone : ∀ e, e ∉ s.objects := fun e he => List.not_mem_nil (h ▸ he)
  refine ⟨?_, fun e he => absurd he (hnone e), fun e he => absurd he (hnone e),
    fun e he => absurd he (hnone e)⟩
  rw [h]
  exact IntervalMap.sound_empty

theorem regular (h : Sited s) (he : e ∈ s.objects) : e.value.geometry.Regular :=
  (h.built e he).regular

theorem page_pos (h : Sited s) (he : e ∈ s.objects) : 0 < Paging.pageSize s.pages := by
  rw [← h.page e he]
  exact (h.regular he).page_pos

/-- The object of a chunk holds all addresses of the chunk. -/
theorem holds_of_covers (h : Sited s) (he : e ∈ s.objects) (hr : r.IsChunkOf e k) {a : Nat}
    (ha : r.Covers a) : e.Holds a := by
  obtain ⟨hlow, hhigh⟩ := hr.within (h.regular he) (h.len e he)
  have hbody : e.start ≤ e.bodyStart := Nat.le_add_right ..
  unfold ChunkRecord.Covers at ha
  unfold Interval.Holds
  omega

theorem holds (h : Sited s) (he : e ∈ s.objects) (hr : r.IsChunkOf e k) : e.Holds r.address :=
  h.holds_of_covers he hr ⟨le_rfl, Nat.lt_add_of_pos_right (hr.size_pos (h.regular he))⟩

/-- A chunk that begins within another is that chunk. -/
theorem address_eq (h : Sited s) (he : e ∈ s.objects) (hr : r.IsChunkOf e k)
    (he' : e' ∈ s.objects) (hr' : r'.IsChunkOf e' k') (hin : r.Covers r'.address) :
    r'.address = r.address := by
  obtain rfl : e = e' :=
    h.objects.eq_of_holds he he' (h.holds_of_covers he hr hin) (h.holds he' hr')
  unfold ChunkRecord.Covers at hin
  have hg := h.regular he
  have hpos' := hg.bytes_pos hr'.hasChunk
  rw [hr.address, hr'.address, hr.size] at hin
  rcases Nat.lt_trichotomy k k' with hlt | rfl | hlt
  · have := hg.chunk_disjoint hlt
    omega
  · rw [hr.address, hr'.address]
  · have := hg.chunk_disjoint hlt
    omega

/-- The same objects over other pages of the same size. -/
theorem change (h : Sited s) (hobjects : s'.objects = s.objects)
    (hpage : Paging.pageSize s'.pages = Paging.pageSize s.pages) : Sited s' := by
  refine ⟨?_, ?_, ?_, fun e he => ?_⟩
  · rw [hobjects]
    exact h.objects
  · rw [hobjects]
    exact h.built
  · rw [hobjects]
    exact h.len
  · rw [hpage]
    exact h.page e (hobjects ▸ he)

/-- An object goes. -/
theorem strike (h : Sited s) {start : Nat}
    (hobjects : s'.objects = s.objects.filter (·.start ≠ start))
    (hpage : Paging.pageSize s'.pages = Paging.pageSize s.pages) : Sited s' := by
  have hold : ∀ x ∈ s'.objects, x ∈ s.objects :=
    fun x hx => List.mem_of_mem_filter (hobjects ▸ hx)
  refine ⟨?_, fun x hx => h.built x (hold x hx), fun x hx => h.len x (hold x hx), fun x hx => ?_⟩
  · have hordered : (IntervalMap.mk s'.objects).toList.Sublist s.objects :=
      hobjects ▸ List.filter_sublist
    exact ⟨h.objects.ordered.sublist hordered, fun x hx => h.objects.len_pos x (hold x hx),
      fun x hx => h.objects.end_lt x (hold x hx)⟩
  · rw [hpage]
    exact h.page x (hold x hx)

/-- One more object. -/
theorem place (h : Sited s) {o : Object γ} {start : Nat} {objects : IntervalMap (Object γ)}
    (ho : o.geometry.Built) (hpage : o.geometry.pageSize = Paging.pageSize s.pages)
    (hinsert : (IntervalMap.mk s.objects).insert start o.geometry.trueSize o = .ok objects)
    (hobjects : s'.objects = objects.toList)
    (hpages : Paging.pageSize s'.pages = Paging.pageSize s.pages) : Sited s' := by
  have hmem : ∀ x ∈ s'.objects, x = { start, len := o.geometry.trueSize, value := o } ∨
      x ∈ s.objects := fun x hx => (IntervalMap.mem_insert h.objects hinsert).mp (hobjects ▸ hx)
  refine ⟨?_, fun x hx => ?_, fun x hx => ?_, fun x hx => ?_⟩
  · rw [hobjects]
    exact IntervalMap.sound_insert h.objects hinsert
  · rcases hmem x hx with rfl | hold
    · exact ho
    · exact h.built x hold
  · rcases hmem x hx with rfl | hold
    · rfl
    · exact h.len x hold
  · rw [hpages]
    rcases hmem x hx with rfl | hold
    · exact hpage
    · exact h.page x hold

end Sited

/-- The objects and the records of a view, and the pages that back the records. -/
structure Backed (m : Paging.Tidy π) (s : View π γ) : Prop extends Sited s where
  chunks : ∀ r ∈ s.records, r.isLive → ∃ e ∈ s.objects, ∃ k, r.IsChunkOf e k
  /-- No two live records are of one chunk. -/
  apart : s.records.Pairwise fun r r' => r.isLive → r'.isLive → r.address ≠ r'.address
  backed : ∀ r ∈ s.records, r.isLive → m.content s.pages r.address ≠ none

namespace Backed

theorem of_empty (hobjects : s.objects = []) (hrecords : s.records = []) : Backed m s := by
  have hnone : ∀ r, r ∉ s.records := fun r hr => List.not_mem_nil (hrecords ▸ hr)
  refine ⟨.of_empty hobjects, fun r hr => absurd hr (hnone r), ?_,
    fun r hr => absurd hr (hnone r)⟩
  rw [hrecords]
  exact List.Pairwise.nil

/-- Other pages, which have lost only what backs no record, and another state of the callers. -/
theorem change (h : Backed m s) {pages : π} {start len : Nat}
    (hpages : Recedes m.content start len s.pages pages)
    (hout : ∀ r ∈ s.records, r.isLive → ¬(start ≤ r.address ∧ r.address < start + len))
    (client : γ) : Backed m { s with pages, client } where
  toSited := h.toSited.change rfl hpages.pageSize
  chunks := h.chunks
  apart := h.apart
  backed := fun r hr hlive hnone =>
    hout r hr hlive (hpages.content _ (h.backed r hr hlive) hnone)

/-- Other pages, which have lost nothing, and another state of the callers. -/
theorem keep (h : Backed m s) {pages : π} (hpages : Recedes m.content 0 0 s.pages pages)
    (client : γ) : Backed m { s with pages, client } :=
  h.change hpages (fun _ _ _ hin => Nat.not_lt_zero _ (Nat.add_zero 0 ▸ hin.2)) client

/-- The oldest record goes. -/
theorem tail (h : Backed m s) {rest : List ChunkRecord} (hs : s.records = r :: rest) :
    Backed m { s with records := rest } := by
  have hrest : ∀ x ∈ rest, x ∈ s.records := fun x hx => hs ▸ List.mem_cons_of_mem _ hx
  have hpairs := h.apart
  rw [hs] at hpairs
  exact ⟨h.toSited.change rfl rfl, fun x hx => h.chunks x (hrest x hx), hpairs.of_cons,
    fun x hx => h.backed x (hrest x hx)⟩

/-- The oldest chunk is dropped. -/
theorem evict (h : Backed m s) {rest : List ChunkRecord} (hs : s.records = r :: rest)
    (he : e ∈ s.objects) (hr : r.IsChunkOf e k) {pages : π}
    (hpages : Recedes m.content r.address r.size s.pages pages) (client : γ) :
    Backed m { s with pages, client, records := rest } := by
  refine (h.tail hs).change hpages (fun x hx hlive hin => ?_) client
  have hlive' : r.isLive = true := ChunkRecord.isLive_iff.mpr (hr.size_pos (h.regular he))
  have hpairs := h.apart
  rw [hs, List.pairwise_cons] at hpairs
  obtain ⟨e', he', k', hk⟩ := h.chunks x (hs ▸ List.mem_cons_of_mem _ hx) hlive
  exact hpairs.1 x hx hlive' hlive (h.address_eq he hr he' hk hin).symm

/-- A chunk is installed in an empty place and recorded. -/
theorem load (h : Backed m s) (he : e ∈ s.objects) (hr : r.IsChunkOf e k) {pages : π}
    (hnew : m.content s.pages r.address = none) (hthere : m.content pages r.address ≠ none)
    (hpages : Recedes m.content 0 0 s.pages pages) (client : γ) :
    Backed m { s with pages, client, records := s.records ++ [r] } := by
  have hkept := h.keep hpages client
  refine ⟨hkept.toSited.change rfl rfl, fun x hx hlive => ?_, ?_, fun x hx hlive => ?_⟩
  · rcases List.mem_append.mp hx with hx | hx
    · exact h.chunks x hx hlive
    · rw [List.mem_singleton.mp hx]
      exact ⟨e, he, k, hr⟩
  · refine List.pairwise_append.mpr ⟨h.apart, List.pairwise_singleton .., ?_⟩
    intro x hx y hy hlive _ heq
    rw [List.mem_singleton.mp hy] at heq
    exact h.backed x hx hlive (heq ▸ hnew)
  · rcases List.mem_append.mp hx with hx | hx
    · exact hkept.backed x hx hlive
    · rw [List.mem_singleton.mp hx]
      exact hthere

/-- An object goes, with its records and its memory. -/
theorem strike (h : Backed m s) (he : e ∈ s.objects) {pages : π}
    (hpages : Recedes m.content e.start e.len s.pages pages) (client : γ) :
    Backed m { s with
      pages
      client
      objects := s.objects.filter (·.start ≠ e.start)
      records := Ring.retired e.value.id s.records } := by
  have hother : ∀ x, x ∈ s.objects.filter (·.start ≠ e.start) ↔ x ∈ s.objects ∧ x ≠ e := by
    intro x
    rw [List.mem_filter, decide_eq_true_eq]
    exact and_congr_right fun hx =>
      not_congr ⟨h.objects.eq_of_start hx he, congrArg _⟩
  -- what is live afterwards is a chunk of another object
  have hlives : ∀ x ∈ Ring.retired e.value.id s.records, x.isLive → x ∈ s.records ∧
      ∃ e' ∈ s.objects, e' ≠ e ∧ ∃ k, x.IsChunkOf e' k := by
    intro x hx hlive
    obtain ⟨hold, howner⟩ := Ring.of_mem_retired hx hlive
    obtain ⟨e', he', k, hk⟩ := h.chunks x hold hlive
    refine ⟨hold, e', he', ?_, k, hk⟩
    rintro rfl
    exact howner hk.owner
  refine ⟨h.toSited.strike rfl hpages.pageSize, fun x hx hlive => ?_, ?_,
    fun x hx hlive hnone => ?_⟩
  · obtain ⟨-, e', he', hne, k, hk⟩ := hlives x hx hlive
    exact ⟨e', (hother e').mpr ⟨he', hne⟩, k, hk⟩
  · refine h.apart.map _ fun a b hab ha hb => ?_
    by_cases howner : a.owner = e.value.id
    · rw [if_pos howner] at ha
      cases ha
    by_cases howner' : b.owner = e.value.id
    · rw [if_pos howner'] at hb
      cases hb
    rw [if_neg howner] at ha ⊢
    rw [if_neg howner'] at hb ⊢
    exact hab ha hb
  · obtain ⟨hold, e', he', hne, k, hk⟩ := hlives x hx hlive
    have hin : e.Holds x.address := hpages.content _ (h.backed x hold hlive) hnone
    exact hne (h.objects.eq_of_holds he' he (h.holds he' hk) hin)

/-- One more object. -/
theorem place (h : Backed m s) {o : Object γ} {start : Nat} {pages : π}
    {objects : IntervalMap (Object γ)} (ho : o.geometry.Built)
    (hpage : o.geometry.pageSize = Paging.pageSize s.pages)
    (hpages : Recedes m.content 0 0 s.pages pages)
    (hinsert : (IntervalMap.mk s.objects).insert start o.geometry.trueSize o = .ok objects) :
    Backed m { s with pages, objects := objects.toList } := by
  refine ⟨h.toSited.place ho hpage hinsert rfl hpages.pageSize, fun r hr hlive => ?_, h.apart,
    (h.keep hpages s.client).backed⟩
  obtain ⟨e, he, k, hk⟩ := h.chunks r hr hlive
  exact ⟨e, (IntervalMap.mem_insert h.objects hinsert).mpr (.inr he), k, hk⟩

/-- A reservation that meets no object backs no record. -/
theorem not_in_reservation (h : Backed m s) {start len : Nat}
    (hapart : ∀ e ∈ s.objects, e.Apart start len) :
    ∀ r ∈ s.records, r.isLive → ¬(start ≤ r.address ∧ r.address < start + len) := by
  intro r hr hlive
  obtain ⟨e, he, k, hk⟩ := h.chunks r hr hlive
  exact (hapart e he).not_within (h.holds he hk)

end Backed

/-! ### Moves and placings -/

/-- The content of a chunk is installed in an empty place. -/
theorem Backed.installed (h : Backed m s) (he : e ∈ s.objects) (hr : r.IsChunkOf e k)
    {content : Bytes} {client : γ} {pages : π} (hfill : Filled e k s.client content client)
    (hinstall : Called (Paging.install r.address content) s.pages (.ok true) pages) :
    m.content s.pages r.address = none ∧ m.content pages r.address ≠ none ∧
      Recedes m.content 0 0 s.pages pages := by
  obtain ⟨hnew, hgiven, hthere⟩ := m.installed hinstall
  refine ⟨hnew, hthere (h.page_pos he) ?_, hgiven.recedes⟩
  rw [hfill.length hr (h.regular he)]
  exact hr.size_pos (h.regular he)

/-- **Every move keeps the live records backed.** -/
theorem Move.backed (h : Move s s') (hs : Backed m s) : Backed m s' := by
  cases h with
  | skip hrecords => exact hs.tail hrecords
  | evict hrecords he hr hoffer hdiscard =>
    exact hs.evict hrecords he hr ((hoffer.same m).recedes.trans (m.discard hdiscard).recedes) _
  | lose hlose =>
    obtain ⟨hrecords, -, -, -, hread⟩ := hlose
    exact (hs.tail hrecords).keep (m.readResident hread).recedes _
  | offer _ _ _ hoffer => exact hs.keep (hoffer.same m).recedes _
  | unread hread => exact hs.keep (m.readResident hread).recedes _
  | unregister hcall => exact hs.keep (m.unregister hcall).recedes _
  | giveUp => exact hs.keep (Paging.Same.refl _).recedes _
  | load he hr hfill hinstall =>
    obtain ⟨hnew, hthere, hpages⟩ := hs.installed he hr hfill hinstall
    exact hs.load he hr hnew hthere hpages _
  | spill he hr hfill hinstall => exact hs.keep (hs.installed he hr hfill hinstall).2.2 _
  | waste _ _ _ hinstall hresult => exact hs.keep (m.uninstalled hinstall hresult).recedes _
  | strike he hoffer hunregister hrelease =>
    refine hs.strike he ?_ _
    have hfreed := (hoffer.same m).trans (m.unregister hunregister)
    exact hfreed.recedes.trans (m.release hrelease).recedes

/-- To create an object takes no page from another, if its reservation meets none. -/
theorem Placing.recedes (m : Paging.Tidy π) {o : Object γ} (h : Placing o s s')
    (hvacant : ∀ start pages, CalledBreakable (Paging.reserve o.geometry.trueSize
      o.geometry.paddedHeader (!o.geometry.readOnly)) s.pages (.ok start) pages →
        ∀ e ∈ s.objects, e.Apart start o.geometry.trueSize) :
    s'.records = s.records ∧ ∃ start len, (∀ e ∈ s.objects, e.Apart start len) ∧
      Recedes m.content start len s.pages s'.pages := by
  have hnowhere : ∀ e ∈ s.objects, e.Apart 0 0 := fun e _ => .inr (Nat.zero_le _)
  cases h with
  | unfit => exact ⟨rfl, 0, 0, hnowhere, (Paging.Same.refl _).recedes⟩
  | placed _ hlaid => exact ⟨rfl, 0, 0, hnowhere, hlaid.recedes m⟩
  | unreserved hreserve => exact ⟨rfl, 0, 0, hnowhere, (m.reserve hreserve).recedes⟩
  | unregistered hreserve hregister hrelease =>
    refine ⟨rfl, _, _, hvacant _ _ hreserve, ?_⟩
    have hasked := (m.reserve hreserve).trans (m.register hregister)
    exact hasked.recedes.trans (m.release hrelease).recedes
  | unzeroed hreserve hregister hzero hunregister hrelease =>
    refine ⟨rfl, _, _, hvacant _ _ hreserve, ?_⟩
    have hasked := (m.reserve hreserve).trans (m.register hregister)
    exact ((hasked.recedes.trans (m.zero hzero).recedes).trans
      (m.unregister hunregister).recedes).trans
      (m.release hrelease).recedes
  | unrecorded _ hlaid _ hunregister hrelease =>
    obtain ⟨reserved, _, hreserve, -⟩ := id hlaid
    refine ⟨rfl, _, _, hvacant _ _ hreserve, ?_⟩
    exact ((hlaid.recedes m).trans (m.unregister hunregister).recedes).trans
      (m.release hrelease).recedes

/-- **To create an object keeps the live records backed**, if its reservation meets no object. -/
theorem Placing.backed {o : Object γ} (h : Placing o s s') (hs : Backed m s)
    (ho : o.geometry.Built)
    (hvacant : ∀ start pages, CalledBreakable (Paging.reserve o.geometry.trueSize
      o.geometry.paddedHeader (!o.geometry.readOnly)) s.pages (.ok start) pages →
        ∀ e ∈ s.objects, e.Apart start o.geometry.trueSize) : Backed m s' := by
  obtain ⟨-, start, len, hapart, hpages⟩ := h.recedes m hvacant
  have hout := hs.not_in_reservation hapart
  cases h with
  | placed hpage hlaid hinsert => exact hs.place ho hpage (hlaid.recedes m) hinsert
  | _ => exact hs.change hpages hout _

namespace Worker

/-! ### Histories -/

/-- The host takes no page away, and it reserves no memory that an object has. -/
def undisturbed (m : Paging.Tidy π) : Surroundings π γ where
  begins _ := True
  drifts s s' := Recedes m.content 0 0 s.pages s'.pages
  asks w o := ∀ (start : Nat) (pages : π), CalledBreakable (Paging.reserve o.geometry.trueSize
    o.geometry.paddedHeader (!o.geometry.readOnly)) w.pages (.ok start) pages →
      ∀ e ∈ w.objects.toList, e.Apart start o.geometry.trueSize

/-- **In every history the live records are backed.** -/
theorem History.backed {w : Worker π γ} (h : History (undisturbed m) w) : Backed m w.view := by
  refine h.view_induction (fun site growable _ => ?_) (fun w site hdrift hw => ?_)
    (fun w o s _ ho hasked hplacing hw => hplacing.backed hw ho hasked)
    fun s s' hmove hs => hmove.backed hs
  · exact .of_empty rfl rfl
  · exact hw.keep hdrift _

end Worker
end DemandPager
