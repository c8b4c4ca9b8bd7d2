/-
# Records and residency agree

Over a memory that refuses nothing, the books say which pages have content. A view
`Resides` if every page with content lies in an object, every page of a padded header
and of a chunk on record has content, and no two chunks on record meet. For an object
that begins on a page, moreover, each page of the body that has content is one of a
chunk on record. For other objects this can fail: their chunks cannot be read, and a
chunk that is to be handed over then loses its record and keeps its content.

Every move keeps this (`Moves.resides`).

Key definitions: `ChunkRecord.Covers`, `Arranged`, `Resides`.
Key theorems: `Resides.of_byte?`, `Resides.lose`, `Moves.resides`.
-/
import DemandPager.Proofs.Contents
import DemandPager.Proofs.Faults
import DemandPager.Proofs.Willing

namespace DemandPager

variable {γ : Type} {p : Nat} {r r' : ChunkRecord} {e e' : Interval (Object γ)} {k k' : Nat}
  {s s' : View ScriptedMemory γ}

/-- The address lies in the padded header. -/
def Interval.InHeader (e : Interval (Object γ)) (p : Nat) : Prop := e.start ≤ p ∧ p < e.bodyStart

/-- The address lies in the chunk of the record. A retired record has none. -/
def ChunkRecord.Covers (r : ChunkRecord) (p : Nat) : Prop :=
  r.address ≤ p ∧ p < r.address + r.size

theorem ChunkRecord.Covers.isLive (h : r.Covers p) : r.isLive = true := by
  have hpos : 0 < r.size := by
    unfold Covers at h
    omega
  exact isLive_iff.mpr hpos

/-- A record covers what it covered before a retirement, or nothing. -/
theorem ChunkRecord.Covers.of_retired {owner : Nat}
    (h : (if r.owner = owner then { r with size := 0 } else r).Covers p) : r.Covers p := by
  split at h
  · unfold Covers at h
    simp only at h
    omega
  · exact h

/-! ### Objects and records -/

/-- Objects with numbers and reservations of their own, and records of their chunks, over
a memory that refuses nothing. -/
structure Arranged (s : View ScriptedMemory γ) : Prop where
  willing : s.pages.Willing
  growable : s.growable = true
  objects : (IntervalMap.mk s.objects).Sound
  built : ∀ e ∈ s.objects, e.value.geometry.Built
  len : ∀ e ∈ s.objects, e.len = e.value.geometry.trueSize
  page : ∀ e ∈ s.objects, e.value.geometry.pageSize = s.pages.pageSize
  ids : ∀ e ∈ s.objects, ∀ e' ∈ s.objects, e.value.id = e'.value.id → e = e'
  chunks : ∀ r ∈ s.records, r.isLive → ∃ e ∈ s.objects, ∃ k, r.IsChunkOf e k

namespace Arranged

theorem regular (h : Arranged s) (he : e ∈ s.objects) : e.value.geometry.Regular :=
  (h.built e he).regular

theorem page_pos (h : Arranged s) (he : e ∈ s.objects) : 0 < s.pages.pageSize := by
  rw [← h.page e he]
  exact (h.regular he).page_pos

/-- A reservation is one of whole pages, and so are its header and its chunks. -/
theorem len_dvd (h : Arranged s) (he : e ∈ s.objects) : s.pages.pageSize ∣ e.len := by
  rw [h.len e he, ← h.page e he]
  exact Nat.dvd_add (h.regular he).header_dvd (dvd_ceiling ..)

theorem header_dvd (h : Arranged s) (he : e ∈ s.objects) :
    s.pages.pageSize ∣ e.value.geometry.paddedHeader := by
  rw [← h.page e he]
  exact (h.regular he).header_dvd

theorem offset_dvd (h : Arranged s) (he : e ∈ s.objects) (k : Nat) :
    s.pages.pageSize ∣ (e.value.geometry.chunk k).offset := by
  rw [← h.page e he]
  exact (h.regular he).offset_dvd

theorem size_dvd (h : Arranged s) (he : e ∈ s.objects) (hr : r.IsChunkOf e k) :
    s.pages.pageSize ∣ r.size := by
  rw [hr.size, ← h.page e he]
  exact Geometry.Regular.bytes_dvd

theorem bodyStart_mod (h : Arranged s) (he : e ∈ s.objects) :
    e.bodyStart % s.pages.pageSize = e.start % s.pages.pageSize :=
  add_mod_of_dvd e.start (h.header_dvd he)

/-- Chunks begin in their pages where their object does. -/
theorem address_mod (h : Arranged s) (he : e ∈ s.objects) (hr : r.IsChunkOf e k) :
    r.address % s.pages.pageSize = e.start % s.pages.pageSize := by
  rw [hr.address, add_mod_of_dvd _ (h.offset_dvd he k)]
  exact h.bodyStart_mod he

theorem eq_of_holds (h : Arranged s) (he : e ∈ s.objects) (he' : e' ∈ s.objects)
    (hp : e.Holds p) (hp' : e'.Holds p) : e = e' := h.objects.eq_of_holds he he' hp hp'

/-- An address of a chunk lies in the body of its object. -/
theorem holds (h : Arranged s) (he : e ∈ s.objects) (hr : r.IsChunkOf e k) (hp : r.Covers p) :
    e.bodyStart ≤ p ∧ e.Holds p := by
  have hwithin := hr.within (h.regular he) (h.len e he)
  have hbody : e.start ≤ e.bodyStart := Nat.le_add_right ..
  unfold ChunkRecord.Covers at hp
  unfold Interval.Holds
  omega

theorem holds_header (h : Arranged s) (he : e ∈ s.objects) (hp : e.InHeader p) : e.Holds p := by
  have hend : e.bodyStart ≤ e.start + e.len := by
    rw [h.len e he]
    exact Nat.add_le_add_left (Nat.le_add_right ..) _
  unfold Interval.InHeader at hp
  unfold Interval.Holds
  omega

theorem holds_body (h : Arranged s) (he : e ∈ s.objects) {i : Nat}
    (hi : i < e.value.geometry.bodyLen) : e.Holds (e.bodyStart + i) := by
  have hbody := (h.regular he).body_le
  unfold Interval.Holds Interval.bodyStart
  rw [h.len e he]
  unfold Geometry.trueSize
  omega

/-- The objects that are left when one goes. -/
theorem mem_others (h : Arranged s) (he : e ∈ s.objects) :
    e' ∈ s.objects.filter (·.start ≠ e.start) ↔ e' ∈ s.objects ∧ e' ≠ e := by
  rw [List.mem_filter, decide_eq_true_eq]
  refine and_congr_right fun he' => not_congr ⟨fun hstart => ?_, fun heq => heq ▸ rfl⟩
  have hholds := h.objects.holds_start he'
  rw [hstart] at hholds
  exact h.eq_of_holds he' he hholds (h.objects.holds_start he)

/-- An address lies in one chunk only. -/
theorem chunk_eq (h : Arranged s) (he : e ∈ s.objects) (he' : e' ∈ s.objects)
    (hr : r.IsChunkOf e k) (hr' : r'.IsChunkOf e' k') (hp : r.Covers p) (hp' : r'.Covers p) :
    e = e' ∧ k = k' := by
  obtain rfl : e = e' := h.eq_of_holds he he' (h.holds he hr hp).2 (h.holds he' hr' hp').2
  have hg := h.regular he
  unfold ChunkRecord.Covers at hp hp'
  rw [hr.address, hr.size] at hp
  rw [hr'.address, hr'.size] at hp'
  refine ⟨rfl, ?_⟩
  rcases Nat.lt_trichotomy k k' with hlt | heq | hlt
  · have := hg.chunk_disjoint hlt
    omega
  · exact heq
  · have := hg.chunk_disjoint hlt
    omega

/-- An arrangement with other pages, another state of the callers and other records. -/
theorem change (h : Arranged s) {pages : ScriptedMemory} {client : γ} {records : List ChunkRecord}
    (hwilling : pages.Willing) (hpage : pages.pageSize = s.pages.pageSize)
    (hrecords : ∀ r ∈ records, r.isLive → ∃ e ∈ s.objects, ∃ k, r.IsChunkOf e k) :
    Arranged { s with pages, client, records } where
  willing := hwilling
  growable := h.growable
  objects := h.objects
  built := h.built
  len := h.len
  page := fun e he => (h.page e he).trans hpage.symm
  ids := h.ids
  chunks := hrecords

/-- One more object with a number of its own. -/
theorem place (h : Arranged s) {o : Object γ} {start : Nat} {pages : ScriptedMemory}
    {objects : IntervalMap (Object γ)} (hwilling : pages.Willing)
    (hsize : pages.pageSize = s.pages.pageSize) (ho : o.geometry.Built)
    (hpage : o.geometry.pageSize = s.pages.pageSize) (hid : ∀ e ∈ s.objects, e.value.id ≠ o.id)
    (hinsert : (IntervalMap.mk s.objects).insert start o.geometry.trueSize o = .ok objects) :
    Arranged { s with pages, objects := objects.toList } := by
  have hmem := fun x => IntervalMap.mem_insert (e := x) h.objects hinsert
  have hsound := IntervalMap.sound_insert h.objects hinsert
  refine ⟨hwilling, h.growable, hsound, fun e he => ?_, fun e he => ?_, fun e he => ?_,
    fun e he e' he' heq => ?_, fun r hr hlive => ?_⟩
  · rcases (hmem e).mp he with rfl | hold
    · exact ho
    · exact h.built e hold
  · rcases (hmem e).mp he with rfl | hold
    · rfl
    · exact h.len e hold
  · rcases (hmem e).mp he with rfl | hold
    · exact hpage.trans hsize.symm
    · exact (h.page e hold).trans hsize.symm
  · rcases (hmem e).mp he with rfl | hold
    · rcases (hmem e').mp he' with rfl | hold'
      · rfl
      · exact absurd heq.symm (hid e' hold')
    · rcases (hmem e').mp he' with rfl | hold'
      · exact absurd heq (hid e hold)
      · exact h.ids e hold e' hold' heq
  · obtain ⟨e, he, k, hk⟩ := h.chunks r hr hlive
    exact ⟨e, (hmem e).mpr (.inr he), k, hk⟩

/-- One object less, and its records retired. -/
theorem strike (h : Arranged s) (he : e ∈ s.objects) (table : PageTable) (client : γ) :
    Arranged { s with
      pages := s.pages.withTable table
      client
      objects := s.objects.filter (·.start ≠ e.start)
      records := Ring.retired e.value.id s.records } := by
  have hold : ∀ {e'}, e' ∈ s.objects.filter (·.start ≠ e.start) → e' ∈ s.objects :=
    fun he' => ((h.mem_others he).mp he').1
  refine ⟨h.willing.withTable _, h.growable, ?_, fun e' he' => h.built e' (hold he'),
    fun e' he' => h.len e' (hold he'), fun e' he' => h.page e' (hold he'),
    fun a ha b hb => h.ids a (hold ha) b (hold hb), fun r hr hlive => ?_⟩
  · exact ⟨h.objects.ordered.sublist List.filter_sublist,
      fun e' he' => h.objects.len_pos e' (hold he'), fun e' he' => h.objects.end_lt e' (hold he')⟩
  · obtain ⟨hmem, hne⟩ := Ring.of_mem_retired hr hlive
    obtain ⟨e', he', k, hk⟩ := h.chunks r hmem hlive
    refine ⟨e', (h.mem_others he).mpr ⟨he', ?_⟩, k, hk⟩
    rintro rfl
    exact hne hk.owner

end Arranged

/-! ### Pages with content -/

/-- The pages that have content are those that the books say. -/
structure Resides (s : View ScriptedMemory γ) : Prop extends Arranged s where
  /-- No address lies in two chunks on record. -/
  apart : s.records.Pairwise fun r r' => ∀ p, r.Covers p → ¬r'.Covers p
  keyed : ∀ p, s.pages.table.contains p →
    ∃ e ∈ s.objects, e.Holds p ∧ p % s.pages.pageSize = e.start % s.pages.pageSize
  header : ∀ e ∈ s.objects, ∀ p, e.InHeader p →
    p % s.pages.pageSize = e.start % s.pages.pageSize → s.pages.table.contains p
  covered : ∀ r ∈ s.records, ∀ p, r.Covers p →
    p % s.pages.pageSize = r.address % s.pages.pageSize → s.pages.table.contains p
  /-- A page of a body has content only as one of a chunk on record. -/
  recorded : ∀ e ∈ s.objects, e.start % s.pages.pageSize = 0 → ∀ p, e.bodyStart ≤ p → e.Holds p →
    s.pages.table.contains p → ∃ r ∈ s.records, r.Covers p

namespace Resides

/-- No object, no record and no page with content. -/
theorem of_empty (hwilling : s.pages.Willing) (hgrow : s.growable = true)
    (hobjects : s.objects = []) (hrecords : s.records = [])
    (hempty : ∀ p, s.pages.table.contains p = false) : Resides s := by
  refine ⟨⟨hwilling, hgrow, ?_, ?_, ?_, ?_, ?_, ?_⟩, ?_, ?_, ?_, ?_, ?_⟩
  all_goals simp only [hobjects, hrecords, hempty, List.not_mem_nil]
  · exact IntervalMap.sound_empty
  · exact fun _ he => he.elim
  · exact fun _ he => he.elim
  · exact fun _ he => he.elim
  · exact fun _ he => he.elim
  · exact fun _ hr => hr.elim
  · exact List.Pairwise.nil
  · exact fun _ hp => (Bool.false_ne_true hp).elim
  · exact fun _ he => he.elim
  · exact fun _ hr => hr.elim
  · exact fun _ he => he.elim

/-- It is a matter of which pages have content only. -/
theorem withSite (h : Resides s) {pages : ScriptedMemory} (hwilling : pages.Willing)
    (hpage : pages.pageSize = s.pages.pageSize)
    (hcontains : ∀ p, pages.table.contains p ↔ s.pages.table.contains p) (client : γ) :
    Resides { s with pages, client } := by
  refine ⟨h.toArranged.change hwilling hpage h.chunks, h.apart, ?_, ?_, ?_, ?_⟩
  all_goals simp only [hpage, hcontains]
  · exact h.keyed
  · exact h.header
  · exact h.covered
  · exact h.recorded

theorem withClient (h : Resides s) (client : γ) : Resides { s with client } :=
  h.withSite h.willing rfl (fun _ => Iff.rfl) client

/-- A byte that is there lies, with its page, in an object that begins on a page. -/
theorem of_byte? (h : Resides s) (he : e ∈ s.objects) (hp : e.Holds p)
    (hbyte : s.pages.table.byte? s.pages.pageSize p ≠ none) :
    e.start % s.pages.pageSize = 0 ∧ e.Holds (pageOf s.pages.pageSize p) ∧
      s.pages.table.contains (pageOf s.pages.pageSize p) := by
  have hcontains := PageTable.byte?_ne_none.mp hbyte
  obtain ⟨e', he', hholds, hmod⟩ := h.keyed _ hcontains
  have hzero : pageOf s.pages.pageSize p % s.pages.pageSize = 0 :=
    Nat.mod_eq_zero_of_dvd (dvd_pageOf ..)
  have hstart : e'.start % s.pages.pageSize = 0 := hmod.symm.trans hzero
  have hin : e'.Holds p :=
    (pageOf_mem_range (h.page_pos he') (Nat.dvd_of_mod_eq_zero hstart) (h.len_dvd he') p).mp hholds
  obtain rfl : e' = e := h.eq_of_holds he' he hin hp
  exact ⟨hstart, hholds, hcontains⟩

/-- An element byte whose page is one of a chunk is a byte of the elements of that chunk. -/
theorem in_content (h : Resides s) (he : e ∈ s.objects) (hr : r.IsChunkOf e k)
    (he' : e' ∈ s.objects) {i : Nat} (hi : i < e'.value.geometry.bodyLen)
    (hthere : s.pages.table.byte? s.pages.pageSize (e'.bodyStart + i) ≠ none)
    (hpage : r.Covers (pageOf s.pages.pageSize (e'.bodyStart + i))) :
    e' = e ∧ (e.value.geometry.chunk k).offset ≤ i ∧
      i < (e.value.geometry.chunk k).offset + e.contentLen k := by
  obtain ⟨hstart, hholds, -⟩ := h.of_byte? he' (h.holds_body he' hi) hthere
  obtain rfl := h.eq_of_holds he' he hholds (h.holds he hr hpage).2
  have haddress := Nat.dvd_of_mod_eq_zero ((h.address_mod he hr).trans hstart)
  have hcovers : r.Covers (e'.bodyStart + i) :=
    (pageOf_mem_range (h.page_pos he) haddress (h.size_dvd he hr) _).mp hpage
  unfold ChunkRecord.Covers at hcovers
  rw [hr.address, hr.size] at hcovers
  exact ⟨rfl, by omega, (h.regular he).lt_content_end hr.hasChunk (by omega) hi⟩

/-- A resident element byte is one of a chunk on record. -/
theorem chunk_of_byte? (h : Resides s) (he : e ∈ s.objects) {i : Nat}
    (hi : i < e.value.geometry.bodyLen)
    (hthere : s.pages.table.byte? s.pages.pageSize (e.bodyStart + i) ≠ none) :
    ∃ r ∈ s.records, ∃ k, r.IsChunkOf e k ∧ (e.value.geometry.chunk k).offset ≤ i ∧
      i < (e.value.geometry.chunk k).offset + e.contentLen k := by
  obtain ⟨hstart, hholds, hcontains⟩ := h.of_byte? he (h.holds_body he hi) hthere
  have hbody : s.pages.pageSize ∣ e.bodyStart :=
    Nat.dvd_of_mod_eq_zero ((h.bodyStart_mod he).trans hstart)
  have hpaged : s.pages.pageSize ∣ e.value.geometry.pagedBody := by
    rw [← h.page e he]
    exact dvd_ceiling ..
  have hle := (h.regular he).body_le
  have hpage := (pageOf_mem_range (h.page_pos he) hbody hpaged (e.bodyStart + i)).mpr (by omega)
  obtain ⟨r, hr, hcovers⟩ := h.recorded e he hstart _ hpage.1 hholds hcontains
  obtain ⟨e', he', k, hk⟩ := h.chunks r hr hcovers.isLive
  obtain ⟨rfl, hin⟩ := h.in_content he' hk he hi hthere hcovers
  exact ⟨r, hr, k, hk, hin⟩

/-! ### Moves -/

/-- The oldest record goes. It must not be the one of a chunk that can be read. -/
theorem tail (h : Resides s) {rest : List ChunkRecord} (hs : s.records = r :: rest)
    (hr : ∀ e ∈ s.objects, e.start % s.pages.pageSize = 0 → ∀ p, e.Holds p → ¬r.Covers p) :
    Resides { s with records := rest } := by
  have hrest : ∀ x ∈ rest, x ∈ s.records := fun x hx => hs ▸ List.mem_cons_of_mem _ hx
  refine ⟨h.toArranged.change h.willing rfl fun x hx => h.chunks x (hrest x hx), ?_, h.keyed,
    h.header, fun x hx => h.covered x (hrest x hx), ?_⟩
  · have hpairs := h.apart
    rw [hs] at hpairs
    exact hpairs.of_cons
  · intro e he hstart p hbody hp hcontains
    obtain ⟨x, hx, hcovers⟩ := h.recorded e he hstart p hbody hp hcontains
    rw [hs] at hx
    rcases List.mem_cons.mp hx with rfl | hx
    · exact absurd hcovers (hr e he hstart p hp)
    · exact ⟨x, hx, hcovers⟩

/-- The oldest chunk is dropped. -/
theorem evict (h : Resides s) {rest : List ChunkRecord} (hs : s.records = r :: rest)
    (he : e ∈ s.objects) (hr : r.IsChunkOf e k) :
    Resides { s with
      pages := s.pages.withTable (s.pages.table.dropRange r.address r.size)
      records := rest } := by
  have hrest : ∀ x ∈ rest, x ∈ s.records := fun x hx => hs ▸ List.mem_cons_of_mem _ hx
  have hpairs := h.apart
  rw [hs, List.pairwise_cons] at hpairs
  have hcontains : ∀ p, (s.pages.table.dropRange r.address r.size).contains p ↔
      s.pages.table.contains p ∧ ¬r.Covers p := fun p => PageTable.contains_dropRange
  refine ⟨h.toArranged.change (h.willing.withTable _) rfl fun x hx => h.chunks x (hrest x hx),
    hpairs.2, ?_, ?_, ?_, ?_⟩
  · intro p hp
    exact h.keyed p ((hcontains p).mp hp).1
  · intro e' he' p hp hmod
    refine (hcontains p).mpr ⟨h.header e' he' p hp hmod, fun hcovers => ?_⟩
    have hin := h.holds he hr hcovers
    obtain rfl := h.eq_of_holds he he' hin.2 (h.holds_header he' hp)
    exact absurd hp.2 (Nat.not_lt.mpr hin.1)
  · intro x hx p hp hmod
    exact (hcontains p).mpr ⟨h.covered x (hrest x hx) p hp hmod, fun hcovers =>
      hpairs.1 x hx p hcovers hp⟩
  · intro e' he' hstart p hbody hp hin
    have hold := (hcontains p).mp hin
    obtain ⟨x, hx, hcovers⟩ := h.recorded e' he' hstart p hbody hp hold.1
    rw [hs] at hx
    rcases List.mem_cons.mp hx with rfl | hx
    · exact absurd hcovers hold.2
    · exact ⟨x, hx, hcovers⟩

/-- All bytes of a chunk on record are there, if its object begins on a page. -/
theorem byte?_of_covers (h : Resides s) (he : e ∈ s.objects) (hr : r.IsChunkOf e k)
    (hmem : r ∈ s.records) (hstart : e.start % s.pages.pageSize = 0) (hp : r.Covers p) :
    s.pages.table.byte? s.pages.pageSize p ≠ none := by
  have haddress : r.address % s.pages.pageSize = 0 := (h.address_mod he hr).trans hstart
  rw [PageTable.byte?_ne_none]
  apply h.covered r hmem
  · exact (pageOf_mem_range (h.page_pos he) (Nat.dvd_of_mod_eq_zero haddress) (h.size_dvd he hr)
      p).mpr hp
  · rw [haddress]
    exact Nat.mod_eq_zero_of_dvd (dvd_pageOf ..)

/-- A chunk is lost only if its object begins within a page. -/
theorem lose (h : Resides s) (hlose : Lose s s') :
    Resides s' ∧ ∃ e ∈ s.objects, e.start % s.pages.pageSize ≠ 0 := by
  obtain ⟨hs, he, hr, -, hread⟩ := hlose
  rename_i r rest e k pages cause
  have hmem : r ∈ s.records := hs ▸ List.mem_cons_self ..
  obtain ⟨rfl, ⟨bytes, hok, -⟩ | ⟨x, -, hread⟩⟩ :=
    ScriptedMemory.called_readResident h.willing hread
  · cases hok
  have hwithin : e.value.geometry.Regular := h.regular he
  have hstart : e.start % s.pages.pageSize ≠ 0 := by
    intro hzero
    obtain ⟨i, hi, hbyte⟩ := PageTable.read_eq_error (h.page_pos he) hread
    refine h.byte?_of_covers he hr hmem hzero ?_ hbyte
    have hcontent : e.contentLen k ≤ (e.value.geometry.chunk k).bytes := hwithin.content_le_bytes
    unfold ChunkRecord.Covers
    rw [hr.address, hr.size]
    unfold Interval.chunkStart
    omega
  refine ⟨h.tail hs fun e' he' hstart' p hp hcovers => ?_, e, he, hstart⟩
  obtain rfl := h.eq_of_holds he he' (h.holds he hr hcovers).2 hp
  exact hstart hstart'

/-- A chunk whose first page has no content is not on record, -/
theorem unrecorded (h : Resides s) (he : e ∈ s.objects) (hr : r.IsChunkOf e k)
    (hnew : s.pages.table.contains r.address = false) (hmem : r' ∈ s.records) (hp' : r'.Covers p) :
    ¬r.Covers p := by
  intro hp
  obtain ⟨e', he', k', hk⟩ := h.chunks r' hmem hp'.isLive
  obtain ⟨rfl, rfl⟩ := h.chunk_eq he' he hk hr hp' hp
  have hsame : r'.address = r.address := hk.address.trans hr.address.symm
  have hfirst : r'.Covers r.address := by
    have hpos := hk.size_pos (h.regular he')
    unfold ChunkRecord.Covers
    omega
  have hthere := h.covered r' hmem _ hfirst (by rw [hsame])
  rw [hnew] at hthere
  cases hthere

/-- and none of its bytes is there. -/
theorem absent (h : Resides s) (he : e ∈ s.objects) (hr : r.IsChunkOf e k)
    (hnew : s.pages.table.contains r.address = false) (hp : r.Covers p) :
    s.pages.table.byte? s.pages.pageSize p = none := by
  by_contra hbyte
  obtain ⟨hstart, hholds, hcontains⟩ := h.of_byte? he (h.holds he hr hp).2 hbyte
  have haddress := Nat.dvd_of_mod_eq_zero ((h.address_mod he hr).trans hstart)
  have hpage : r.Covers (pageOf s.pages.pageSize p) :=
    (pageOf_mem_range (h.page_pos he) haddress (h.size_dvd he hr) p).mpr hp
  obtain ⟨x, hx, hcovers⟩ :=
    h.recorded e he hstart _ (h.holds he hr hpage).1 hholds hcontains
  exact h.unrecorded he hr hnew hx hcovers hpage

/-- A chunk is installed and recorded. -/
theorem load (h : Resides s) {content : Bytes} (he : e ∈ s.objects) (hr : r.IsChunkOf e k)
    (hlength : content.length = r.size) (hnew : s.pages.table.contains r.address = false)
    (client : γ) :
    Resides { s with
      pages := s.pages.withTable (s.pages.installed r.address content)
      client
      records := s.records ++ [r] } := by
  have hcontains : ∀ p, (s.pages.installed r.address content).contains p ↔
      (r.Covers p ∧ p % s.pages.pageSize = r.address % s.pages.pageSize) ∨
        s.pages.table.contains p := by
    intro p
    rw [ScriptedMemory.contains_installed (h.page_pos he) (hlength ▸ h.size_dvd he hr), hlength]
    unfold ChunkRecord.Covers
    rw [and_assoc]
  refine ⟨h.toArranged.change (h.willing.withTable _) rfl fun x hx hlive => ?_, ?_, ?_, ?_, ?_, ?_⟩
  · rcases List.mem_append.mp hx with hx | hx
    · exact h.chunks x hx hlive
    · rw [List.mem_singleton.mp hx]
      exact ⟨e, he, k, hr⟩
  · refine List.pairwise_append.mpr ⟨h.apart, List.pairwise_singleton .., ?_⟩
    intro x hx y hy p hp hp'
    rw [List.mem_singleton.mp hy] at hp'
    exact h.unrecorded he hr hnew hx hp hp'
  · intro p hp
    rcases (hcontains p).mp hp with ⟨hcovers, hmod⟩ | hold
    · exact ⟨e, he, (h.holds he hr hcovers).2, hmod.trans (h.address_mod he hr)⟩
    · exact h.keyed p hold
  · intro e' he' p hp hmod
    exact (hcontains p).mpr (.inr (h.header e' he' p hp hmod))
  · intro x hx p hp hmod
    rcases List.mem_append.mp hx with hx | hx
    · exact (hcontains p).mpr (.inr (h.covered x hx p hp hmod))
    · rw [List.mem_singleton.mp hx] at hp hmod
      exact (hcontains p).mpr (.inl ⟨hp, hmod⟩)
  · intro e' he' hstart p hbody hp hin
    rcases (hcontains p).mp hin with ⟨hcovers, -⟩ | hold
    · exact ⟨r, by simp, hcovers⟩
    · obtain ⟨x, hx, hcovers⟩ := h.recorded e' he' hstart p hbody hp hold
      exact ⟨x, List.mem_append_left _ hx, hcovers⟩

/-- An object goes, with its records and with all its pages. -/
theorem strike (h : Resides s) (he : e ∈ s.objects) (client : γ) :
    Resides { s with
      pages := s.pages.withTable (s.pages.table.dropRange e.start e.len)
      client
      objects := s.objects.filter (·.start ≠ e.start)
      records := Ring.retired e.value.id s.records } := by
  have hother : ∀ e', e' ∈ s.objects.filter (·.start ≠ e.start) ↔ e' ∈ s.objects ∧ e' ≠ e :=
    fun _ => h.mem_others he
  have hcontains : ∀ p, (s.pages.table.dropRange e.start e.len).contains p ↔
      s.pages.table.contains p ∧ ¬e.Holds p := fun p => PageTable.contains_dropRange
  refine ⟨h.toArranged.strike he _ client, ?_, ?_, ?_, ?_, ?_⟩
  · exact h.apart.map _ fun a b hab p hp hp' => hab p hp.of_retired hp'.of_retired
  · intro p hp
    obtain ⟨hold, hout⟩ := (hcontains p).mp hp
    obtain ⟨e', he', hholds, hmod⟩ := h.keyed p hold
    exact ⟨e', (hother e').mpr ⟨he', fun heq => hout (heq ▸ hholds)⟩, hholds, hmod⟩
  · intro e' he' p hp hmod
    obtain ⟨he', hne⟩ := (hother e').mp he'
    refine (hcontains p).mpr ⟨h.header e' he' p hp hmod, fun hholds => hne ?_⟩
    exact h.eq_of_holds he' he (h.holds_header he' hp) hholds
  · intro x hx p hp hmod
    obtain ⟨hold, hne⟩ := Ring.of_mem_retired hx hp.isLive
    obtain ⟨e', he', k, hk⟩ := h.chunks x hold hp.isLive
    refine (hcontains p).mpr ⟨h.covered x hold p hp hmod, fun hholds => ?_⟩
    obtain rfl := h.eq_of_holds he' he (h.holds he' hk hp).2 hholds
    exact hne hk.owner
  · intro e' he' hstart p hbody hp hin
    obtain ⟨he', hne⟩ := (hother e').mp he'
    obtain ⟨x, hx, hcovers⟩ := h.recorded e' he' hstart p hbody hp ((hcontains p).mp hin).1
    obtain ⟨e₁, he₁, k, hk⟩ := h.chunks x hx hcovers.isLive
    refine ⟨x, Ring.mem_retired_of_ne hx fun howner => hne ?_, hcovers⟩
    have hsame : e₁ = e' := h.eq_of_holds he₁ he' (h.holds he₁ hk hcovers).2 hp
    exact h.ids e' he' e he (hsame ▸ hk.owner.symm.trans howner)

end Resides

/-! ### Runs of moves -/

/-- A chunk that is offered is read at most. -/
theorem Offered.pages_eq {pages pages' : ScriptedMemory} {client client' : γ}
    (h : Offered e k pages client pages' client') (hwilling : pages.Willing) : pages' = pages := by
  cases h with
  | unwanted => rfl
  | taken _ _ hread => exact (ScriptedMemory.called_readResident hwilling hread).1

theorem OfferedAll.pages_eq {objects : List (Interval (Object γ))} {records : List ChunkRecord}
    {pages pages' : ScriptedMemory} {client client' : γ}
    (h : OfferedAll objects records pages client pages' client') (hwilling : pages.Willing) :
    pages' = pages := by
  induction h with
  | nil => rfl
  | cons _ _ hoffer _ ih =>
    obtain rfl := hoffer.pages_eq hwilling
    exact ih hwilling

/-- The content of a chunk is as long as the chunk. -/
theorem Filled.length {content : Bytes} {client client' : γ} (h : Filled e k client content client')
    (hr : r.IsChunkOf e k) (hg : e.value.geometry.Regular) : content.length = r.size := by
  obtain ⟨target, filled, htarget, hfill, rfl⟩ := h
  have hlength : filled.length = e.contentLen k := (Object.length_fill hfill).trans htarget
  have hcontent : e.contentLen k ≤ (e.value.geometry.chunk k).bytes := hg.content_le_bytes
  rw [List.length_append, hlength, Bytes.zeros, List.length_replicate, hr.size]
  omega

/-- **Every move keeps the pages with content in agreement with the records.** -/
theorem Move.resides (h : Move s s') (hs : Resides s) : Resides s' := by
  cases h with
  | skip hrecords hr =>
    refine hs.tail hrecords fun e _ _ p _ hp => ?_
    unfold ChunkRecord.Covers at hp
    omega
  | evict hrecords he hr hoffer hdiscard =>
    obtain rfl := hoffer.pages_eq hs.willing
    obtain ⟨-, rfl⟩ := ScriptedMemory.called_discard hs.willing hdiscard
    exact (hs.evict hrecords he hr).withClient _
  | lose hlose => exact (hs.lose hlose).1
  | offer hr he hk hoffer =>
    obtain rfl := hoffer.pages_eq hs.willing
    exact hs.withClient _
  | unread hread =>
    obtain ⟨rfl, -⟩ := ScriptedMemory.called_readResident hs.willing hread
    exact hs
  | unregister hcall =>
    obtain ⟨-, rfl⟩ := ScriptedMemory.called_unregister hs.willing hcall
    exact hs
  | giveUp => exact hs.withClient _
  | load he hr hfill hinstall =>
    rcases ScriptedMemory.called_install hs.willing hinstall with ⟨-, hfalse, -⟩ | ⟨hnew, -, rfl⟩
    · cases hfalse
    · exact hs.load he hr (hfill.length hr (hs.regular he)) hnew _
  | spill _ _ _ _ hgrow =>
    rw [hs.growable] at hgrow
    cases hgrow
  | waste he hr hfill hinstall hresult =>
    rcases ScriptedMemory.called_install hs.willing hinstall with ⟨-, -, rfl⟩ | ⟨-, htrue, -⟩
    · exact hs.withClient _
    · exact absurd htrue hresult
  | strike he hoffer hunregister hrelease =>
    obtain rfl := hoffer.pages_eq hs.willing
    obtain ⟨-, rfl⟩ := ScriptedMemory.called_unregister hs.willing hunregister
    obtain ⟨-, rfl⟩ := ScriptedMemory.called_release hs.willing hrelease
    exact hs.strike he _

/-- Moves in a row keep it, too. -/
theorem Moves.resides (h : Moves s s') (hs : Resides s) : Resides s' := by
  induction h with
  | refl => exact hs
  | tail _ hmove ih => exact hmove.resides ih

end DemandPager
