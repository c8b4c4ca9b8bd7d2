/-
# Chunks tile the body

The chunks that are found for the offsets of a body are its chunks by number
(`Geometry.isFound_iff`). Each begins with an element and on a page, takes whole pages, and stays
within the body (`Geometry.Regular.partOf`). A byte and an element tell the number of the chunk that
has them, so two chunks are equal or have nothing in common, and together they have every byte of
the body in whole pages and every element (`Geometry.chunks_tile`).

Elements and pages are different units. What makes them meet is that a full chunk takes whole pages,
whatever the stride, and that the last chunk ends with the pages of the body.

Key definitions: `Span.HasByte`, `Span.HasElement`, `Span.PartOf`, `Geometry.IsFound`.
Key theorems: `Geometry.Regular.partOf`, `Geometry.isFound_iff`, `Geometry.chunks_tile`.
-/
import Mathlib.Logic.ExistsUnique
import DemandPager.Proofs.Chunks

namespace DemandPager

/-- The offset lies in the pages of the chunk. -/
def Span.HasByte (s : Span) (offset : Nat) : Prop := s.offset ≤ offset ∧ offset < s.offset + s.bytes

/-- The element is one of the chunk. -/
def Span.HasElement (s : Span) (i : Nat) : Prop := s.first ≤ i ∧ i < s.stop

/-- The chunk is a part of a body. It begins with an element and on a page, takes whole pages, no
more than the largest chunk, and has elements; its pages and its elements are those of the body. -/
structure Span.PartOf (s : Span) (g : Geometry) : Prop where
  offset_eq : s.offset = s.first * g.stride
  offset_dvd : g.pageSize ∣ s.offset
  bytes_dvd : g.pageSize ∣ s.bytes
  end_le : s.offset + s.bytes ≤ g.pagedBody
  count_pos : 1 ≤ s.count
  stop_le : s.stop ≤ g.count
  bytes_le : ∃ most, g.chunkBytes = .ok most ∧ s.bytes ≤ most

namespace Geometry

variable {g : Geometry} {s : Span} {k k' offset i : Nat}

/-- The chunk is found for an offset of the body in whole pages. -/
def IsFound (g : Geometry) (s : Span) : Prop :=
  ∃ offset < g.pagedBody, g.locate offset = .ok (some s)

namespace Regular

/-! ### Chunks by number -/

/-- The bytes of the largest chunk of a body with elements are a word. -/
theorem chunkBytes_ok (hg : g.Regular) (hcount : 1 ≤ g.count) :
    ∃ most, g.chunkBytes = .ok most := by
  have hbody : min g.loadCount (max g.count 1) * g.stride ≤ g.bodyLen :=
    Nat.mul_le_mul_right _ (by omega)
  have hpaged : ceiling (min g.loadCount (max g.count 1) * g.stride) g.pageSize ≤ g.pagedBody :=
    ceiling_mono hg.page_pos hbody
  exact ⟨_, (chunkBytes_eq hg).trans (Word.exact_eq_ok.mpr ⟨hpaged.trans_lt hg.pagedBody_lt, rfl⟩)⟩

/-- **A chunk is a part of the body.** -/
theorem partOf (hg : g.Regular) (hk : g.HasChunk k) : (g.chunk k).PartOf g where
  offset_eq := (Nat.mul_assoc ..).symm
  offset_dvd := hg.offset_dvd
  bytes_dvd := bytes_dvd
  end_le := hg.chunk_end_le hk
  count_pos := hg.count_pos hk
  stop_le := stop_le hk
  bytes_le := by
    obtain ⟨most, hmost⟩ := hg.chunkBytes_ok (Nat.zero_lt_of_lt hk)
    exact ⟨most, hmost, bytes_le_chunkBytes hmost k⟩

/-- The number of the chunk that has a byte. -/
theorem number_of_byte (hg : g.Regular) (h : (g.chunk k).HasByte offset) :
    offset / (g.loadCount * g.stride) = k := hg.number_eq h.1 h.2

/-- The number of the chunk that has an element. -/
theorem number_of_element (h : (g.chunk k).HasElement i) : i / g.loadCount = k := by
  obtain ⟨hle, hlt⟩ := h
  refine Nat.div_eq_of_lt_le hle ?_
  rw [Nat.succ_mul]
  exact hlt.trans_le (Nat.add_le_add_left (Nat.min_le_left ..) _)

/-- Every byte of the body in whole pages is one of the chunk of its number. -/
theorem hasByte (hg : g.Regular) (h : offset < g.pagedBody) :
    (g.chunk (offset / (g.loadCount * g.stride))).HasByte offset :=
  ⟨Nat.div_mul_le_self .., hg.lt_chunk_end h⟩

theorem hasChunk_of_element (h : i < g.count) : g.HasChunk (i / g.loadCount) :=
  (Nat.div_mul_le_self ..).trans_lt h

/-- Every element is one of the chunk of its number. -/
theorem hasElement (hg : g.Regular) (h : i < g.count) :
    (g.chunk (i / g.loadCount)).HasElement i := by
  have hfirst : i / g.loadCount * g.loadCount ≤ i := Nat.div_mul_le_self ..
  have hnext : i < i / g.loadCount * g.loadCount + g.loadCount := Nat.lt_div_mul_add hg.load_pos
  refine ⟨hfirst, ?_⟩
  show i < i / g.loadCount * g.loadCount +
    min g.loadCount (g.count - i / g.loadCount * g.loadCount)
  omega

/-- Chunks that have a byte or an element in common are one. -/
theorem chunk_eq_of_common (hg : g.Regular)
    (h : (∃ b, (g.chunk k).HasByte b ∧ (g.chunk k').HasByte b) ∨
      ∃ i, (g.chunk k).HasElement i ∧ (g.chunk k').HasElement i) : g.chunk k = g.chunk k' := by
  rcases h with ⟨b, hb, hb'⟩ | ⟨i, hi, hi'⟩
  · rw [← hg.number_of_byte hb, ← hg.number_of_byte hb']
  · rw [← number_of_element hi, ← number_of_element hi']

end Regular

/-! ### Chunks that are found -/

/-- What is found for the offsets of the body are its chunks by number. -/
theorem isFound_iff (hg : g.Regular) (hfull : g.loadCount * g.stride < wordBound) :
    g.IsFound s ↔ ∃ k, g.HasChunk k ∧ s = g.chunk k := by
  constructor
  · rintro ⟨offset, -, hlocate⟩
    obtain ⟨-, hk, rfl⟩ := (locate_eq_some hg).mp hlocate
    exact ⟨_, hk, rfl⟩
  · rintro ⟨k, hk, rfl⟩
    have hend := hg.chunk_end_le hk
    have hpos := hg.bytes_pos hk
    exact ⟨(g.chunk k).offset, by omega, locate_chunk hg hfull hk⟩

/-- **Chunks tile the body.** Let the bytes of a full chunk be a word. For every offset below the
body in whole pages a chunk is found, which is a part of the body and has the byte. The chunks that
are found for two offsets are one or have neither a byte nor an element in common, and every byte of
the body in whole pages and every element is in exactly one of them. -/
theorem chunks_tile (hg : g.Built) (hfull : g.loadCount * g.stride < wordBound) :
    Word.roundUp g.bodyLen g.pageSize = .ok g.pagedBody ∧
      (∀ offset < g.pagedBody,
        ∃ s, g.locate offset = .ok (some s) ∧ s.PartOf g ∧ s.HasByte offset) ∧
      (∀ s s', g.IsFound s → g.IsFound s' → s = s' ∨
        (∀ b, ¬(s.HasByte b ∧ s'.HasByte b)) ∧ ∀ i, ¬(s.HasElement i ∧ s'.HasElement i)) ∧
      (∀ b < g.pagedBody, ∃! s, g.IsFound s ∧ s.HasByte b) ∧
      ∀ i < g.count, ∃! s, g.IsFound s ∧ s.HasElement i := by
  have hr := hg.regular
  have hsame : ∀ s s', g.IsFound s → g.IsFound s' →
      (∃ b, s.HasByte b ∧ s'.HasByte b) ∨ (∃ i, s.HasElement i ∧ s'.HasElement i) → s = s' := by
    intro s s' hs hs' hcommon
    obtain ⟨k, -, rfl⟩ := (isFound_iff hr hfull).mp hs
    obtain ⟨k', -, rfl⟩ := (isFound_iff hr hfull).mp hs'
    exact hr.chunk_eq_of_common hcommon
  refine ⟨?_, fun offset hoffset => ?_, fun s s' hs hs' => ?_, fun b hb => ?_, fun i hi => ?_⟩
  · exact Word.roundUp_eq_ok.mpr ⟨hr.page_pos, hr.pagedBody_lt, rfl⟩
  · have hk := hr.hasChunk_of_lt hoffset
    exact ⟨_, (locate_eq_some hr).mpr ⟨hfull, hk, rfl⟩, hr.partOf hk, hr.hasByte hoffset⟩
  · by_cases heq : s = s'
    · exact .inl heq
    · exact .inr ⟨fun b hb => heq (hsame s s' hs hs' (.inl ⟨b, hb⟩)),
        fun i hi => heq (hsame s s' hs hs' (.inr ⟨i, hi⟩))⟩
  · have hfound := (isFound_iff hr hfull).mpr ⟨_, hr.hasChunk_of_lt hb, rfl⟩
    refine ⟨_, ⟨hfound, hr.hasByte hb⟩, ?_⟩
    rintro s ⟨hs, hbyte⟩
    exact hsame s _ hs hfound (.inl ⟨b, hbyte, hr.hasByte hb⟩)
  · have hfound := (isFound_iff hr hfull).mpr ⟨_, Regular.hasChunk_of_element hi, rfl⟩
    refine ⟨_, ⟨hfound, hr.hasElement hi⟩, ?_⟩
    rintro s ⟨hs, helement⟩
    exact hsame s _ hs hfound (.inr ⟨i, helement, hr.hasElement hi⟩)

/-- A thousand elements of twenty-four bytes are two chunks of three pages; the last element is in
the second. -/
theorem chunks_tile_sample :
    ∃ g : Geometry, g.Built ∧ g.loadCount * g.stride = 12288 ∧ g.pagedBody = 24576 ∧
      (∃ s, g.locate 24575 = .ok (some s) ∧ s.PartOf g ∧ s.HasByte 24575) ∧
      ∃! s, g.IsFound s ∧ s.HasElement 999 := by
  have hbuilt : ((ofSizes 4096 100 1000 24 (some 1)).setWritable true).Built :=
    ⟨4096, 100, 1000, 24, some 1, _, true, rfl, rfl⟩
  obtain ⟨-, hfind, -, -, helement⟩ := chunks_tile hbuilt (by decide)
  exact ⟨_, hbuilt, by decide, by decide, hfind 24575 (by decide), helement 999 (by decide)⟩

end Geometry
end DemandPager
