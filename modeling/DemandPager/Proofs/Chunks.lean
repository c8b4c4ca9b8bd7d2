/-
# The chunks of a body

A geometry that was built has whole pages for its header and for each full chunk,
and its sizes are words (`Geometry.Built.regular`). Then the body falls into chunks
that are numbered from zero: `Geometry.chunk` is the chunk of a number, and what
`Geometry.locate` finds for an offset is the chunk whose number is the offset
divided by the bytes of a full chunk (`Geometry.locate_eq_some`). Chunks begin on
pages, take whole pages, end within the body, and two of them do not meet.

Key definitions: `Geometry.Built`, `Geometry.Regular`, `Geometry.chunk`,
`Geometry.HasChunk`.
Key theorems: `Geometry.Built.regular`, `Geometry.locate_eq_some`,
`Geometry.Regular.chunk_end_le`, `Geometry.Regular.chunk_disjoint`.
-/
import DemandPager.Proofs.Acceptance

namespace DemandPager
namespace Geometry

/-- A geometry that was built, and perhaps made writable. -/
def Built (g : Geometry) : Prop :=
  ∃ pageSize headerSize count stride minLoad built writable,
    build pageSize headerSize count stride minLoad = .ok built ∧ g = built.setWritable writable

/-- What holds of every geometry that was built. -/
structure Regular (g : Geometry) : Prop where
  page_pos : 0 < g.pageSize
  stride_pos : 0 < g.stride
  load_pos : 0 < g.loadCount
  header_dvd : g.pageSize ∣ g.paddedHeader
  full_dvd : g.pageSize ∣ g.loadCount * g.stride
  size_pos : 0 < g.trueSize
  size_lt : g.trueSize < wordBound

theorem pagedBody_eq (g : Geometry) : g.pagedBody = ceiling g.bodyLen g.pageSize := rfl

/-! ### Building -/

theorem build_regular {pageSize headerSize count stride : Nat} {minLoad : Option Nat}
    {g : Geometry} (h : build pageSize headerSize count stride minLoad = .ok g) : g.Regular := by
  obtain ⟨ha, -, rfl⟩ := build_eq_ok.mp h
  have hp : 0 < pageSize := Nat.pos_of_isPowerOfTwo ha.page
  exact ⟨hp, ha.stride_pos, fullLoad_pos hp minLoad, dvd_ceiling .., fullLoad_dvd hp minLoad,
    ha.size_pos, ha.size_lt⟩

theorem Built.regular {g : Geometry} (h : g.Built) : g.Regular := by
  obtain ⟨_, _, _, _, _, _, _, hbuild, rfl⟩ := h
  obtain ⟨h1, h2, h3, h4, h5, h6, h7⟩ := build_regular hbuild
  exact ⟨h1, h2, h3, h4, h5, h6, h7⟩

/-! ### Chunks by number -/

/-- The chunk of a number. -/
def chunk (g : Geometry) (k : Nat) : Span :=
  { offset := k * (g.loadCount * g.stride)
    first := k * g.loadCount
    count := min g.loadCount (g.count - k * g.loadCount)
    bytes := ceiling (min g.loadCount (g.count - k * g.loadCount) * g.stride) g.pageSize }

/-- Whether there is a chunk of a number: its first element is one of the body. -/
def HasChunk (g : Geometry) (k : Nat) : Prop := k * g.loadCount < g.count

instance (g : Geometry) (k : Nat) : Decidable (g.HasChunk k) := inferInstanceAs (Decidable (_ < _))

namespace Regular

variable {g : Geometry} {k k' offset : Nat}

theorem full_pos (hg : g.Regular) : 0 < g.loadCount * g.stride :=
  Nat.mul_pos hg.load_pos hg.stride_pos

theorem body_le (hg : g.Regular) : g.bodyLen ≤ g.pagedBody := le_ceiling _ hg.page_pos

theorem pagedBody_lt (hg : g.Regular) : g.pagedBody < wordBound :=
  (Nat.le_add_left ..).trans_lt hg.size_lt

theorem offset_dvd (hg : g.Regular) : g.pageSize ∣ (g.chunk k).offset :=
  Nat.dvd_mul_left_of_dvd hg.full_dvd k

theorem bytes_dvd : g.pageSize ∣ (g.chunk k).bytes := dvd_ceiling ..

theorem content_le_bytes (hg : g.Regular) : (g.chunk k).count * g.stride ≤ (g.chunk k).bytes :=
  le_ceiling _ hg.page_pos

theorem count_pos (hg : g.Regular) (hk : g.HasChunk k) : 0 < (g.chunk k).count :=
  Nat.lt_min.mpr ⟨hg.load_pos, Nat.sub_pos_of_lt hk⟩

theorem content_pos (hg : g.Regular) (hk : g.HasChunk k) :
    0 < (g.chunk k).count * g.stride := Nat.mul_pos (hg.count_pos hk) hg.stride_pos

theorem bytes_pos (hg : g.Regular) (hk : g.HasChunk k) : 0 < (g.chunk k).bytes :=
  ceiling_pos hg.page_pos (hg.content_pos hk)

theorem bytes_le_full (hg : g.Regular) : (g.chunk k).bytes ≤ g.loadCount * g.stride :=
  ceiling_le_of_dvd hg.page_pos (Nat.mul_le_mul_right _ (Nat.min_le_left ..)) hg.full_dvd

theorem stop_le (hk : g.HasChunk k) : (g.chunk k).stop ≤ g.count := by
  unfold HasChunk at hk
  unfold Span.stop chunk
  simp only
  omega

/-- The elements of a chunk end within the body. -/
theorem content_end_le (hk : g.HasChunk k) :
    (g.chunk k).offset + (g.chunk k).count * g.stride ≤ g.bodyLen := by
  have h : ((g.chunk k).first + (g.chunk k).count) * g.stride ≤ g.count * g.stride :=
    Nat.mul_le_mul_right _ (stop_le hk)
  calc (g.chunk k).offset + (g.chunk k).count * g.stride
      = ((g.chunk k).first + (g.chunk k).count) * g.stride := by
        rw [Nat.add_mul]
        simp only [chunk, Nat.mul_assoc]
    _ ≤ g.bodyLen := h

/-- A chunk ends within the pages of the body. -/
theorem chunk_end_le (hg : g.Regular) (hk : g.HasChunk k) :
    (g.chunk k).offset + (g.chunk k).bytes ≤ g.pagedBody := by
  have h := ceiling_mono hg.page_pos (content_end_le hk)
  rwa [ceiling_add _ hg.page_pos hg.offset_dvd] at h

/-- Two chunks do not meet. -/
theorem chunk_disjoint (hg : g.Regular) (h : k < k') :
    (g.chunk k).offset + (g.chunk k).bytes ≤ (g.chunk k').offset := by
  have hnext : (k + 1) * (g.loadCount * g.stride) ≤ k' * (g.loadCount * g.stride) :=
    Nat.mul_le_mul_right _ h
  have hfull := hg.bytes_le_full (k := k)
  rw [Nat.add_mul, Nat.one_mul] at hnext
  show k * (g.loadCount * g.stride) + _ ≤ k' * (g.loadCount * g.stride)
  omega

/-- The number of the chunk that holds an offset. -/
theorem number_eq (hg : g.Regular) (hle : (g.chunk k).offset ≤ offset)
    (hlt : offset < (g.chunk k).offset + (g.chunk k).bytes) :
    offset / (g.loadCount * g.stride) = k := by
  have hfull := hg.bytes_le_full (k := k)
  apply Nat.div_eq_of_lt_le hle
  rw [Nat.succ_mul]
  show offset < (g.chunk k).offset + _
  omega

/-- An offset within the pages of the body lies in a chunk. -/
theorem hasChunk_of_lt (hg : g.Regular) (h : offset < g.pagedBody) :
    g.HasChunk (offset / (g.loadCount * g.stride)) := by
  by_contra hk
  have hbody : g.bodyLen ≤ offset / (g.loadCount * g.stride) * (g.loadCount * g.stride) := by
    rw [← Nat.mul_assoc]
    exact Nat.mul_le_mul_right _ (Nat.le_of_not_lt hk)
  have hpaged := ceiling_le_of_dvd hg.page_pos hbody (Nat.dvd_mul_left_of_dvd hg.full_dvd _)
  have hle := Nat.div_mul_le_self offset (g.loadCount * g.stride)
  rw [← pagedBody_eq] at hpaged
  omega

/-- A chunk is a full one, or it is the last and ends with the body. -/
theorem full_or_last (hg : g.Regular) (hk : g.HasChunk k) :
    (g.chunk k).bytes = g.loadCount * g.stride ∧ (g.chunk k).count * g.stride = (g.chunk k).bytes ∨
      (g.chunk k).offset + (g.chunk k).count * g.stride = g.bodyLen := by
  by_cases hlast : g.loadCount ≤ g.count - k * g.loadCount
  · have hbytes : (g.chunk k).bytes = g.loadCount * g.stride := by
      simp only [chunk, Nat.min_eq_left hlast]
      exact ceiling_of_dvd hg.page_pos hg.full_dvd
    have hcount : (g.chunk k).count = g.loadCount := Nat.min_eq_left hlast
    exact .inl ⟨hbytes, by rw [hbytes, hcount]⟩
  · have hmin : (g.chunk k).count = g.count - k * g.loadCount := Nat.min_eq_right (by omega)
    unfold HasChunk at hk
    refine .inr ?_
    calc (g.chunk k).offset + (g.chunk k).count * g.stride
        = k * g.loadCount * g.stride + (g.count - k * g.loadCount) * g.stride := by
          rw [hmin, Nat.mul_assoc]
          rfl
      _ = (k * g.loadCount + (g.count - k * g.loadCount)) * g.stride := (Nat.add_mul ..).symm
      _ = g.bodyLen := by
          rw [Nat.add_sub_cancel' (Nat.le_of_lt hk)]
          rfl

theorem lt_chunk_end (hg : g.Regular) (h : offset < g.pagedBody) :
    offset < (g.chunk (offset / (g.loadCount * g.stride))).offset +
      (g.chunk (offset / (g.loadCount * g.stride))).bytes := by
  set k := offset / (g.loadCount * g.stride) with hk
  rcases hg.full_or_last (hg.hasChunk_of_lt h) with ⟨hbytes, -⟩ | hend
  · have hlt := Nat.lt_div_mul_add hg.full_pos (a := offset)
    rw [hbytes]
    exact hlt
  · have hpaged : g.pagedBody = (g.chunk k).offset + (g.chunk k).bytes := by
      rw [pagedBody_eq, ← hend, ceiling_add _ hg.page_pos hg.offset_dvd]
      rfl
    omega

/-- A byte of an element that lies in the pages of a chunk is one of its elements. -/
theorem lt_content_end (hg : g.Regular) (hk : g.HasChunk k)
    (hlt : offset < (g.chunk k).offset + (g.chunk k).bytes) (hbody : offset < g.bodyLen) :
    offset < (g.chunk k).offset + (g.chunk k).count * g.stride := by
  rcases hg.full_or_last hk with ⟨-, hcontent⟩ | hend
  · rwa [hcontent]
  · rwa [hend]

end Regular

/-! ### The largest chunk -/

/-- The bytes of the largest chunk are exact, or they are no word. -/
theorem chunkBytes_eq {g : Geometry} (hg : g.Regular) :
    g.chunkBytes =
      Word.exact (ceiling (min g.loadCount (max g.count 1) * g.stride) g.pageSize) := by
  have hle := le_ceiling (min g.loadCount (max g.count 1) * g.stride) hg.page_pos
  unfold chunkBytes Word.mul
  simp only [Word.exact_bind, Word.roundUp_eq hg.page_pos]
  split
  · rename_i hbig
    exact (if_neg (Nat.not_lt.mpr (hbig.trans hle))).symm
  · rfl

/-- No chunk is larger than the largest one is said to be. -/
theorem bytes_le_chunkBytes {g : Geometry} {n : Nat} (h : g.chunkBytes = .ok n) (k : Nat) :
    (g.chunk k).bytes ≤ n := by
  unfold chunkBytes at h
  obtain ⟨full, hfull, h⟩ := Checked.bind_eq_ok.mp h
  obtain ⟨-, rfl⟩ := Word.mul_eq_ok.mp hfull
  obtain ⟨hpage, -, rfl⟩ := Word.roundUp_eq_ok.mp h
  refine ceiling_mono hpage (Nat.mul_le_mul_right _ ?_)
  omega

/-! ### Finding a chunk -/

/-- What is found for an offset is the chunk whose number is the offset divided by the bytes of a
full chunk, if there is one. Nothing is found out if these bytes are no word. -/
theorem locate_eq {g : Geometry} (hg : g.Regular) (offset : Nat) :
    g.locate offset =
      if wordBound ≤ g.loadCount * g.stride then Checked.abort .overflow
      else if g.HasChunk (offset / (g.loadCount * g.stride)) then
        .ok (some (g.chunk (offset / (g.loadCount * g.stride))))
      else .ok none := by
  set k := offset / (g.loadCount * g.stride) with hk
  have hfirst : k * (g.loadCount * g.stride) / g.stride = k * g.loadCount := by
    rw [← Nat.mul_assoc, Nat.mul_div_cancel _ hg.stride_pos]
  have hround : Word.roundDown offset (g.loadCount * g.stride) =
      .ok (k * (g.loadCount * g.stride)) := Word.roundDown_eq_ok.mpr ⟨hg.full_pos, rfl⟩
  unfold locate Word.mul
  simp only [Word.exact_bind, hround]
  refine if_congr Iff.rfl rfl ?_
  show (if g.count ≤ k * (g.loadCount * g.stride) / g.stride then _ else _ : Checked _) = _
  rw [hfirst]
  by_cases hc : g.HasChunk k
  · have hcontent := hg.content_le_bytes (k := k)
    have hend := hg.chunk_end_le hc
    have hsize := hg.size_lt
    unfold trueSize at hsize
    have hbytes : Word.roundUp ((g.chunk k).count * g.stride) g.pageSize = .ok (g.chunk k).bytes :=
      Word.roundUp_eq_ok.mpr ⟨hg.page_pos, by show (g.chunk k).bytes < _; omega, rfl⟩
    rw [if_neg (Nat.not_le.mpr hc), if_pos hc]
    show (if wordBound ≤ (g.chunk k).count * g.stride then _ else
      Word.roundUp ((g.chunk k).count * g.stride) g.pageSize >>= _ : Checked _) = _
    rw [if_neg (by omega), hbytes]
    rfl
  · rw [if_pos (Nat.not_lt.mp hc), if_neg hc]
    rfl

theorem locate_eq_some {g : Geometry} (hg : g.Regular) {offset : Nat} {span : Span} :
    g.locate offset = .ok (some span) ↔
      g.loadCount * g.stride < wordBound ∧ g.HasChunk (offset / (g.loadCount * g.stride)) ∧
        span = g.chunk (offset / (g.loadCount * g.stride)) := by
  rw [locate_eq hg]
  split_ifs with hfull hc
  · exact ⟨fun h => (by cases h), fun h => absurd hfull (Nat.not_le.mpr h.1)⟩
  · constructor
    · intro h
      cases h
      exact ⟨Nat.not_le.mp hfull, hc, rfl⟩
    · rintro ⟨-, -, rfl⟩
      rfl
  · exact ⟨fun h => (by cases h), fun h => absurd h.2.1 hc⟩

theorem locate_eq_error {g : Geometry} (hg : g.Regular) {offset : Nat} {f : Failure}
    (h : g.locate offset = .error f) : f = .abort .overflow := by
  rw [locate_eq hg] at h
  split_ifs at h
  cases h
  rfl

/-- The chunk that begins at an offset is found at that offset. -/
theorem locate_chunk {g : Geometry} (hg : g.Regular) {k : Nat}
    (hfull : g.loadCount * g.stride < wordBound) (hk : g.HasChunk k) :
    g.locate (g.chunk k).offset = .ok (some (g.chunk k)) := by
  have hnum : (g.chunk k).offset / (g.loadCount * g.stride) = k :=
    Nat.mul_div_cancel k hg.full_pos
  rw [locate_eq_some hg, hnum]
  exact ⟨hfull, hk, rfl⟩

end Geometry
end DemandPager
