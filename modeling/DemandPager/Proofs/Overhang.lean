/-
# Offsets behind the body

The chunk of an offset is looked up by the number of full chunks in front of it. The last chunk may
be shorter than a full one, and its pages then end before a full chunk would. The offsets between
these two ends are behind the body, but their number is still that of the last chunk: nothing is
refused before `Geometry.nominalEnd`, and for the offsets from `Geometry.pagedBody` to there a chunk
is found that does not have them (`Geometry.locate_behind`). So offsets behind the body are refused
exactly if the body in whole pages is a whole number of full chunks (`Geometry.found_exact`).

Key definitions: `Geometry.nominalEnd`.
Key theorems: `Geometry.Regular.hasChunk_iff`, `Geometry.locate_behind`, `Geometry.found_exact`.
-/
import DemandPager.Proofs.Tiling

namespace DemandPager
namespace Geometry

variable {g : Geometry} {s : Span} {k offset : Nat}

/-- Where the last chunk would end if it were a full one. -/
def nominalEnd (g : Geometry) : Nat := ceiling g.bodyLen (g.loadCount * g.stride)

namespace Regular

theorem pagedBody_le_nominalEnd (hg : g.Regular) : g.pagedBody ≤ g.nominalEnd := by
  have hpages : g.pageSize ∣ g.nominalEnd := hg.full_dvd.trans (dvd_ceiling ..)
  exact ceiling_le_of_dvd hg.page_pos (le_ceiling _ hg.full_pos) hpages

/-- The two ends are one if the pages of the body are full chunks. -/
theorem nominalEnd_le_iff (hg : g.Regular) :
    g.nominalEnd ≤ g.pagedBody ↔ g.loadCount * g.stride ∣ g.pagedBody := by
  constructor
  · intro hle
    rw [Nat.le_antisymm hg.pagedBody_le_nominalEnd hle]
    exact dvd_ceiling ..
  · exact ceiling_le_of_dvd hg.full_pos hg.body_le

/-- **There is a chunk for an offset as long as a full last chunk would have it.** -/
theorem hasChunk_iff (hg : g.Regular) :
    g.HasChunk (offset / (g.loadCount * g.stride)) ↔ offset < g.nominalEnd := by
  have hfull := hg.full_pos
  set full := g.loadCount * g.stride with hfull_eq
  set number := offset / full
  have hchunk : g.HasChunk number ↔ number * full < g.bodyLen := by
    have hbytes : number * full = number * g.loadCount * g.stride := by rw [hfull_eq, Nat.mul_assoc]
    rw [hbytes]
    exact (Nat.mul_lt_mul_right hg.stride_pos).symm
  have hdown : number * full ≤ offset := Nat.div_mul_le_self ..
  have hup : offset < number * full + full := Nat.lt_div_mul_add hfull
  rw [hchunk]
  constructor
  · intro hlt
    obtain ⟨chunks, hchunks⟩ : full ∣ g.nominalEnd := dvd_ceiling ..
    have hbody : g.bodyLen ≤ g.nominalEnd := le_ceiling _ hfull
    have hfewer : number < chunks := by
      by_contra hge
      have := Nat.mul_le_mul_left full (Nat.not_lt.mp hge)
      rw [Nat.mul_comm full number] at this
      omega
    calc offset < number * full + full := hup
      _ = full * (number + 1) := by rw [Nat.mul_add, Nat.mul_one, Nat.mul_comm]
      _ ≤ full * chunks := Nat.mul_le_mul_left full hfewer
      _ = g.nominalEnd := hchunks.symm
  · intro hlt
    by_contra hge
    have hend : g.nominalEnd ≤ number * full :=
      ceiling_le_of_dvd hfull (Nat.not_lt.mp hge) (Nat.dvd_mul_left ..)
    omega

/-- A chunk does not have what is behind the body. -/
theorem not_hasByte (hg : g.Regular) (hk : g.HasChunk k) (h : g.pagedBody ≤ offset) :
    ¬(g.chunk k).HasByte offset := by
  rintro ⟨-, hlt⟩
  have hend := hg.chunk_end_le hk
  omega

/-- A chunk that is shorter than a full one is the last. -/
theorem stop_eq_of_short (hg : g.Regular) (hk : g.HasChunk k)
    (hshort : (g.chunk k).bytes < g.loadCount * g.stride) : (g.chunk k).stop = g.count := by
  rcases hg.full_or_last hk with ⟨hbytes, -⟩ | hend
  · omega
  · have helements : (g.chunk k).stop * g.stride = g.count * g.stride := by
      calc (g.chunk k).stop * g.stride
          = (g.chunk k).first * g.stride + (g.chunk k).count * g.stride := Nat.add_mul ..
        _ = (g.chunk k).offset + (g.chunk k).count * g.stride := by
            rw [(hg.partOf hk).offset_eq]
        _ = g.count * g.stride := hend
    exact Nat.eq_of_mul_eq_mul_right hg.stride_pos helements

end Regular

/-- **What is found behind the body.** Up to the end that a full last chunk would have it is the
last chunk, which does not have the offset, and then it is nothing. -/
theorem locate_behind (hg : g.Regular) (hfull : g.loadCount * g.stride < wordBound)
    (h : g.pagedBody ≤ offset) :
    (offset < g.nominalEnd →
      ∃ s, g.locate offset = .ok (some s) ∧ s.stop = g.count ∧ ¬s.HasByte offset) ∧
    (g.nominalEnd ≤ offset → g.locate offset = .ok none) := by
  constructor
  · intro hlt
    have hk := hg.hasChunk_iff.mpr hlt
    have hup : offset < offset / (g.loadCount * g.stride) * (g.loadCount * g.stride) +
        g.loadCount * g.stride := Nat.lt_div_mul_add hg.full_pos
    have hend := hg.chunk_end_le hk
    have hoffset : (g.chunk (offset / (g.loadCount * g.stride))).offset =
        offset / (g.loadCount * g.stride) * (g.loadCount * g.stride) := rfl
    refine ⟨_, (locate_eq_some hg).mpr ⟨hfull, hk, rfl⟩, ?_, hg.not_hasByte hk h⟩
    exact hg.stop_eq_of_short hk (by omega)
  · intro hle
    have hk : ¬g.HasChunk (offset / (g.loadCount * g.stride)) := fun hk =>
      Nat.not_lt.mpr hle (hg.hasChunk_iff.mp hk)
    rw [locate_eq hg, if_neg (Nat.not_le.mpr hfull), if_neg hk]

/-- **When offsets behind the body are refused.** Let the bytes of a full chunk be a word. For an
offset of the body in whole pages a chunk is found that has it. For one behind it the last chunk is
found, which does not have it, as long as a full last chunk would, and then nothing. So these three
are the same: all offsets behind the body are refused; every chunk that is found has the offset; and
the body in whole pages is a whole number of full chunks. -/
theorem found_exact (hg : g.Built) (hfull : g.loadCount * g.stride < wordBound) :
    (∀ offset < g.pagedBody, ∃ s, g.locate offset = .ok (some s) ∧ s.HasByte offset) ∧
      (∀ offset, g.pagedBody ≤ offset → offset < g.nominalEnd →
        ∃ s, g.locate offset = .ok (some s) ∧ s.stop = g.count ∧ ¬s.HasByte offset) ∧
      (∀ offset, g.nominalEnd ≤ offset → g.locate offset = .ok none) ∧
      ((∀ offset < wordBound, g.pagedBody ≤ offset → g.locate offset = .ok none) ↔
        g.loadCount * g.stride ∣ g.pagedBody) ∧
      ((∀ offset < wordBound, ∀ s, g.locate offset = .ok (some s) → s.HasByte offset) ↔
        g.loadCount * g.stride ∣ g.pagedBody) := by
  have hr := hg.regular
  have hends := hr.pagedBody_le_nominalEnd
  have hinside : ∀ offset < g.pagedBody,
      ∃ s, g.locate offset = .ok (some s) ∧ s.HasByte offset := fun offset hlt =>
    ⟨_, (locate_eq_some hr).mpr ⟨hfull, hr.hasChunk_of_lt hlt, rfl⟩, hr.hasByte hlt⟩
  have hrefused : ∀ offset, g.nominalEnd ≤ offset → g.locate offset = .ok none :=
    fun offset hle => (locate_behind hr hfull (hends.trans hle)).2 hle
  -- the first offset behind the body tells whether the two ends are one
  have hfirst : ¬g.loadCount * g.stride ∣ g.pagedBody →
      ∃ s, g.locate g.pagedBody = .ok (some s) ∧ ¬s.HasByte g.pagedBody := by
    intro hdvd
    have hlt : g.pagedBody < g.nominalEnd := Nat.not_le.mp (mt hr.nominalEnd_le_iff.mp hdvd)
    obtain ⟨s, hs, -, hbyte⟩ := (locate_behind hr hfull le_rfl).1 hlt
    exact ⟨s, hs, hbyte⟩
  refine ⟨hinside, fun offset hle => (locate_behind hr hfull hle).1, hrefused, ?_, ?_⟩
  · constructor
    · intro hall
      by_contra hdvd
      obtain ⟨s, hs, -⟩ := hfirst hdvd
      rw [hall _ hr.pagedBody_lt le_rfl] at hs
      cases hs
    · exact fun hdvd offset _ hle => hrefused offset ((hr.nominalEnd_le_iff.mpr hdvd).trans hle)
  · constructor
    · intro hall
      by_contra hdvd
      obtain ⟨s, hs, hbyte⟩ := hfirst hdvd
      exact hbyte (hall _ hr.pagedBody_lt s hs)
    · intro hdvd offset _ s hs
      by_cases hlt : offset < g.pagedBody
      · obtain ⟨t, ht, hbyte⟩ := hinside offset hlt
        rw [hs] at ht
        cases ht
        exact hbyte
      · rw [hrefused offset ((hr.nominalEnd_le_iff.mpr hdvd).trans (Nat.not_lt.mp hlt))] at hs
        cases hs

/-- Six hundred elements of twenty-four bytes are a full chunk of three pages and a last one of one
page. An offset in the page behind it is answered with the last chunk. -/
theorem found_exact_sample :
    ∃ g : Geometry, g.Built ∧ g.loadCount * g.stride = 12288 ∧ g.pagedBody = 16384 ∧
      g.nominalEnd = 24576 ∧
      (∃ s, g.locate 16384 = .ok (some s) ∧ s.stop = g.count ∧ ¬s.HasByte 16384) ∧
      g.locate 24576 = .ok none := by
  have hbuilt : (ofSizes 4096 0 600 24 (some 1)).Built :=
    ⟨4096, 0, 600, 24, some 1, ofSizes 4096 0 600 24 (some 1), false, rfl, rfl⟩
  obtain ⟨-, hbehind, hrefused, -, -⟩ := found_exact hbuilt (by decide)
  exact ⟨_, hbuilt, by decide, by decide, by decide, hbehind 16384 (by decide) (by decide),
    hrefused 24576 (by decide)⟩

end Geometry
end DemandPager
