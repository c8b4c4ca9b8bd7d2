/-
# Which geometries are accepted

The sizes that are asked for pass a series of checks, and the first that fails says why the
geometry is refused. Between the checks numbers are rounded up and scaled; where such a number is no
word the construction breaks off, before the check that would have refused it. `Geometry.build_eq`
is the whole series with the exact numbers.

So a geometry is accepted if its sizes are (`Geometry.Acceptable`), but for page sizes that cannot
be scaled (`Geometry.build_exact`), and then a full chunk holds the least number of elements that it
may (`Geometry.accepted_load`).

Key definitions: `Geometry.reservedSize`, `Geometry.ofSizes`, `Geometry.Acceptable`,
`Geometry.Oversteps`, `Geometry.Objection`.
Key theorems: `Geometry.build_eq`, `Geometry.build_exact`, `Geometry.accepted_load`.
-/
import DemandPager.Proofs.Granularity

namespace DemandPager
namespace Geometry

variable {pageSize headerSize count stride : Nat} {minLoad : Option Nat} {g : Geometry}

/-- Bytes of the padded header and of the body in whole pages. -/
def reservedSize (pageSize headerSize count stride : Nat) : Nat :=
  ceiling headerSize pageSize + ceiling (count * stride) pageSize

/-- The geometry of these sizes. -/
def ofSizes (pageSize headerSize count stride : Nat) (minLoad : Option Nat) : Geometry where
  pageSize := pageSize
  headerSize := headerSize
  paddedHeader := ceiling headerSize pageSize
  count := count
  stride := stride
  loadCount := fullLoad pageSize stride minLoad
  readOnly := true

theorem refusesPage_iff :
    (decide (pageSize = 0) || !Word.isPowerOfTwo pageSize) = true ↔ ¬pageSize.isPowerOfTwo := by
  rw [Bool.or_eq_true, decide_eq_true_eq, Bool.not_eq_true', ← Bool.not_eq_true,
    Word.isPowerOfTwo_iff]
  constructor
  · rintro (rfl | h)
    · exact fun htwo => Nat.lt_irrefl 0 (Nat.pos_of_isPowerOfTwo htwo)
    · exact h
  · exact Or.inr

/-- **The checks of a construction, in order.** -/
theorem build_eq (pageSize headerSize count stride : Nat) (minLoad : Option Nat) :
    build pageSize headerSize count stride minLoad =
      if stride < 1 then Checked.refuse (.invalidConfig "stride must be at least 1")
      else if ¬pageSize.isPowerOfTwo then
        Checked.refuse (.invalidConfig "page size must be a power of two")
      else if wordBound ≤ ceiling headerSize pageSize then Checked.abort .overflow
      else if Unscalable pageSize stride then Checked.abort .overflow
      else if wordBound ≤ fullLoad pageSize stride minLoad then
        Checked.refuse (.invalidConfig "load count overflows")
      else if wordBound ≤ count * stride then
        Checked.refuse (.invalidConfig "object body overflows")
      else if wordBound ≤ ceiling (count * stride) pageSize then Checked.abort .overflow
      else if wordBound ≤ reservedSize pageSize headerSize count stride then
        Checked.refuse (.invalidConfig "object size overflows")
      else if reservedSize pageSize headerSize count stride = 0 then
        Checked.refuse (.invalidConfig "object has no header and no body")
      else .ok (ofSizes pageSize headerSize count stride minLoad) := by
  unfold build
  simp only [Checked.guard_eq, refusesPage_iff]
  by_cases hstride : stride < 1
  · rw [if_pos hstride, if_pos hstride]
  by_cases hpage : ¬pageSize.isPowerOfTwo
  · rw [if_neg hstride, if_neg hstride, if_pos hpage, if_pos hpage]
  have hpos : 0 < pageSize := Nat.pos_of_isPowerOfTwo (not_not.mp hpage)
  simp only [if_neg hstride, if_neg hpage, Word.roundUp_eq hpos, Word.exact_bind]
  -- What follows the load count is the rest of the series by now. The numbers before it are bound
  -- one after the other.
  by_cases hheader : wordBound ≤ ceiling headerSize pageSize
  · rw [if_pos hheader, if_pos hheader]
  rw [if_neg hheader, if_neg hheader, loadStep_eq (not_not.mp hpage)]
  by_cases hscale : Unscalable pageSize stride
  · rw [if_pos hscale, if_pos hscale]
    rfl
  rw [if_neg hscale, if_neg hscale]
  show loadCountFor (step pageSize stride) _ >>= _ = _
  rw [loadCountFor_eq (step_pos hpos), Nat.max_comm]
  change (if wordBound ≤ fullLoad pageSize stride minLoad then _ else
    .ok (fullLoad pageSize stride minLoad) : Checked Nat) >>= _ = _
  by_cases hload : wordBound ≤ fullLoad pageSize stride minLoad
  · rw [if_pos hload, if_pos hload]
    rfl
  rw [if_neg hload, if_neg hload]
  rfl

/-! ### What is accepted, and what is not -/

/-- Sizes that a geometry may have, in exact numbers. -/
structure Acceptable (pageSize headerSize count stride : Nat) (minLoad : Option Nat) : Prop where
  stride_pos : 1 ≤ stride
  page : pageSize.isPowerOfTwo
  load_lt : fullLoad pageSize stride minLoad < wordBound
  size_pos : 0 < reservedSize pageSize headerSize count stride
  size_lt : reservedSize pageSize headerSize count stride < wordBound

/-- A number that is needed for a check is no word: the padded header, the scaled page size, or,
for a load count and a body that are words, the body in whole pages. -/
structure Oversteps (pageSize headerSize count stride : Nat) (minLoad : Option Nat) : Prop where
  stride_pos : 1 ≤ stride
  page : pageSize.isPowerOfTwo
  number : wordBound ≤ ceiling headerSize pageSize ∨ Unscalable pageSize stride ∨
    fullLoad pageSize stride minLoad < wordBound ∧ count * stride < wordBound ∧
      wordBound ≤ ceiling (count * stride) pageSize

/-- What is wrong with the sizes, in the words of the refusal. -/
inductive Objection (pageSize headerSize count stride : Nat) (minLoad : Option Nat) : String → Prop
  | stride (h : stride = 0) :
      Objection pageSize headerSize count stride minLoad "stride must be at least 1"
  | page (h : ¬pageSize.isPowerOfTwo) :
      Objection pageSize headerSize count stride minLoad "page size must be a power of two"
  | load (h : wordBound ≤ fullLoad pageSize stride minLoad) :
      Objection pageSize headerSize count stride minLoad "load count overflows"
  | body (h : wordBound ≤ count * stride) :
      Objection pageSize headerSize count stride minLoad "object body overflows"
  | size (h : wordBound ≤ reservedSize pageSize headerSize count stride) :
      Objection pageSize headerSize count stride minLoad "object size overflows"
  | nothing (h : reservedSize pageSize headerSize count stride = 0) :
      Objection pageSize headerSize count stride minLoad "object has no header and no body"

/-- How a construction ends, and what holds of the sizes then. -/
inductive Verdict (pageSize headerSize count stride : Nat) (minLoad : Option Nat) :
    Checked Geometry → Prop
  | refused {reason : String} (h : Objection pageSize headerSize count stride minLoad reason)
      (hwords : ¬Oversteps pageSize headerSize count stride minLoad) :
      Verdict pageSize headerSize count stride minLoad (Checked.refuse (.invalidConfig reason))
  | broken (h : Oversteps pageSize headerSize count stride minLoad) :
      Verdict pageSize headerSize count stride minLoad (Checked.abort .overflow)
  | accepted (h : Acceptable pageSize headerSize count stride minLoad)
      (hscale : ¬Unscalable pageSize stride) :
      Verdict pageSize headerSize count stride minLoad
        (.ok (ofSizes pageSize headerSize count stride minLoad))

theorem Objection.not_acceptable {reason : String}
    (h : Objection pageSize headerSize count stride minLoad reason) :
    ¬Acceptable pageSize headerSize count stride minLoad := by
  intro ha
  cases h with
  | stride h => exact absurd ha.stride_pos (by omega)
  | page h => exact h ha.page
  | load h => exact absurd ha.load_lt (Nat.not_lt.mpr h)
  | body h =>
    have hle := le_ceiling (count * stride) (Nat.pos_of_isPowerOfTwo ha.page)
    have hlt := ha.size_lt
    unfold reservedSize at hlt
    omega
  | size h => exact absurd ha.size_lt (Nat.not_lt.mpr h)
  | nothing h => exact absurd ha.size_pos (by omega)

/-- The padded header and the body of acceptable sizes are words, so only the scaled page size can
overstep. -/
theorem Oversteps.unscalable (h : Oversteps pageSize headerSize count stride minLoad)
    (ha : Acceptable pageSize headerSize count stride minLoad) : Unscalable pageSize stride := by
  have hlt := ha.size_lt
  unfold reservedSize at hlt
  rcases h.number with hheader | hscale | ⟨-, -, hbody⟩
  · omega
  · exact hscale
  · omega

/-- Nothing oversteps if the padded header and the scaled page size are words, and the body in whole
pages is where it comes to that. -/
theorem not_oversteps (hheader : ¬wordBound ≤ ceiling headerSize pageSize)
    (hscale : ¬Unscalable pageSize stride)
    (hbody : fullLoad pageSize stride minLoad < wordBound → count * stride < wordBound →
      ¬wordBound ≤ ceiling (count * stride) pageSize) :
    ¬Oversteps pageSize headerSize count stride minLoad := by
  intro h
  rcases h.number with hnumber | hnumber | ⟨hload, hlt, hnumber⟩
  · exact hheader hnumber
  · exact hscale hnumber
  · exact hbody hload hlt hnumber

/-- **How a construction ends.** -/
theorem build_verdict (pageSize headerSize count stride : Nat) (minLoad : Option Nat) :
    Verdict pageSize headerSize count stride minLoad
      (build pageSize headerSize count stride minLoad) := by
  rw [build_eq]
  by_cases hstride : stride < 1
  · rw [if_pos hstride]
    exact .refused (.stride (by omega)) fun h => absurd h.stride_pos (by omega)
  by_cases hpage : ¬pageSize.isPowerOfTwo
  · rw [if_neg hstride, if_pos hpage]
    exact .refused (.page hpage) fun h => hpage h.page
  rw [if_neg hstride, if_neg hpage]
  have hpos : 1 ≤ stride := Nat.le_of_not_lt hstride
  have htwo : pageSize.isPowerOfTwo := not_not.mp hpage
  split_ifs with hheader hscale hload hbody hpaged hsize hnothing
  · exact .broken ⟨hpos, htwo, .inl hheader⟩
  · exact .broken ⟨hpos, htwo, .inr (.inl hscale)⟩
  · exact .refused (.load hload) (not_oversteps hheader hscale fun h => absurd hload h.not_ge)
  · exact .refused (.body hbody) (not_oversteps hheader hscale fun _ h => absurd hbody h.not_ge)
  · exact .broken ⟨hpos, htwo, .inr (.inr ⟨by omega, by omega, hpaged⟩)⟩
  · exact .refused (.size hsize) (not_oversteps hheader hscale fun _ _ => hpaged)
  · exact .refused (.nothing hnothing) (not_oversteps hheader hscale fun _ _ => hpaged)
  · exact .accepted ⟨hpos, htwo, by omega, by omega, by omega⟩ hscale

/-- A geometry is accepted if its sizes are, and if the page size can be scaled. -/
theorem build_eq_ok : build pageSize headerSize count stride minLoad = .ok g ↔
    Acceptable pageSize headerSize count stride minLoad ∧ ¬Unscalable pageSize stride ∧
      g = ofSizes pageSize headerSize count stride minLoad := by
  have hverdict := build_verdict pageSize headerSize count stride minLoad
  generalize build pageSize headerSize count stride minLoad = result at hverdict
  constructor
  · rintro rfl
    cases hverdict with
    | accepted ha hscale => exact ⟨ha, hscale, rfl⟩
  · rintro ⟨ha, hscale, rfl⟩
    cases hverdict with
    | refused h => exact absurd ha h.not_acceptable
    | broken h => exact absurd (h.unscalable ha) hscale
    | accepted => rfl

theorem build_eq_overflow :
    build pageSize headerSize count stride minLoad = Checked.abort .overflow ↔
    Oversteps pageSize headerSize count stride minLoad := by
  have hverdict := build_verdict pageSize headerSize count stride minLoad
  generalize build pageSize headerSize count stride minLoad = result at hverdict
  constructor
  · rintro rfl
    cases hverdict with
    | broken h => exact h
  · intro h
    cases hverdict with
    | refused _ hwords => exact absurd h hwords
    | broken => rfl
    | accepted ha hscale => exact absurd (h.unscalable ha) hscale

/-- **When sizes are accepted.** Sizes are accepted if there are elements of at least a byte, the
page size is a power of two, the load count is a word, and the padded header and the body in whole
pages take at least a byte and together are a word; only for pages that cannot be scaled, which have
more than 2 to the power of 32 bytes, this is not enough. The construction breaks off exactly if the
padded header, the scaled page size or the body in whole pages is no word where it is needed. In all
other cases it names a check that the sizes fail. -/
theorem build_exact (pageSize headerSize count stride : Nat) (minLoad : Option Nat) :
    (∀ g, build pageSize headerSize count stride minLoad = .ok g ↔
      Acceptable pageSize headerSize count stride minLoad ∧ ¬Unscalable pageSize stride ∧
        g = ofSizes pageSize headerSize count stride minLoad) ∧
    (1 ≤ stride → pageSize ≤ halfWordBound → ¬Unscalable pageSize stride) ∧
    (build pageSize headerSize count stride minLoad = .error (.abort .overflow) ↔
      Oversteps pageSize headerSize count stride minLoad) ∧
    ∀ f, build pageSize headerSize count stride minLoad = .error f →
      f = .abort .overflow ∨ ∃ reason, f = .error (.invalidConfig reason) ∧
        Objection pageSize headerSize count stride minLoad reason := by
  refine ⟨fun _ => build_eq_ok, not_unscalable, build_eq_overflow, fun f hf => ?_⟩
  have hverdict := build_verdict pageSize headerSize count stride minLoad
  rw [hf] at hverdict
  cases hverdict with
  | refused h => exact .inr ⟨_, rfl, h⟩
  | broken => exact .inl rfl

/-- A header of less than a page below the bound of words, and a page of eight gibibytes with a
stride of half of it. The sizes of the second are acceptable. -/
theorem build_exact_sample :
    build 4096 18446744073709551615 1 8 (some 1) = .error (.abort .overflow) ∧
      Acceptable 8589934592 0 1 4294967296 (some 1) ∧
      build 8589934592 0 1 4294967296 (some 1) = .error (.abort .overflow) := by
  have hscale : Unscalable 8589934592 4294967296 := by decide
  refine ⟨(build_exact ..).2.2.1.mpr ⟨by decide, ⟨12, rfl⟩, .inl (by decide)⟩,
    ⟨by decide, ⟨33, rfl⟩, by decide, by decide, by decide⟩,
    (build_exact ..).2.2.1.mpr ⟨by decide, ⟨33, rfl⟩, .inr (.inl hscale)⟩⟩

/-! ### The load of what is accepted -/

/-- **A full chunk holds the least number of elements that it may.** Its elements fill whole pages.
Their number is the least multiple of a step that is not below the number asked for, which is one at
least. The step is the page size if the stride is a power of two below it, and otherwise the fewest
elements that fill whole pages. -/
theorem accepted_load (h : build pageSize headerSize count stride minLoad = .ok g) :
    g.pageSize = pageSize ∧ g.stride = stride ∧ pageSize ∣ g.loadCount * stride ∧
      ∃ u, (stride.isPowerOfTwo ∧ stride < pageSize → u = pageSize) ∧
        (¬(stride.isPowerOfTwo ∧ stride < pageSize) →
          u = pageSize / Nat.gcd pageSize stride ∧
            IsLeast {n | 0 < n ∧ pageSize ∣ n * stride} u) ∧
        IsLeast {n | 0 < n ∧ u ∣ n ∧ max 1 (minLoad.getD (defaultLoadBytes / stride)) ≤ n}
          g.loadCount := by
  obtain ⟨ha, -, rfl⟩ := build_eq_ok.mp h
  have hp : 0 < pageSize := Nat.pos_of_isPowerOfTwo ha.page
  refine ⟨rfl, rfl, fullLoad_dvd hp minLoad, step pageSize stride, fun hpacked => if_pos hpacked,
    fun hfree => ?_, fullLoad_isLeast hp minLoad⟩
  have hstep : step pageSize stride = pageSize / Nat.gcd pageSize stride := if_neg hfree
  exact ⟨hstep, hstep ▸ fewest_isLeast hp⟩

/-- Elements of twenty-four bytes fill whole pages by 512, and 600 of them are asked for. -/
theorem accepted_load_sample :
    build 4096 0 10000 24 (some 600) = .ok (ofSizes 4096 0 10000 24 (some 600)) ∧
      4096 ∣ (ofSizes 4096 0 10000 24 (some 600)).loadCount * 24 ∧
      IsLeast {n | 0 < n ∧ 512 ∣ n ∧ 600 ≤ n} (ofSizes 4096 0 10000 24 (some 600)).loadCount := by
  have hbuild : build 4096 0 10000 24 (some 600) = .ok (ofSizes 4096 0 10000 24 (some 600)) := rfl
  obtain ⟨-, -, hdvd, u, -, hfree, hleast⟩ := accepted_load hbuild
  obtain ⟨rfl, -⟩ := hfree (by decide)
  exact ⟨hbuild, hdvd, hleast⟩

end Geometry
end DemandPager
