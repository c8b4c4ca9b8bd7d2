/-
# How many elements a chunk holds

Every chunk begins on a page, so a full chunk holds a number of elements that fills whole pages.
The fewest such elements are the page size divided by what it has in common with the stride
(`Geometry.fewest_isLeast`). Chunks grow by this step, but for a stride that is a power of two below
the page size: then the step is as many elements as a page has bytes (`Geometry.step`). A full chunk
holds the least multiple of the step that has the elements asked for (`Geometry.fullLoad`).

To tell the two kinds of stride apart, the page size is multiplied by the common divisor and the
product is divided by the stride. A page size is a power of two, so the division leaves no rest
exactly if the stride is one too (`Geometry.dvd_scaled_iff`). The product may be no word; then no
step is found (`Geometry.Unscalable`).

Key definitions: `Geometry.step`, `Geometry.fullLoad`, `Geometry.Unscalable`.
Key theorems: `Geometry.fewest_isLeast`, `Geometry.dvd_scaled_iff`, `Geometry.loadStep_eq`,
`Geometry.fullLoad_isLeast`, `Geometry.loadCountFor_eq`.
-/
import Mathlib.Data.Nat.Prime.Basic
import Mathlib.Order.Bounds.Basic
import DemandPager.Proofs.Rounding

namespace DemandPager

theorem Word.isPowerOfTwo_iff {n : Nat} : Word.isPowerOfTwo n = true ↔ n.isPowerOfTwo := by
  unfold Word.isPowerOfTwo
  rw [beq_iff_eq, Nat.one_shiftLeft]
  constructor
  · exact fun h => ⟨n.log2, h.symm⟩
  · rintro ⟨k, rfl⟩
    rw [Nat.log2_two_pow]

/-- Rounding up gives the least multiple that is large enough. -/
theorem ceiling_isLeast {x align : Nat} (ha : 0 < align) (hx : 0 < x) :
    IsLeast {n | 0 < n ∧ align ∣ n ∧ x ≤ n} (ceiling x align) := by
  refine ⟨⟨ceiling_pos ha hx, dvd_ceiling x align, le_ceiling x ha⟩, ?_⟩
  rintro n ⟨-, hdvd, hle⟩
  exact ceiling_le_of_dvd ha hle hdvd

namespace Geometry

variable {pageSize stride n : Nat}

/-! ### Steps -/

/-- Elements fill whole pages if their number is a multiple of the fewest that do. -/
theorem dvd_mul_iff (hp : 0 < pageSize) :
    pageSize ∣ n * stride ↔ pageSize / Nat.gcd pageSize stride ∣ n := by
  rw [Nat.div_dvd_iff_dvd_mul (Nat.gcd_dvd_left ..) (Nat.gcd_pos_of_pos_left _ hp),
    Nat.mul_comm _ n,
    Nat.dvd_mul_gcd_iff_dvd_mul]

/-- **The fewest elements that fill whole pages.** -/
theorem fewest_isLeast (hp : 0 < pageSize) :
    IsLeast {n | 0 < n ∧ pageSize ∣ n * stride} (pageSize / Nat.gcd pageSize stride) := by
  have hpos : 0 < pageSize / Nat.gcd pageSize stride :=
    Nat.div_pos (Nat.gcd_le_left _ hp) (Nat.gcd_pos_of_pos_left _ hp)
  refine ⟨⟨hpos, (dvd_mul_iff hp).mpr (Nat.dvd_refl _)⟩, ?_⟩
  rintro n ⟨hn, hdvd⟩
  exact Nat.le_of_dvd hn ((dvd_mul_iff hp).mp hdvd)

/-- Elements by which chunks grow. -/
def step (pageSize stride : Nat) : Nat :=
  if stride.isPowerOfTwo ∧ stride < pageSize then pageSize
  else pageSize / Nat.gcd pageSize stride

theorem step_pos (hp : 0 < pageSize) : 0 < step pageSize stride := by
  unfold step
  split
  · exact hp
  · exact (fewest_isLeast hp).1.1

/-- The elements of a step fill whole pages. -/
theorem step_dvd (hp : 0 < pageSize) : pageSize ∣ step pageSize stride * stride := by
  unfold step
  split
  · exact Nat.dvd_mul_right ..
  · exact (fewest_isLeast hp).1.2

/-- The page size times what it has in common with the stride is no word, although it has to be
found for a stride below the page size. -/
def Unscalable (pageSize stride : Nat) : Prop :=
  stride < pageSize ∧ wordBound ≤ pageSize * Nat.gcd pageSize stride

instance : Decidable (Unscalable pageSize stride) := inferInstanceAs (Decidable (_ ∧ _))

/-- Page sizes up to the bound of half words are scaled without loss: the common divisor is at most
the stride. -/
theorem not_unscalable (hs : 0 < stride) (hp : pageSize ≤ halfWordBound) :
    ¬Unscalable pageSize stride := by
  rintro ⟨hlt, hbig⟩
  have hgcd : Nat.gcd pageSize stride ≤ stride := Nat.gcd_le_right _ hs
  have hsquare : pageSize * Nat.gcd pageSize stride < halfWordBound * halfWordBound :=
    Nat.mul_lt_mul_of_le_of_lt hp (by omega) (by decide)
  exact absurd hbig (Nat.not_le.mpr hsquare)

/-- A power of two divides the scaled page size, and nothing else does. -/
theorem dvd_scaled_iff (hp : pageSize.isPowerOfTwo) (hlt : stride < pageSize) :
    stride ∣ pageSize * Nat.gcd pageSize stride ↔ stride.isPowerOfTwo := by
  obtain ⟨a, rfl⟩ := hp
  constructor
  · intro hdvd
    obtain ⟨b, -, hb⟩ := (Nat.dvd_prime_pow Nat.prime_two).mp (Nat.gcd_dvd_left (2 ^ a) stride)
    rw [hb, ← Nat.pow_add] at hdvd
    obtain ⟨k, -, hk⟩ := (Nat.dvd_prime_pow Nat.prime_two).mp hdvd
    exact ⟨k, hk⟩
  · rintro ⟨k, rfl⟩
    have hk : k < a := (Nat.pow_lt_pow_iff_right (by decide)).mp hlt
    exact Nat.dvd_mul_right_of_dvd (Nat.pow_dvd_pow 2 (Nat.le_of_lt hk)) _

/-- A stride that is a power of two leaves the page size of the scaled page size. -/
theorem scaled_div (hp : pageSize.isPowerOfTwo) (hs : stride.isPowerOfTwo)
    (hlt : stride < pageSize) :
    pageSize * Nat.gcd pageSize stride / stride = pageSize := by
  obtain ⟨a, rfl⟩ := hp
  obtain ⟨k, rfl⟩ := hs
  have hk : k < a := (Nat.pow_lt_pow_iff_right (by decide)).mp hlt
  rw [Nat.gcd_eq_right (Nat.pow_dvd_pow 2 (Nat.le_of_lt hk)),
    Nat.mul_div_cancel _ (Nat.two_pow_pos k)]

/-- **The step that is found**, unless the scaled page size is no word. -/
theorem loadStep_eq (hp : pageSize.isPowerOfTwo) :
    loadStep pageSize stride =
      if Unscalable pageSize stride then Checked.abort .overflow
        else .ok (step pageSize stride) := by
  unfold loadStep Unscalable step
  by_cases hlt : stride < pageSize
  · simp only [hlt, if_true, true_and, and_true]
    have hrest : pageSize * Nat.gcd pageSize stride % stride = 0 ↔ stride.isPowerOfTwo :=
      (Nat.dvd_iff_mod_eq_zero ..).symm.trans (dvd_scaled_iff hp hlt)
    -- The product comes before the division: if it is no word, the stride is never looked at.
    refine Word.exact_bind.trans ?_
    by_cases hword : wordBound ≤ pageSize * Nat.gcd pageSize stride
    · rw [if_pos hword, if_pos hword]
    rw [if_neg hword, if_neg hword]
    by_cases htwo : stride.isPowerOfTwo
    · rw [if_pos (hrest.mpr htwo), if_pos htwo, scaled_div hp htwo hlt]
      rfl
    · rw [if_neg fun h => htwo (hrest.mp h), if_neg htwo]
      rfl
  · simp only [hlt, if_false, false_and, and_false]
    rfl

/-! ### Full chunks -/

/-- Elements that a chunk has to hold at least. -/
def requested (stride : Nat) (minLoad : Option Nat) : Nat :=
  max 1 (minLoad.getD (defaultLoadBytes / stride))

/-- Elements of a full chunk. -/
def fullLoad (pageSize stride : Nat) (minLoad : Option Nat) : Nat :=
  ceiling (requested stride minLoad) (step pageSize stride)

theorem requested_pos (stride : Nat) (minLoad : Option Nat) : 0 < requested stride minLoad :=
  Nat.lt_of_lt_of_le Nat.one_pos (Nat.le_max_left ..)

/-- **A full chunk holds the least multiple of the step that has the elements asked for.** -/
theorem fullLoad_isLeast (hp : 0 < pageSize) (minLoad : Option Nat) :
    IsLeast {n | 0 < n ∧ step pageSize stride ∣ n ∧ requested stride minLoad ≤ n}
      (fullLoad pageSize stride minLoad) :=
  ceiling_isLeast (step_pos hp) (requested_pos stride minLoad)

theorem fullLoad_pos (hp : 0 < pageSize) (minLoad : Option Nat) :
    0 < fullLoad pageSize stride minLoad := (fullLoad_isLeast hp minLoad).1.1

/-- A full chunk takes whole pages. -/
theorem fullLoad_dvd (hp : 0 < pageSize) (minLoad : Option Nat) :
    pageSize ∣ fullLoad pageSize stride minLoad * stride := by
  obtain ⟨steps, hsteps⟩ : step pageSize stride ∣ fullLoad pageSize stride minLoad :=
    (fullLoad_isLeast hp minLoad).1.2.1
  rw [hsteps, Nat.mul_right_comm]
  exact Nat.dvd_mul_right_of_dvd (step_dvd hp) steps

theorem loadCountFor_eq {step : Nat} (hstep : 0 < step) (elements : Nat) :
    loadCountFor step elements =
      if wordBound ≤ ceiling elements step then
        Checked.refuse (.invalidConfig "load count overflows")
      else .ok (ceiling elements step) := by
  have hcomm : step * ((elements + step - 1) / step) = ceiling elements step := Nat.mul_comm ..
  unfold loadCountFor
  rw [Word.ceilDiv_eq_ok.mpr ⟨hstep, rfl⟩]
  show (if _ then _ else _ : Checked Nat) = _
  rw [hcomm]
  by_cases hword : wordBound ≤ ceiling elements step
  · rw [if_neg (Nat.not_lt.mpr hword), if_pos hword]
  · rw [if_pos (Nat.not_le.mp hword), if_neg hword]
    rfl

end Geometry
end DemandPager
