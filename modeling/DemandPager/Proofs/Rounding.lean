/-
# Results of word arithmetic

An operation on words that has a result has the exact one, and it has one exactly
if the exact one is a word. Rounding up is the least multiple that is not below a
number (`ceiling_le_of_dvd`); it commutes with adding multiples (`ceiling_add`).

Key definitions: `ceiling`.
Key theorems: `Checked.bind_eq_ok`, `Word.roundUp_eq_ok`, `ceiling_le_of_dvd`.
-/
import Mathlib.Tactic.Linarith
import DemandPager.Geometry

namespace DemandPager

/-- The least multiple of `align` that is not below `x`. -/
def ceiling (x align : Nat) : Nat := (x + align - 1) / align * align

theorem dvd_ceiling (x align : Nat) : align ∣ ceiling x align := Nat.dvd_mul_left _ _

theorem le_ceiling {align : Nat} (x : Nat) (ha : 0 < align) : x ≤ ceiling x align := by
  have h := Nat.div_add_mod (x + align - 1) align
  have hmod := Nat.mod_lt (x + align - 1) ha
  rw [Nat.mul_comm] at h
  unfold ceiling
  omega

theorem ceiling_lt {align : Nat} (x : Nat) (ha : 0 < align) : ceiling x align < x + align := by
  have h := Nat.div_mul_le_self (x + align - 1) align
  unfold ceiling
  omega

theorem ceiling_le_of_dvd {x align m : Nat} (ha : 0 < align) (hx : x ≤ m) (hm : align ∣ m) :
    ceiling x align ≤ m := by
  obtain ⟨a, ha'⟩ := dvd_ceiling x align
  obtain ⟨b, rfl⟩ := hm
  have hlt := ceiling_lt x ha
  rw [ha'] at hlt ⊢
  apply Nat.mul_le_mul_left _
  by_contra hab
  have hstep : align * (b + 1) ≤ align * a := Nat.mul_le_mul_left _ (by omega)
  rw [Nat.mul_add, Nat.mul_one] at hstep
  omega

theorem ceiling_mono {x y align : Nat} (ha : 0 < align) (h : x ≤ y) :
    ceiling x align ≤ ceiling y align :=
  ceiling_le_of_dvd ha (h.trans (le_ceiling y ha)) (dvd_ceiling y align)

theorem ceiling_of_dvd {m align : Nat} (ha : 0 < align) (hm : align ∣ m) : ceiling m align = m :=
  Nat.le_antisymm (ceiling_le_of_dvd ha (Nat.le_refl m) hm) (le_ceiling m ha)

theorem ceiling_add {m align : Nat} (x : Nat) (ha : 0 < align) (hm : align ∣ m) :
    ceiling (m + x) align = m + ceiling x align := by
  obtain ⟨k, rfl⟩ := hm
  unfold ceiling
  rw [show align * k + x + align - 1 = align * k + (x + align - 1) by omega,
    Nat.mul_add_div ha, Nat.add_mul, Nat.mul_comm k]

theorem ceiling_pos {x align : Nat} (ha : 0 < align) (hx : 0 < x) : 0 < ceiling x align :=
  Nat.lt_of_lt_of_le hx (le_ceiling x ha)

/-! ### Computations that can fail -/

theorem Checked.bind_eq_ok {α β : Type} {x : Checked α} {f : α → Checked β} {b : β} :
    x >>= f = .ok b ↔ ∃ a, x = .ok a ∧ f a = .ok b := by
  cases x with
  | ok a =>
    constructor
    · exact fun h => ⟨a, rfl, h⟩
    · rintro ⟨_, ha, h⟩
      cases ha
      exact h
  | error f =>
    constructor
    · intro h
      cases h
    · rintro ⟨_, ha, -⟩
      cases ha

theorem Checked.bind_eq_error {α β : Type} {x : Checked α} {f : α → Checked β} {e : Failure} :
    x >>= f = .error e ↔ x = .error e ∨ ∃ a, x = .ok a ∧ f a = .error e := by
  cases x with
  | ok a =>
    constructor
    · exact fun h => .inr ⟨a, rfl, h⟩
    · rintro (h | ⟨_, ha, h⟩)
      · cases h
      · cases ha; exact h
  | error f =>
    constructor
    · intro h; cases h; exact .inl rfl
    · rintro (h | ⟨_, ha, _⟩)
      · cases h; rfl
      · cases ha

/-- A test in front of a computation: a refusal ends it. -/
theorem Checked.guard_eq_ok {α : Type} {c : Prop} [Decidable c] {cause : PagerError}
    {rest : PUnit → Checked α} {a : α} :
    (if c then Checked.refuse cause >>= rest else rest ⟨⟩) = .ok a ↔ ¬c ∧ rest ⟨⟩ = .ok a := by
  by_cases hc : c
  · simp only [hc, not_true, false_and, iff_false]
    intro h
    cases h
  · simp [hc]

/-- A test in front of a computation: what follows it is reached only if it holds. -/
theorem Checked.guard_eq {α : Type} {c : Prop} [Decidable c] {cause : PagerError}
    {rest : PUnit → Checked α} :
    (if c then Checked.refuse cause >>= rest else rest ⟨⟩) =
      if c then Checked.refuse cause else rest ⟨⟩ := by
  split
  · rfl
  · rfl

namespace Word

theorem exact_eq_ok {n m : Nat} : exact n = .ok m ↔ n < wordBound ∧ m = n := by
  unfold exact
  split
  · rename_i h
    simp [h, eq_comm]
  · rename_i h
    exact ⟨fun h => (by cases h), fun hc => absurd hc.1 h⟩

theorem exact_eq_error {n : Nat} {f : Failure} (h : exact n = .error f) : f = .abort .overflow := by
  unfold exact at h
  split at h
  · cases h
  · cases h
    rfl

/-- What follows an exact result is reached only if that is a word. -/
theorem exact_bind {α : Type} {n : Nat} {rest : Nat → Checked α} :
    exact n >>= rest = if wordBound ≤ n then Checked.abort .overflow else rest n := by
  unfold exact
  by_cases h : wordBound ≤ n
  · rw [if_neg (Nat.not_lt.mpr h), if_pos h]
    rfl
  · rw [if_pos (Nat.not_le.mp h), if_neg h]
    rfl

theorem add_eq_ok {a b c : Nat} : add a b = .ok c ↔ a + b < wordBound ∧ c = a + b := exact_eq_ok

theorem mul_eq_ok {a b c : Nat} : mul a b = .ok c ↔ a * b < wordBound ∧ c = a * b := exact_eq_ok

theorem sub_eq_ok {a b c : Nat} : sub a b = .ok c ↔ b ≤ a ∧ c = a - b := by
  unfold sub
  split
  · rename_i h
    simp [h, eq_comm]
  · rename_i h
    exact ⟨fun h => (by cases h), fun hc => absurd hc.1 h⟩

theorem roundDown_eq_ok {x align r : Nat} :
    roundDown x align = .ok r ↔ 0 < align ∧ r = x / align * align := by
  unfold roundDown
  split
  · rename_i h
    exact ⟨fun h => (by cases h), fun hc => absurd h (Nat.ne_of_gt hc.1)⟩
  · rename_i h
    simp [Nat.pos_of_ne_zero h, eq_comm]

theorem ceilDiv_eq_ok {x y q : Nat} :
    ceilDiv x y = .ok q ↔ 0 < y ∧ q = (x + y - 1) / y := by
  unfold ceilDiv
  split
  · rename_i h
    exact ⟨fun h => (by cases h), fun hc => absurd h (Nat.ne_of_gt hc.1)⟩
  · rename_i h
    have hy := Nat.pos_of_ne_zero h
    have hq : x / y + (if x % y = 0 then 0 else 1) = (x + y - 1) / y := by
      have hx := Nat.div_add_mod x y
      have hlt := Nat.mod_lt x hy
      have hsum : x + y - 1 = y * (x / y) + (x % y + y - 1) := by omega
      rw [hsum, Nat.mul_add_div hy]
      split
      · rename_i h0
        rw [h0, Nat.div_eq_of_lt (show 0 + y - 1 < y by omega)]
      · rename_i h0
        rw [Nat.div_eq_sub_div hy (show y ≤ x % y + y - 1 by omega),
          Nat.div_eq_of_lt (show x % y + y - 1 - y < y by omega)]
    rw [hq]
    simp [hy, eq_comm]

/-- Rounding up is exact, or the least multiple is no word. -/
theorem roundUp_eq {x align : Nat} (ha : 0 < align) :
    roundUp x align = exact (ceiling x align) := by
  unfold roundUp
  rw [ceilDiv_eq_ok.mpr ⟨ha, rfl⟩]
  rfl

theorem roundUp_eq_ok {x align r : Nat} :
    roundUp x align = .ok r ↔ 0 < align ∧ ceiling x align < wordBound ∧ r = ceiling x align := by
  unfold roundUp
  rw [Checked.bind_eq_ok]
  constructor
  · rintro ⟨q, hq, hr⟩
    obtain ⟨ha, rfl⟩ := ceilDiv_eq_ok.mp hq
    obtain ⟨hlt, rfl⟩ := mul_eq_ok.mp hr
    exact ⟨ha, hlt, rfl⟩
  · rintro ⟨ha, hlt, rfl⟩
    exact ⟨_, ceilDiv_eq_ok.mpr ⟨ha, rfl⟩, mul_eq_ok.mpr ⟨hlt, rfl⟩⟩

theorem roundUp_eq_error {x align : Nat} {f : Failure} (ha : 0 < align)
    (h : roundUp x align = .error f) : f = .abort .overflow := by
  unfold roundUp at h
  rw [ceilDiv_eq_ok.mpr ⟨ha, rfl⟩] at h
  exact exact_eq_error h

end Word
end DemandPager
