/-
# Pages that have content

What the operations on a page table do to single pages and to single bytes. A range
that is installed, dropped or zeroed is one of whole pages; a range that is read or
written need not be.

Key definitions: `PageTable.Whole`.
Key theorems: `PageTable.get?_dropRange`, `PageTable.contains_setAll`, `mem_pagesIn`,
`PageTable.read_eq_error`, `PageTable.read_eq_ok`.
-/
import Mathlib.Data.Int.ModEq
import Mathlib.Data.List.Nodup
import DemandPager.PageTable
import DemandPager.Proofs.Rounding

namespace DemandPager

variable {ps start len p q a : Nat}

/-! ### Pages of a range -/

theorem pageOf_le (ps a : Nat) : pageOf ps a ≤ a := Nat.sub_le ..

theorem pageOf_add_mod (ps a : Nat) : pageOf ps a + a % ps = a :=
  Nat.sub_add_cancel (Nat.mod_le ..)

theorem dvd_pageOf (ps a : Nat) : ps ∣ pageOf ps a := Nat.dvd_sub_mod a

/-- The page of an address that lies in a page. -/
theorem pageOf_eq (hp : ps ∣ p) (hle : p ≤ q) (hlt : q < p + ps) : pageOf ps q = p := by
  have hmod : q % ps = q - p := by
    obtain ⟨k, rfl⟩ := hp
    have hq : q = ps * k + (q - ps * k) := by omega
    rw [hq, Nat.mul_add_mod, Nat.mod_eq_of_lt (by omega)]
    omega
  unfold pageOf
  omega

/-- An address lies in an aligned range if its page does. -/
theorem pageOf_mem_range (hps : 0 < ps) (hstart : ps ∣ start) (hlen : ps ∣ len) (a : Nat) :
    (start ≤ pageOf ps a ∧ pageOf ps a < start + len) ↔ (start ≤ a ∧ a < start + len) := by
  have hle := pageOf_le ps a
  have hsum := pageOf_add_mod ps a
  have hmod := Nat.mod_lt a hps
  obtain ⟨i, hi⟩ := hstart
  obtain ⟨j, hj⟩ := Nat.dvd_add ⟨i, hi⟩ hlen
  obtain ⟨n, hn⟩ := dvd_pageOf ps a
  have hstep : ∀ x y, ps * x < ps * y → ps * x + ps ≤ ps * y := by
    intro x y hxy
    have hlt : x + 1 ≤ y := Nat.lt_of_mul_lt_mul_left hxy
    calc ps * x + ps = ps * (x + 1) := (Nat.mul_succ ps x).symm
      _ ≤ ps * y := Nat.mul_le_mul_left ps hlt
  constructor
  · rintro ⟨h1, h2⟩
    have hend := hstep n j (by omega)
    omega
  · rintro ⟨h1, h2⟩
    refine ⟨?_, by omega⟩
    by_contra hlow
    have hbelow := hstep n i (by omega)
    omega

theorem mod_eq_iff_dvd (h : p ≤ q) : q % ps = p % ps ↔ ps ∣ q - p :=
  eq_comm.trans (Nat.modEq_iff_dvd' h)

theorem add_mod_of_dvd {n : Nat} (p : Nat) (h : ps ∣ n) : (p + n) % ps = p % ps := by
  rw [mod_eq_iff_dvd (Nat.le_add_right ..), Nat.add_sub_cancel_left]
  exact h

/-- The pages of a range of whole pages. -/
theorem mem_pagesIn (hps : 0 < ps) (hlen : ps ∣ len) :
    p ∈ pagesIn ps start len ↔ start ≤ p ∧ p < start + len ∧ p % ps = start % ps := by
  obtain ⟨k, rfl⟩ := hlen
  have hcount : (ps * k + ps - 1) / ps = k := by
    rw [show ps * k + ps - 1 = ps * k + (ps - 1) by omega, Nat.mul_add_div hps,
      Nat.div_eq_of_lt (by omega), Nat.add_zero]
  unfold pagesIn
  rw [hcount]
  simp only [List.mem_map, List.mem_range]
  constructor
  · rintro ⟨i, hi, rfl⟩
    have hlt : i * ps < ps * k := by
      rw [Nat.mul_comm ps]
      exact Nat.mul_lt_mul_of_pos_right hi hps
    exact ⟨Nat.le_add_right .., by omega, add_mod_of_dvd start (Nat.dvd_mul_left ..)⟩
  · rintro ⟨hle, hlt, hmod⟩
    obtain ⟨i, hi⟩ := (mod_eq_iff_dvd hle).mp hmod
    refine ⟨i, Nat.lt_of_mul_lt_mul_left (show ps * i < ps * k by omega), ?_⟩
    rw [Nat.mul_comm]
    omega

theorem nodup_pagesIn (hps : 0 < ps) (start len : Nat) : (pagesIn ps start len).Nodup := by
  refine List.Nodup.map (fun i j h => ?_) List.nodup_range
  exact Nat.eq_of_mul_eq_mul_right hps (Nat.add_left_cancel h)

theorem length_pagesIn (hps : 0 < ps) (hlen : ps ∣ len) :
    (pagesIn ps start len).length * ps = len := by
  obtain ⟨k, rfl⟩ := hlen
  unfold pagesIn
  rw [List.length_map, List.length_range, show ps * k + ps - 1 = ps * k + (ps - 1) by omega,
    Nat.mul_add_div hps, Nat.div_eq_of_lt (show ps - 1 < ps by omega), Nat.add_zero, Nat.mul_comm]

/-- The pages that content is cut into. -/
theorem fst_cutPages (ps : Nat) : ∀ (n start : Nat) (content : Bytes),
    (cutPages ps n start content).map (·.1) = (List.range n).map (start + · * ps)
  | 0, _, _ => rfl
  | n + 1, start, content => by
    rw [cutPages, List.map_cons, fst_cutPages ps n, List.range_succ_eq_map, List.map_cons,
      List.map_map]
    refine congrArg₂ _ (by simp) (List.map_congr_left fun i _ => ?_)
    simp only [Function.comp_apply, Nat.succ_mul]
    omega

theorem mem_cutPages {n : Nat} {content : Bytes} {page : Nat × Bytes} :
    page ∈ cutPages ps n start content ↔ ∃ i < n, page =
      (start + i * ps, Bytes.growTo ((content.drop (i * ps)).take ps) ps) := by
  induction n generalizing start content with
  | zero =>
    constructor
    · intro h
      cases h
    · rintro ⟨_, hi, -⟩
      exact absurd hi (Nat.not_lt_zero _)
  | succ n ih =>
    rw [cutPages, List.mem_cons, ih]
    constructor
    · rintro (rfl | ⟨i, hi, rfl⟩)
      · exact ⟨0, Nat.succ_pos n, by simp⟩
      · refine ⟨i + 1, Nat.succ_lt_succ hi, ?_⟩
        rw [List.drop_drop, Nat.succ_mul, Nat.add_comm ps]
        refine Prod.ext ?_ rfl
        simp only
        omega
    · rintro ⟨i, hi, rfl⟩
      cases i with
      | zero => exact .inl (by simp)
      | succ i =>
        refine .inr ⟨i, Nat.lt_of_succ_lt_succ hi, ?_⟩
        rw [List.drop_drop, Nat.succ_mul, Nat.add_comm ps]
        refine Prod.ext ?_ rfl
        simp only
        omega

namespace PageTable

variable {t : PageTable}

/-! ### Single pages -/

theorem contains_iff : t.contains p ↔ (t.get? p).isSome := by
  unfold contains get?
  rw [Std.TreeMap.contains_eq_isSome_getElem?]

theorem get?_set (t : PageTable) (p q : Nat) (content : Bytes) :
    (t.set p content).get? q = if p = q then some content else t.get? q := by
  unfold set get?
  simp only [Std.TreeMap.getElem?_insert, Nat.compare_eq_eq]

theorem get?_dropRange (t : PageTable) (start len q : Nat) :
    (t.dropRange start len).get? q =
      if start ≤ q ∧ q < start + len then none else t.get? q := by
  unfold dropRange get?
  simp only [Std.TreeMap.getElem?_filter']
  cases t.pages[q]? with
  | none => simp
  | some content => by_cases h : start ≤ q ∧ q < start + len <;> simp [Option.filter, h]

theorem contains_dropRange :
    (t.dropRange start len).contains q ↔ t.contains q ∧ ¬(start ≤ q ∧ q < start + len) := by
  rw [contains_iff, contains_iff, get?_dropRange]
  by_cases h : start ≤ q ∧ q < start + len <;> simp [h]

theorem get?_setAll_of_not_mem : ∀ (pages : List (Nat × Bytes)) (t : PageTable),
    q ∉ pages.map (·.1) → (t.setAll pages).get? q = t.get? q
  | [], _, _ => rfl
  | page :: rest, t, h => by
    rw [List.map_cons, List.mem_cons, not_or] at h
    show ((t.set page.1 page.2).setAll rest).get? q = t.get? q
    rw [get?_setAll_of_not_mem rest _ h.2, get?_set, if_neg fun heq => h.1 heq.symm]

theorem get?_setAll_of_mem : ∀ (pages : List (Nat × Bytes)) (t : PageTable),
    (pages.map (·.1)).Nodup → ∀ page ∈ pages, (t.setAll pages).get? page.1 = some page.2
  | page :: rest, t, hnodup, x, hx => by
    rw [List.map_cons, List.nodup_cons] at hnodup
    show ((t.set page.1 page.2).setAll rest).get? x.1 = some x.2
    rcases List.mem_cons.mp hx with rfl | hrest
    · rw [get?_setAll_of_not_mem rest _ hnodup.1, get?_set, if_pos rfl]
    · exact get?_setAll_of_mem rest _ hnodup.2 x hrest

theorem contains_setAll : ∀ (pages : List (Nat × Bytes)) (t : PageTable),
    (t.setAll pages).contains q ↔ q ∈ pages.map (·.1) ∨ t.contains q
  | [], _ => by simp [setAll]
  | page :: rest, t => by
    show ((t.set page.1 page.2).setAll rest).contains q ↔ _
    rw [contains_setAll rest, List.map_cons, List.mem_cons, contains_iff, get?_set, contains_iff]
    by_cases h : page.1 = q
    · simp [h]
    · simp [h, Ne.symm h]

/-- All pages have their full size. -/
def Whole (t : PageTable) (ps : Nat) : Prop :=
  ∀ p content, t.get? p = some content → content.length = ps

/-! ### Reading -/

/-- The rest of a page behind an address. -/
theorem pageOf_add {a i : Nat} (h : a % ps + i < ps) :
    pageOf ps (a + i) = pageOf ps a ∧ (a + i) % ps = a % ps + i := by
  have ha := pageOf_add_mod ps a
  have hai := pageOf_add_mod ps (a + i)
  have hpage : pageOf ps (a + i) = pageOf ps a :=
    pageOf_eq (dvd_pageOf ps a) (by omega) (by omega)
  exact ⟨hpage, by omega⟩

/-- The address behind the page of an address. -/
theorem next_page (hps : 0 < ps) (a : Nat) : (a + (ps - a % ps)) % ps = 0 := by
  have ha := pageOf_add_mod ps a
  have hlt := Nat.mod_lt a hps
  obtain ⟨k, hk⟩ := dvd_pageOf ps a
  rw [show a + (ps - a % ps) = ps * (k + 1) by rw [Nat.mul_succ]; omega]
  exact Nat.mul_mod_right ..

/-- A range that lies in `n + 1` pages ends in its first page, or its rest lies in `n`
pages. -/
theorem rest_le {n a : Nat} (hps : 0 < ps) (h : a % ps + len ≤ (n + 1) * ps) :
    len ≤ ps - a % ps ∨ ps - a % ps < len ∧
      (a + (ps - a % ps)) % ps + (len - (ps - a % ps)) ≤ n * ps := by
  have hlt := Nat.mod_lt a hps
  rw [next_page hps]
  rw [Nat.succ_mul] at h
  omega

theorem readPages_zero (n a : Nat) : t.readPages ps n a 0 = .ok [] := by
  cases n with
  | zero => rfl
  | succ n => simp [readPages]

theorem readPages_eq_error (hps : 0 < ps) : ∀ (n a len x : Nat), a % ps + len ≤ n * ps →
    t.readPages ps n a len = .error x → ∃ i < len, t.byte? ps (a + i) = none
  | 0, _, _, _, _, h => by cases h
  | n + 1, a, len, x, hlen, h => by
    unfold readPages at h
    split at h
    · cases h
    · rename_i hpos
      split at h
      · rename_i hnone
        refine ⟨0, Nat.pos_of_ne_zero hpos, ?_⟩
        unfold byte?
        rw [Nat.add_zero, hnone]
        rfl
      · cases hrest : t.readPages ps n (a + min (ps - a % ps) len)
            (len - min (ps - a % ps) len) with
        | ok bytes => simp only [hrest] at h; cases h
        | error y =>
          rcases rest_le hps hlen with hend | ⟨hlong, hnext⟩
          · rw [Nat.min_eq_right hend, Nat.sub_self, readPages_zero] at hrest
            cases hrest
          · rw [Nat.min_eq_left (Nat.le_of_lt hlong)] at hrest
            obtain ⟨i, hi, hbyte⟩ := readPages_eq_error hps n _ _ y hnext hrest
            exact ⟨ps - a % ps + i, by omega, by rw [← Nat.add_assoc]; exact hbyte⟩

/-- A read fails only at a byte that is not there. -/
theorem read_eq_error (hps : 0 < ps) {a x : Nat} (h : t.read ps a len = .error x) :
    ∃ i < len, t.byte? ps (a + i) = none :=
  readPages_eq_error hps _ a len x (le_ceiling _ hps) h

theorem readPages_eq_ok (hps : 0 < ps) (ht : t.Whole ps) : ∀ (n a len : Nat) (bytes : Bytes),
    a % ps + len ≤ n * ps → t.readPages ps n a len = .ok bytes →
    bytes.length = len ∧ ∀ i < len, t.byte? ps (a + i) = bytes[i]?
  | 0, a, len, bytes, hlen, h => by
    cases h
    exact ⟨by simp; omega, fun i hi => by omega⟩
  | n + 1, a, len, bytes, hlen, h => by
    unfold readPages at h
    split at h
    · rename_i hzero
      cases h
      exact ⟨hzero.symm, fun i hi => by omega⟩
    · split at h
      · cases h
      · rename_i content hcontent
        have hsize := ht _ _ hcontent
        have hmod := Nat.mod_lt a hps
        obtain ⟨rest, hrest, rfl⟩ : ∃ rest, t.readPages ps n (a + min (ps - a % ps) len)
            (len - min (ps - a % ps) len) = .ok rest ∧
            bytes = Bytes.slice content (a % ps) (min (ps - a % ps) len) ++ rest := by
          cases hrest : t.readPages ps n (a + min (ps - a % ps) len)
              (len - min (ps - a % ps) len) with
          | error y => simp only [hrest] at h; cases h
          | ok rest => simp only [hrest] at h; cases h; exact ⟨rest, rfl, rfl⟩
        have hrest' : rest.length = len - min (ps - a % ps) len ∧
            ∀ i < len - min (ps - a % ps) len,
              t.byte? ps (a + min (ps - a % ps) len + i) = rest[i]? := by
          rcases rest_le hps hlen with hend | ⟨hlong, hnext⟩
          · rw [Nat.min_eq_right hend, Nat.sub_self] at hrest ⊢
            rw [readPages_zero] at hrest
            cases hrest
            exact ⟨rfl, fun i hi => absurd hi (Nat.not_lt_zero i)⟩
          · rw [Nat.min_eq_left (Nat.le_of_lt hlong)] at hrest ⊢
            exact readPages_eq_ok hps ht n _ _ rest hnext hrest
        obtain ⟨hlength, hbytes⟩ := hrest'
        generalize htaken : min (ps - a % ps) len = taken at *
        have hslice : (Bytes.slice content (a % ps) taken).length = taken := by
          unfold Bytes.slice
          rw [List.length_take, List.length_drop]
          omega
        refine ⟨by rw [List.length_append, hslice, hlength]; omega, fun i hi => ?_⟩
        by_cases hfirst : i < taken
        · obtain ⟨hpage, hoffset⟩ := pageOf_add (show a % ps + i < ps by omega)
          rw [List.getElem?_append_left (by omega)]
          unfold byte? Bytes.slice
          rw [hpage, hcontent, hoffset, List.getElem?_take_of_lt hfirst, List.getElem?_drop]
          simp [List.getElem?_eq_getElem (show a % ps + i < content.length by omega)]
        · rw [List.getElem?_append_right (by omega), hslice, ← hbytes (i - taken) (by omega)]
          congr 1
          omega

/-- A read answers the bytes that are there. -/
theorem read_eq_ok (hps : 0 < ps) (ht : t.Whole ps) {a : Nat} {bytes : Bytes}
    (h : t.read ps a len = .ok bytes) :
    bytes.length = len ∧ ∀ i < len, t.byte? ps (a + i) = bytes[i]? :=
  readPages_eq_ok hps ht _ a len bytes (le_ceiling _ hps) h

end PageTable
end DemandPager
