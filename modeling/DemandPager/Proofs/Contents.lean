/-
# The bytes of pages

What the operations on a page table do to the bytes behind addresses. A page is `Whole`
if its content is as long as the page; all operations keep pages so. A byte that is
written is there if its page was (`PageTable.write_overwritten`), and content that is
installed is found byte for byte (`PageTable.byte?_setAll_cutPages`).

Key definitions: `PageTable.Whole`, `PageTable.Overwritten`.
Key theorems: `Bytes.getElem?_splice`, `PageTable.byte?_setAll_cutPages`,
`PageTable.write_overwritten`.
-/
import DemandPager.Proofs.Pages

namespace DemandPager

variable {ps start len p q a : Nat}

namespace Bytes

theorem length_overlay (written buffer : Bytes) :
    (overlay written buffer).length = buffer.length := by
  unfold overlay
  rw [List.length_append, List.length_take, List.length_drop]
  omega

/-- A buffer that is overwritten in full is what was written. -/
theorem overlay_eq {written buffer : Bytes} (h : written.length = buffer.length) :
    overlay written buffer = written := by
  unfold overlay
  rw [← h, List.take_length, List.drop_eq_nil_of_le (by omega), List.append_nil]

theorem length_splice (content : Bytes) (offset : Nat) (written : Bytes) :
    (splice content offset written).length = content.length := by
  unfold splice
  rw [List.length_append, length_overlay, List.length_take, List.length_drop]
  omega

/-- A splice is the written bytes in their place and the old ones elsewhere. -/
theorem getElem?_splice {content written : Bytes} {offset : Nat}
    (h : offset + written.length ≤ content.length) (j : Nat) :
    (splice content offset written)[j]? =
      if offset ≤ j ∧ j < offset + written.length then written[j - offset]? else content[j]? := by
  have htake : (content.take offset).length = offset := by
    rw [List.length_take]
    omega
  have hfits : written.take (content.drop offset).length = written := by
    apply List.take_of_length_le
    rw [List.length_drop]
    omega
  unfold splice overlay
  rw [hfits]
  by_cases hlow : j < offset
  · rw [List.getElem?_append_left (by omega), List.getElem?_take_of_lt hlow, if_neg (by omega)]
  · rw [List.getElem?_append_right (by omega), htake]
    by_cases hin : j < offset + written.length
    · rw [List.getElem?_append_left (by omega), if_pos (by omega)]
    · rw [List.getElem?_append_right (by omega), List.getElem?_drop, List.getElem?_drop,
        if_neg (by omega)]
      congr 1
      omega

end Bytes

namespace PageTable

variable {t t' : PageTable}

theorem byte?_congr (h : t'.get? (pageOf ps a) = t.get? (pageOf ps a)) :
    t'.byte? ps a = t.byte? ps a := by
  unfold byte?
  rw [h]

/-- A byte is there if its page is. -/
theorem byte?_ne_none : t.byte? ps a ≠ none ↔ t.contains (pageOf ps a) := by
  rw [contains_iff]
  unfold byte?
  cases t.get? (pageOf ps a) <;> simp

theorem byte?_of_get? {content : Bytes} (h : t.get? (pageOf ps a) = some content)
    (hlt : a % ps < content.length) : t.byte? ps a = content[a % ps]? := by
  unfold byte?
  rw [h, List.getElem?_eq_getElem hlt]
  simp [hlt]

/-- A byte is dropped with its page. -/
theorem byte?_dropRange (t : PageTable) (start len ps a : Nat) :
    (t.dropRange start len).byte? ps a =
      if start ≤ pageOf ps a ∧ pageOf ps a < start + len then none else t.byte? ps a := by
  unfold byte?
  rw [get?_dropRange]
  by_cases hin : start ≤ pageOf ps a ∧ pageOf ps a < start + len
  · rw [if_pos hin, if_pos hin]
    rfl
  · rw [if_neg hin, if_neg hin]

theorem Whole.set (h : t.Whole ps) {content : Bytes} (hcontent : content.length = ps) :
    (t.set p content).Whole ps := by
  intro q x hx
  rw [get?_set] at hx
  by_cases hpq : p = q
  · rw [if_pos hpq] at hx
    cases hx
    exact hcontent
  · rw [if_neg hpq] at hx
    exact h q x hx

theorem Whole.setAll : ∀ (pages : List (Nat × Bytes)) {t : PageTable}, t.Whole ps →
    (∀ page ∈ pages, page.2.length = ps) → (t.setAll pages).Whole ps
  | [], _, h, _ => h
  | page :: rest, t, h, hpages => by
    show ((t.set page.1 page.2).setAll rest).Whole ps
    refine Whole.setAll rest (h.set (hpages page (List.mem_cons_self ..))) fun x hx => ?_
    exact hpages x (List.mem_cons_of_mem _ hx)

theorem Whole.dropRange (h : t.Whole ps) : (t.dropRange start len).Whole ps := by
  intro q x hx
  rw [get?_dropRange] at hx
  by_cases hin : start ≤ q ∧ q < start + len
  · rw [if_pos hin] at hx
    cases hx
  · rw [if_neg hin] at hx
    exact h q x hx

/-- Only the pages that are there have to be looked at. -/
theorem whole_iff : t.Whole ps ↔ ∀ page ∈ t.pages.toList, page.2.length = ps := by
  unfold Whole get?
  constructor
  · intro h page hpage
    exact h page.1 page.2 (Std.TreeMap.mem_toList_iff_getElem?_eq_some.mp hpage)
  · intro h p content hget
    exact h (p, content) (Std.TreeMap.mem_toList_iff_getElem?_eq_some.mpr hget)

instance : Decidable (t.Whole ps) := decidable_of_iff _ whole_iff.symm

/-! ### Installing -/

/-- Pages that content is cut into are whole. -/
theorem length_of_mem_cutPages {n : Nat} {content : Bytes} {page : Nat × Bytes}
    (h : page ∈ cutPages ps n start content) : page.2.length = ps := by
  obtain ⟨i, -, rfl⟩ := mem_cutPages.mp h
  unfold Bytes.growTo
  split
  · rename_i hlong
    refine Nat.le_antisymm ?_ hlong
    rw [List.length_take]
    exact Nat.min_le_left ..
  · rw [List.length_append, Bytes.zeros, List.length_replicate]
    omega

/-- Content that is cut into pages is found byte for byte. -/
theorem byte?_setAll_cutPages (hps : 0 < ps) (hstart : ps ∣ start) {n : Nat} {content : Bytes}
    (hlen : content.length = n * ps) (hle : start ≤ a) (hlt : a < start + content.length) :
    (t.setAll (cutPages ps n start content)).byte? ps a = content[a - start]? := by
  have hdiv := Nat.div_add_mod (a - start) ps
  have hmod : a % ps = (a - start) % ps := by
    have hsum : a = (a - start) + start := by omega
    rw [hsum, add_mod_of_dvd _ hstart, Nat.add_sub_cancel]
  have hmodlt := Nat.mod_lt (a - start) hps
  set i := (a - start) / ps with hi
  have hin : i < n := by
    apply (Nat.div_lt_iff_lt_mul hps).mpr
    omega
  have hpage : pageOf ps a = start + i * ps := by
    unfold pageOf
    rw [hmod, Nat.mul_comm i]
    omega
  have hnodup : ((cutPages ps n start content).map (·.1)).Nodup := by
    rw [fst_cutPages]
    refine List.Nodup.map (fun x y hxy => ?_) List.nodup_range
    exact Nat.eq_of_mul_eq_mul_right hps (Nat.add_left_cancel hxy)
  have hget := get?_setAll_of_mem (cutPages ps n start content) t hnodup _
    (mem_cutPages.mpr ⟨i, hin, rfl⟩)
  simp only at hget
  rw [← hpage] at hget
  have hwhole : ps ≤ ((content.drop (i * ps)).take ps).length := by
    have hnext : (i + 1) * ps ≤ n * ps := Nat.mul_le_mul_right _ hin
    rw [Nat.succ_mul] at hnext
    rw [List.length_take, List.length_drop]
    omega
  have hgrow :
    Bytes.growTo ((content.drop (i * ps)).take ps) ps = (content.drop (i * ps)).take ps :=
    if_pos hwhole
  rw [hgrow] at hget
  rw [byte?_of_get? hget (by omega), List.getElem?_take_of_lt (by omega), List.getElem?_drop]
  congr 1
  rw [Nat.mul_comm i]
  omega

/-! ### Writing -/

/-- The page of an address is overwritten from the address on. -/
theorem byte?_set_splice (hps : 0 < ps) {content part : Bytes}
    (hcontent : t.get? (pageOf ps a) = some content) (hsize : content.length = ps)
    (hpart : a % ps + part.length ≤ ps) (q : Nat) :
    (t.set (pageOf ps a) (content.splice (a % ps) part)).byte? ps q =
      if a ≤ q ∧ q < a + part.length then part[q - a]? else t.byte? ps q := by
  have hqlt := Nat.mod_lt q hps
  have ha := pageOf_add_mod ps a
  have hq := pageOf_add_mod ps q
  by_cases hpage : pageOf ps a = pageOf ps q
  · have hget : (t.set (pageOf ps a) (content.splice (a % ps) part)).get? (pageOf ps q) =
        some (content.splice (a % ps) part) := by
      rw [get?_set, if_pos hpage]
    rw [byte?_of_get? hget (by rw [Bytes.length_splice]; omega), Bytes.getElem?_splice (by omega)]
    by_cases hin : a ≤ q ∧ q < a + part.length
    · rw [if_pos hin, if_pos (by omega)]
      congr 1
      omega
    · rw [if_neg hin, if_neg (by omega), byte?_of_get? (hpage ▸ hcontent) (by omega)]
  · have hget : (t.set (pageOf ps a) (content.splice (a % ps) part)).get? (pageOf ps q) =
        t.get? (pageOf ps q) := by
      rw [get?_set, if_neg hpage]
    have hout : ¬(a ≤ q ∧ q < a + part.length) := by
      rintro ⟨h1, h2⟩
      exact hpage (pageOf_eq (dvd_pageOf ps a) (by omega) (by omega)).symm
    rw [byte?_congr hget, if_neg hout]

/-- A write changes the bytes that are there, and brings none. -/
structure Overwritten (t t' : PageTable) (ps a : Nat) (bytes : Bytes) : Prop where
  whole : t'.Whole ps
  contains : ∀ p, t'.contains p = t.contains p
  inside : ∀ q, a ≤ q → q < a + bytes.length → t.byte? ps q ≠ none → t'.byte? ps q = bytes[q - a]?
  outside : ∀ q, q < a ∨ a + bytes.length ≤ q → t'.byte? ps q = t.byte? ps q

/-- The first page of a range is written, if it is there. -/
theorem writePage_overwritten (hps : 0 < ps) (ht : t.Whole ps) {part : Bytes}
    (hpart : a % ps + part.length ≤ ps) :
    Overwritten t (match t.get? (pageOf ps a) with
      | none => t
      | some content => t.set (pageOf ps a) (content.splice (a % ps) part)) ps a part := by
  have hpage : ∀ q, a ≤ q → q < a + part.length → pageOf ps q = pageOf ps a := by
    intro q h1 h2
    have ha := pageOf_add_mod ps a
    exact pageOf_eq (dvd_pageOf ps a) (by omega) (by omega)
  cases hget : t.get? (pageOf ps a) with
  | none =>
    refine ⟨ht, fun _ => rfl, fun q h1 h2 hthere => ?_, fun _ _ => rfl⟩
    rw [byte?_ne_none, contains_iff, hpage q h1 h2, hget] at hthere
    cases hthere
  | some content =>
    have hsize := ht _ _ hget
    refine ⟨ht.set ?_, fun p => Bool.eq_iff_iff.mpr ?_, fun q h1 h2 _ => ?_, fun q hout => ?_⟩
    · rw [Bytes.length_splice, hsize]
    · rw [contains_iff, contains_iff, get?_set]
      by_cases hp : pageOf ps a = p
      · rw [if_pos hp, ← hp, hget]
        exact Iff.rfl
      · rw [if_neg hp]
    · rw [byte?_set_splice hps hget hsize hpart, if_pos ⟨h1, h2⟩]
    · rw [byte?_set_splice hps hget hsize hpart, if_neg (by omega)]

/-- Two writes in a row are one of both. -/
theorem Overwritten.append {t'' : PageTable} {part rest : Bytes} (h : Overwritten t t' ps a part)
    (h' : Overwritten t' t'' ps (a + part.length) rest) :
    Overwritten t t'' ps a (part ++ rest) := by
  refine ⟨h'.whole, fun p => (h'.contains p).trans (h.contains p), fun q h1 h2 hthere => ?_,
    fun q hout => ?_⟩
  · rw [List.length_append] at h2
    have hthere' : t'.byte? ps q ≠ none := by
      rw [byte?_ne_none] at hthere ⊢
      rwa [h.contains]
    by_cases hlow : q < a + part.length
    · rw [h'.outside q (.inl hlow), h.inside q h1 hlow hthere, List.getElem?_append_left (by omega)]
    · rw [h'.inside q (by omega) (by omega) hthere', List.getElem?_append_right (by omega)]
      congr 1
      omega
  · rw [List.length_append] at hout
    rw [h'.outside q (by omega), h.outside q (by omega)]

/-- Pages that are not there are skipped. -/
theorem writePages_overwritten (hps : 0 < ps) :
    ∀ (n : Nat) (t : PageTable) (a : Nat) (bytes : Bytes),
    t.Whole ps → (0 < bytes.length → a % ps + bytes.length ≤ n * ps) →
    Overwritten t (t.writePages ps n a bytes).1 ps a bytes
  | 0, t, a, bytes, ht, hlen => by
    refine ⟨ht, fun _ => rfl, fun q h1 h2 _ => ?_, fun _ _ => rfl⟩
    have hnone := hlen (by omega)
    omega
  | n + 1, t, a, bytes, ht, hlen => by
    have hmod := Nat.mod_lt a hps
    have hpart : (bytes.take (ps - a % ps)).length = min (ps - a % ps) bytes.length :=
      List.length_take
    set part := bytes.take (ps - a % ps) with hpartEq
    have hrest : bytes.drop part.length = bytes.drop (ps - a % ps) := by
      rcases Nat.le_total (ps - a % ps) bytes.length with h | h
      · rw [hpart, Nat.min_eq_left h]
      · rw [hpart, Nat.min_eq_right h, List.drop_length, List.drop_eq_nil_of_le h]
    have hfirst := writePage_overwritten hps ht (show a % ps + part.length ≤ ps by omega)
    have hbound : 0 < (bytes.drop part.length).length →
        (a + part.length) % ps + (bytes.drop part.length).length ≤ n * ps := by
      intro hpos
      rw [List.length_drop] at hpos ⊢
      rcases rest_le hps (hlen (by omega)) with hend | ⟨hlong, hnext⟩
      · omega
      · rw [hpart, Nat.min_eq_left (Nat.le_of_lt hlong)]
        exact hnext
    have hstep : (t.writePages ps (n + 1) a bytes).1 =
        ((match t.get? (pageOf ps a) with
          | none => t
          | some content => t.set (pageOf ps a) (content.splice (a % ps) part)).writePages ps n
            (a + part.length) (bytes.drop part.length)).1 := by
      rw [writePages]
      cases t.get? (pageOf ps a) <;> rfl
    have hboth := hfirst.append (writePages_overwritten hps n _ (a + part.length)
      (bytes.drop part.length) hfirst.whole hbound)
    rw [← hstep, hrest, List.take_append_drop] at hboth
    exact hboth

/-- **Written bytes are there if their pages were.** -/
theorem write_overwritten (hps : 0 < ps) (ht : t.Whole ps) (a : Nat) (bytes : Bytes) :
    Overwritten t (t.write ps a bytes).1 ps a bytes :=
  writePages_overwritten hps _ t a bytes ht fun _ => le_ceiling _ hps

end PageTable
end DemandPager
