/-
# Disjoint intervals, exactly

A map that is `Sound` holds its intervals in order and disjoint, none of them empty
and all of them within the words. Looking at the neighbours is then enough: the
interval that is found for an address is the one that contains it
(`IntervalMap.find?_eq_some`), and an interval is taken in exactly if it meets none
(`IntervalMap.insert_eq_ok`).

Key definitions: `Interval.Holds`, `Interval.Apart`, `IntervalMap.Sound`.
Key theorems: `IntervalMap.find?_eq_some`, `IntervalMap.insert_eq_ok`,
`IntervalMap.sound_insert`, `IntervalMap.remove_eq_ok`.
-/
import Mathlib.Data.List.Pairwise
import Mathlib.Data.List.TakeWhile
import DemandPager.IntervalMap

namespace DemandPager

variable {α : Type}

/-- The address lies in the interval. -/
def Interval.Holds (e : Interval α) (address : Nat) : Prop :=
  e.start ≤ address ∧ address < e.start + e.len

/-- The interval and the range do not meet. -/
def Interval.Apart (e : Interval α) (start len : Nat) : Prop :=
  e.start + e.len ≤ start ∨ start + len ≤ e.start

/-- No address lies in an interval and in a range that does not meet it. -/
theorem Interval.Apart.not_within {e : Interval α} {start len address : Nat}
    (h : e.Apart start len) (hin : e.Holds address) :
    ¬(start ≤ address ∧ address < start + len) := by
  unfold Apart at h
  unfold Holds at hin
  omega

namespace IntervalMap

/-- The intervals are in order and disjoint, not empty, and within the words. -/
structure Sound (m : IntervalMap α) : Prop where
  ordered : m.toList.Pairwise fun a b => a.start + a.len ≤ b.start
  len_pos : ∀ e ∈ m.toList, 0 < e.len
  end_lt : ∀ e ∈ m.toList, e.start + e.len < wordBound

theorem sound_empty : (empty : IntervalMap α).Sound :=
  ⟨List.Pairwise.nil, fun _ he => absurd he List.not_mem_nil,
    fun _ he => absurd he List.not_mem_nil⟩

variable {m m' : IntervalMap α} {start len address : Nat} {value : α}

theorem upTo_append_beyond (m : IntervalMap α) (address : Nat) :
    m.upTo address ++ m.beyond address = m.toList := List.takeWhile_append_dropWhile

theorem mem_upTo {e : Interval α} (h : e ∈ m.upTo address) : e ∈ m.toList ∧ e.start ≤ address := by
  refine ⟨(List.takeWhile_prefix _).subset h, ?_⟩
  have hp := List.mem_takeWhile_imp h
  simpa using hp

theorem mem_beyond (hm : m.Sound) {e : Interval α} (h : e ∈ m.beyond address) :
    e ∈ m.toList ∧ address < e.start := by
  refine ⟨(List.dropWhile_suffix _).subset h, ?_⟩
  cases hb : m.beyond address with
  | nil => rw [hb] at h; cases h
  | cons x rest =>
    have hx : ¬ x.start ≤ address := by
      have hhead :=
        List.head?_dropWhile_not (fun e : Interval α => decide (e.start ≤ address)) m.toList
      unfold beyond at hb
      rw [hb] at hhead
      simpa using hhead
    have hord : (x :: rest).Pairwise fun a b => a.start + a.len ≤ b.start := by
      rw [← hb]
      exact hm.ordered.sublist (List.dropWhile_sublist _)
    rw [hb] at h
    rcases List.mem_cons.mp h with rfl | hrest
    · omega
    · have := (List.pairwise_cons.mp hord).1 e hrest
      omega

theorem mem_iff (m : IntervalMap α) (address : Nat) (e : Interval α) :
    e ∈ m.toList ↔ e ∈ m.upTo address ∨ e ∈ m.beyond address := by
  rw [← m.upTo_append_beyond address, List.mem_append]

/-- Two intervals of the map do not meet. -/
theorem Sound.apart (hm : m.Sound) {a b : Interval α} (ha : a ∈ m.toList) (hb : b ∈ m.toList)
    (hne : a ≠ b) : a.Apart b.start b.len := by
  have hsymm : Std.Symm fun a b : Interval α => a.Apart b.start b.len := ⟨fun _ _ => Or.symm⟩
  have hpair : m.toList.Pairwise fun a b => a.Apart b.start b.len := hm.ordered.imp .inl
  exact hpair.forall ha hb hne

/-- Two intervals of the map that share an address are the same. -/
theorem Sound.eq_of_holds (hm : m.Sound) {a b : Interval α} (ha : a ∈ m.toList)
    (hb : b ∈ m.toList) (h : a.Holds address) (h' : b.Holds address) : a = b := by
  by_contra hne
  unfold Interval.Holds at h h'
  rcases hm.apart ha hb hne with h1 | h1 <;> omega

theorem Sound.holds_start (hm : m.Sound) {e : Interval α} (he : e ∈ m.toList) : e.Holds e.start :=
  ⟨Nat.le_refl _, Nat.lt_add_of_pos_right (hm.len_pos e he)⟩

/-- The last interval up to an address is above all others up to it. -/
theorem floor?_max (hm : m.Sound) {e x : Interval α} (he : m.floor? address = some e)
    (hx : x ∈ m.upTo address) : x = e ∨ x.start + x.len ≤ e.start := by
  obtain ⟨front, hfront⟩ := List.getLast?_eq_some_iff.mp he
  have hord : (front ++ [e]).Pairwise fun a b => a.start + a.len ≤ b.start := by
    rw [← hfront]
    exact hm.ordered.sublist (List.takeWhile_sublist _)
  rw [hfront, List.mem_append, List.mem_singleton] at hx
  rcases hx with hx | rfl
  · exact .inr ((List.pairwise_append.mp hord).2.2 x hx e (List.mem_singleton.mpr rfl))
  · exact .inl rfl

/-- **What is found for an address is the interval that contains it.** -/
theorem find?_eq_some (hm : m.Sound) {e : Interval α} :
    m.find? address = some e ↔ e ∈ m.toList ∧ e.Holds address := by
  unfold find?
  rw [Option.filter_eq_some_iff]
  unfold Interval.reaches Interval.Holds
  simp only [decide_eq_true_eq]
  constructor
  · rintro ⟨hfloor, hreach⟩
    obtain ⟨hmem, hle⟩ := mem_upTo (List.mem_of_getLast? hfloor)
    exact ⟨hmem, hle, by omega⟩
  · rintro ⟨hmem, hle, hlt⟩
    refine ⟨?_, by omega⟩
    have hup : e ∈ m.upTo address := by
      refine ((mem_iff m address e).mp hmem).resolve_right fun hb => ?_
      have := (mem_beyond hm hb).2
      omega
    cases hf : m.floor? address with
    | none => rw [List.getLast?_eq_none_iff.mp hf] at hup; cases hup
    | some x =>
      obtain ⟨hx, hxle⟩ := mem_upTo (List.mem_of_getLast? hf)
      rcases floor?_max hm hf hup with rfl | hbelow
      · rfl
      · omega

theorem find?_eq_none (hm : m.Sound) :
    m.find? address = none ↔ ∀ e ∈ m.toList, ¬e.Holds address := by
  constructor
  · intro h e he hh
    rw [(find?_eq_some hm).mpr ⟨he, hh⟩] at h
    cases h
  · intro h
    by_contra hne
    obtain ⟨e, he⟩ := Option.ne_none_iff_exists'.mp hne
    obtain ⟨hmem, hh⟩ := (find?_eq_some hm).mp he
    exact h e hmem hh

/-! ### Taking in and taking away -/

/-- The lower neighbour stands for all intervals that begin at or before a range. -/
theorem floor?_apart (hm : m.Sound) :
    (m.floor? start).any (fun e => start < e.start + e.len) = false ↔
      ∀ e ∈ m.upTo start, e.start + e.len ≤ start := by
  cases hf : m.floor? start with
  | none =>
    rw [List.getLast?_eq_none_iff.mp hf]
    simp
  | some x =>
    simp only [Option.any_some, decide_eq_false_iff_not, Nat.not_lt]
    constructor
    · intro hx e he
      rcases floor?_max hm hf he with rfl | hbelow
      · exact hx
      · have := hm.len_pos x (mem_upTo (List.mem_of_getLast? hf)).1
        omega
    · exact fun h => h x (List.mem_of_getLast? hf)

/-- The upper neighbour stands for all intervals that begin after the start of a
range. -/
theorem head?_apart (hm : m.Sound) :
    ((m.beyond start).head?).any (fun e => e.start < start + len) = false ↔
      ∀ e ∈ m.beyond start, start + len ≤ e.start := by
  have hord : (m.beyond start).Pairwise fun a b => a.start + a.len ≤ b.start :=
    hm.ordered.sublist (List.dropWhile_sublist _)
  cases hb : m.beyond start with
  | nil => simp
  | cons x rest =>
    rw [hb] at hord
    simp only [List.head?_cons, Option.any_some, decide_eq_false_iff_not, Nat.not_lt]
    constructor
    · intro hx e he
      rcases List.mem_cons.mp he with rfl | hrest
      · exact hx
      · have := (List.pairwise_cons.mp hord).1 e hrest
        omega
    · exact fun h => h x (List.mem_cons_self ..)

/-- **An interval is taken in exactly if it is not empty, stays within the words and
meets none of the others.** -/
theorem insert_eq_ok (hm : m.Sound) :
    m.insert start len value = .ok m' ↔
      0 < len ∧ start + len < wordBound ∧ (∀ e ∈ m.toList, e.Apart start len) ∧
        m' = ⟨m.upTo start ++ { start, len, value } :: m.beyond start⟩ := by
  have hapart : 0 < len → ((∀ e ∈ m.toList, e.Apart start len) ↔
      (∀ e ∈ m.upTo start, e.start + e.len ≤ start) ∧
        ∀ e ∈ m.beyond start, start + len ≤ e.start) := by
    intro hlen
    constructor
    · refine fun h => ⟨fun e he => ?_, fun e he => ?_⟩
      · obtain ⟨hmem, hle⟩ := mem_upTo he
        rcases h e hmem with h1 | h1
        · exact h1
        · omega
      · obtain ⟨hmem, hlt⟩ := mem_beyond hm he
        rcases h e hmem with h1 | h1
        · omega
        · exact h1
    · rintro ⟨h1, h2⟩ e he
      exact ((mem_iff m start e).mp he).imp (h1 e) (h2 e)
  unfold insert
  split
  · rename_i h0
    exact ⟨fun h => (by cases h), fun h => absurd h0 (Nat.ne_of_gt h.1)⟩
  · rename_i h0
    have hlen := Nat.pos_of_ne_zero h0
    rw [hapart hlen, ← floor?_apart hm, ← head?_apart hm]
    split
    · rename_i h1
      exact ⟨fun h => (by cases h), fun h => absurd h.2.1 (Nat.not_lt.mpr h1)⟩
    · rename_i h1
      split
      · rename_i h2
        simp [h2]
      · rename_i h2
        split
        · rename_i h3
          simp [h3]
        · rename_i h3
          simp only [Except.ok.injEq, hlen, Nat.lt_of_not_le h1, true_and,
            Bool.eq_false_iff.mpr h2, Bool.eq_false_iff.mpr h3, and_self]
          exact eq_comm

theorem mem_insert (hm : m.Sound) (h : m.insert start len value = .ok m') {e : Interval α} :
    e ∈ m'.toList ↔ e = { start, len, value } ∨ e ∈ m.toList := by
  obtain ⟨-, -, -, rfl⟩ := (insert_eq_ok hm).mp h
  rw [mem_iff m start e]
  simp only [List.mem_append, List.mem_cons]
  exact or_left_comm

theorem sound_insert (hm : m.Sound) (h : m.insert start len value = .ok m') : m'.Sound := by
  obtain ⟨hlen, hend, hapart, hm'⟩ := (insert_eq_ok hm).mp h
  refine ⟨?_, fun e he => ?_, fun e he => ?_⟩
  · subst hm'
    have hord := hm.ordered
    rw [← m.upTo_append_beyond start, List.pairwise_append] at hord
    obtain ⟨hup, hbe, hcross⟩ := hord
    refine List.pairwise_append.mpr ⟨hup, List.pairwise_cons.mpr ⟨fun e he => ?_, hbe⟩, ?_⟩
    · obtain ⟨hmem, hlt⟩ := mem_beyond hm he
      rcases hapart e hmem with h1 | h1
      · omega
      · exact h1
    · intro a ha b hb
      rcases List.mem_cons.mp hb with rfl | hb
      · obtain ⟨hmem, hle⟩ := mem_upTo ha
        rcases hapart a hmem with h1 | h1
        · exact h1
        · show a.start + a.len ≤ start
          omega
      · exact hcross a ha b hb
  · rcases (mem_insert hm h).mp he with rfl | he
    · exact hlen
    · exact hm.len_pos e he
  · rcases (mem_insert hm h).mp he with rfl | he
    · exact hend
    · exact hm.end_lt e he

/-- What is taken away is the interval that begins at the start, and nothing else. -/
theorem remove_eq_ok (hm : m.Sound) (h : m.remove start = .ok (value, m')) :
    ∃ e ∈ m.toList, e.start = start ∧ e.value = value ∧
      ∀ x, x ∈ m'.toList ↔ x ∈ m.toList ∧ x ≠ e := by
  unfold remove at h
  split at h
  · cases h
  · rename_i e hfind
    cases h
    have hmem := List.mem_of_find?_eq_some hfind
    have hstart : e.start = start := by simpa using List.find?_some hfind
    refine ⟨e, hmem, hstart, rfl, fun x => ?_⟩
    simp only [List.mem_filter, decide_eq_true_eq, ne_eq]
    refine and_congr_right fun hx => not_congr ⟨fun hs => ?_, fun hs => hs ▸ hstart⟩
    have hh := hm.holds_start hx
    rw [hs, ← hstart] at hh
    exact hm.eq_of_holds hx hmem hh (hm.holds_start hmem)

theorem remove_of_mem (hm : m.Sound) {e : Interval α} (he : e ∈ m.toList) :
    ∃ m', m.remove e.start = .ok (e.value, m') := by
  unfold remove
  split
  · rename_i hnone
    have := List.find?_eq_none.mp hnone e he
    simp at this
  · rename_i x hfind
    have hmem := List.mem_of_find?_eq_some hfind
    have hstart : x.start = e.start := by simpa using List.find?_some hfind
    have hh := hm.holds_start hmem
    rw [hstart] at hh
    rw [hm.eq_of_holds hmem he hh (hm.holds_start he)]
    exact ⟨_, rfl⟩

theorem toList_remove (h : m.remove start = .ok (value, m')) :
    m'.toList = m.toList.filter (·.start ≠ start) := by
  unfold remove at h
  split at h
  · cases h
  · cases h
    rfl

theorem sound_remove (hm : m.Sound) (h : m.remove start = .ok (value, m')) : m'.Sound := by
  unfold remove at h
  split at h
  · cases h
  · cases h
    refine ⟨hm.ordered.sublist List.filter_sublist, fun e he => ?_, fun e he => ?_⟩
    · exact hm.len_pos e ((List.mem_filter.mp he).1)
    · exact hm.end_lt e ((List.mem_filter.mp he).1)

theorem Sound.starts_ne (h : m.Sound) :
    m.toList.Pairwise fun a b => a.start ≠ b.start := by
  refine h.ordered.imp_of_mem fun ha _ hle heq => ?_
  have hpos := h.len_pos _ ha
  omega

theorem Sound.eq_of_start (h : m.Sound) {a b : Interval α}
    (ha : a ∈ m.toList) (hb : b ∈ m.toList) (heq : a.start = b.start) : a = b := by
  have ha' := h.holds_start ha
  rw [heq] at ha'
  exact h.eq_of_holds ha hb ha' (h.holds_start hb)

end IntervalMap

/-- An interval and those that begin elsewhere are all. -/
theorem perm_of_mem {e : Interval α} : ∀ {l : List (Interval α)},
    (l.Pairwise fun a b => a.start ≠ b.start) → e ∈ l →
    (e :: l.filter (·.start ≠ e.start)).Perm l
  | x :: l, hl, he => by
    obtain ⟨hx, hl⟩ := List.pairwise_cons.mp hl
    rcases List.mem_cons.mp he with rfl | he
    · have hall : l.filter (·.start ≠ e.start) = l :=
        List.filter_eq_self.mpr fun y hy => decide_eq_true (hx y hy).symm
      rw [List.filter_cons_of_neg (by simp), hall]
    · rw [List.filter_cons, if_pos (decide_eq_true (hx e he))]
      exact (List.Perm.swap ..).trans ((perm_of_mem hl he).cons x)

end DemandPager
