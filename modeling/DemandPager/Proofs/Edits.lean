/-
# Intervals through their history

A map of disjoint intervals is edited: intervals are taken in, their values are changed,
and they are taken away. Each edit looks at the neighbours of an address only. A plain
list of intervals can be edited in the same way by looking at all of them, and a map
`StandsFor` such a list if it is sound and holds the same intervals. Edits keep this
(`IntervalMap.StandsFor.edit`), so after any history the neighbours decide as all
intervals would (`IntervalMap.edits_exact`).

Key definitions: `Edit`, `IntervalMap.edit`, `Admits`, `Edit.plain`,
`IntervalMap.StandsFor`.
Key theorems: `IntervalMap.insert_ok_iff`, `IntervalMap.modify_eq_ok`,
`IntervalMap.StandsFor.edit`, `IntervalMap.edits_exact`.
-/
import DemandPager.Proofs.Intervals

namespace DemandPager

variable {α : Type}

instance (e : Interval α) (address : Nat) : Decidable (e.Holds address) :=
  inferInstanceAs (Decidable (_ ∧ _))

instance (e : Interval α) (start len : Nat) : Decidable (e.Apart start len) :=
  inferInstanceAs (Decidable (_ ∨ _))

/-- An edit of a collection of intervals. -/
inductive Edit (α : Type)
  | insert (start len : Nat) (value : α)
  /-- The value of the interval that contains an address is changed. -/
  | modify (address : Nat) (f : α → α)
  /-- The interval that begins exactly at an address goes. -/
  | remove (start : Nat)
  | clear
  | drain

/-- The map after an edit; one that is refused changes nothing. -/
def IntervalMap.edit (m : IntervalMap α) : Edit α → IntervalMap α
  | .insert start len value => (m.insert start len value).toOption.getD m
  | .modify address f => (m.modify address f).toOption.getD m
  | .remove start => (m.remove start).toOption.elim m (·.2)
  | .clear => m.clear
  | .drain => m.drain.2

/-- A range may be taken in beside the intervals of a list: it is not empty, stays within
the words, and meets none of them. -/
def Admits (l : List (Interval α)) (start len : Nat) : Prop :=
  0 < len ∧ start + len < wordBound ∧ ∀ e ∈ l, e.Apart start len

instance (l : List (Interval α)) (start len : Nat) : Decidable (Admits l start len) :=
  inferInstanceAs (Decidable (_ ∧ _ ∧ _))

/-- The interval after the value of the one that contains an address was changed. -/
def Interval.modified (address : Nat) (f : α → α) (e : Interval α) : Interval α :=
  if e.Holds address then { e with value := f e.value } else e

/-- A plain list of intervals after an edit that looks at all of them. -/
def Edit.plain (l : List (Interval α)) : Edit α → List (Interval α)
  | .insert start len value => if Admits l start len then { start, len, value } :: l else l
  | .modify address f => l.map (·.modified address f)
  | .remove start => l.filter (·.start ≠ start)
  | .clear | .drain => []

theorem Admits.perm {l l' : List (Interval α)} (h : l.Perm l') {start len : Nat} :
    Admits l start len ↔ Admits l' start len := by
  unfold Admits
  simp only [h.mem_iff]

namespace Interval

variable {address : Nat} {f : α → α} {e : Interval α}

theorem start_modified : (e.modified address f).start = e.start := by
  unfold modified
  split <;> rfl

theorem len_modified : (e.modified address f).len = e.len := by
  unfold modified
  split <;> rfl

theorem modified_of_not_holds (h : ¬e.Holds address) : e.modified address f = e := if_neg h

end Interval

namespace IntervalMap

variable {m m' : IntervalMap α} {start len address : Nat} {value : α} {f : α → α}

/-! ### What an edit decides -/

/-- **The neighbours of a range decide whether it is taken in.** -/
theorem insert_ok_iff (hm : m.Sound) :
    (∃ m', m.insert start len value = .ok m') ↔ Admits m.toList start len := by
  constructor
  · rintro ⟨m', h⟩
    obtain ⟨hlen, hend, hapart, -⟩ := (insert_eq_ok hm).mp h
    exact ⟨hlen, hend, hapart⟩
  · rintro ⟨hlen, hend, hapart⟩
    exact ⟨_, (insert_eq_ok hm).mpr ⟨hlen, hend, hapart, rfl⟩⟩

/-- A refusal to take a range in tells an empty range from any other. -/
theorem insert_eq_error {cause : PagerError} (h : m.insert start len value = .error cause) :
    cause = if len = 0 then .invalidConfig "empty address interval" else .overlap start len := by
  unfold insert at h
  split at h
  · rename_i hlen
    cases h
    rw [if_pos hlen]
  · rename_i hlen
    rw [if_neg hlen]
    repeat' split at h
    all_goals first | (cases h; rfl) | cases h

theorem perm_insert (hm : m.Sound) (h : m.insert start len value = .ok m') :
    m'.toList.Perm ({ start, len, value } :: m.toList) := by
  obtain ⟨-, -, -, rfl⟩ := (insert_eq_ok hm).mp h
  have hmiddle : (m.upTo start ++ { start, len, value } :: m.beyond start).Perm
      ({ start, len, value } :: (m.upTo start ++ m.beyond start)) := List.perm_middle
  rwa [m.upTo_append_beyond start] at hmiddle

/-- **The value that is changed is that of the interval that contains the address.** -/
theorem modify_eq_ok (hm : m.Sound) :
    m.modify address f = .ok m' ↔
      (∃ e ∈ m.toList, e.Holds address) ∧ m' = ⟨m.toList.map (·.modified address f)⟩ := by
  unfold modify
  cases hfind : m.find? address with
  | none =>
    have hnone := (find?_eq_none hm).mp hfind
    refine ⟨fun h => (by cases h), ?_⟩
    rintro ⟨⟨e, he, hholds⟩, -⟩
    exact absurd hholds (hnone e he)
  | some found =>
    obtain ⟨hmem, hholds⟩ := (find?_eq_some hm).mp hfind
    -- an interval that begins where the one that was found does is that one
    have hsame :
      m.toList.map (fun e => if e.start = found.start then { e with value := f e.value } else e) =
        m.toList.map (·.modified address f) := by
      refine List.map_congr_left fun e he => ?_
      unfold Interval.modified
      refine if_congr ⟨fun heq => ?_, fun he' => ?_⟩ rfl rfl
      · have hstart := hm.holds_start he
        rw [heq] at hstart
        rwa [hm.eq_of_holds he hmem hstart (hm.holds_start hmem)]
      · rw [hm.eq_of_holds he hmem he' hholds]
    simp only [hsame, Except.ok.injEq]
    exact ⟨fun h => ⟨⟨found, hmem, hholds⟩, h.symm⟩, fun h => h.2.symm⟩

theorem modify_eq_error {cause : PagerError} (h : m.modify address f = .error cause) :
    cause = .unknownAddress address := by
  unfold modify at h
  split at h
  · cases h
    rfl
  · cases h

theorem sound_map {β : Type} {g : Interval α → Interval β} (hm : m.Sound)
    (hstart : ∀ e, (g e).start = e.start) (hlen : ∀ e, (g e).len = e.len) :
    (IntervalMap.mk (m.toList.map g)).Sound := by
  refine ⟨List.pairwise_map.mpr ?_, fun e he => ?_, fun e he => ?_⟩
  · simp only [hstart, hlen]
    exact hm.ordered
  · obtain ⟨x, hx, rfl⟩ := List.mem_map.mp he
    rw [hlen]
    exact hm.len_pos x hx
  · obtain ⟨x, hx, rfl⟩ := List.mem_map.mp he
    rw [hstart, hlen]
    exact hm.end_lt x hx

theorem remove_ok_iff (hm : m.Sound) :
    (∃ answer, m.remove start = .ok answer) ↔ ∃ e ∈ m.toList, e.start = start := by
  constructor
  · rintro ⟨⟨value, m'⟩, h⟩
    obtain ⟨e, he, hstart, -⟩ := remove_eq_ok hm h
    exact ⟨e, he, hstart⟩
  · rintro ⟨e, he, rfl⟩
    obtain ⟨m', h⟩ := remove_of_mem hm he
    exact ⟨_, h⟩

theorem remove_eq_error {cause : PagerError} (h : m.remove start = .error cause) :
    cause = .unknownAddress start := by
  unfold remove at h
  split at h
  · cases h
    rfl
  · cases h

/-! ### Histories -/

/-- The map is sound and holds the intervals of the list. -/
structure StandsFor (m : IntervalMap α) (l : List (Interval α)) : Prop where
  sound : m.Sound
  perm : m.toList.Perm l

variable {l : List (Interval α)}

theorem standsFor_empty : (empty : IntervalMap α).StandsFor [] := ⟨sound_empty, .refl _⟩

theorem StandsFor.insert (h : m.StandsFor l) :
    (m.edit (.insert start len value)).StandsFor (Edit.plain l (.insert start len value)) := by
  have hplain : Admits m.toList start len ↔ Admits l start len := Admits.perm h.perm
  simp only [IntervalMap.edit, Edit.plain]
  cases hinsert : m.insert start len value with
  | ok m' =>
    rw [if_pos (hplain.mp ((insert_ok_iff h.sound).mp ⟨m', hinsert⟩))]
    exact ⟨sound_insert h.sound hinsert, (perm_insert h.sound hinsert).trans (h.perm.cons _)⟩
  | error cause =>
    have hrefused : ¬Admits l start len := by
      intro hadmits
      have haccepted : ∃ m', m.insert start len value = .ok m' :=
        (insert_ok_iff h.sound).mpr (hplain.mpr hadmits)
      obtain ⟨m', hok⟩ := haccepted
      rw [hinsert] at hok
      cases hok
    rw [if_neg hrefused]
    exact h

theorem StandsFor.modify (h : m.StandsFor l) :
    (m.edit (.modify address f)).StandsFor (Edit.plain l (.modify address f)) := by
  simp only [IntervalMap.edit, Edit.plain]
  cases hmodify : m.modify address f with
  | ok m' =>
    obtain ⟨-, rfl⟩ := (modify_eq_ok h.sound).mp hmodify
    exact ⟨sound_map (g := (·.modified address f)) h.sound (fun _ => Interval.start_modified)
      fun _ => Interval.len_modified, h.perm.map _⟩
  | error cause =>
    have hnone : ∀ e ∈ l, ¬e.Holds address := by
      intro e he hholds
      have hok := (modify_eq_ok (f := f) h.sound).mpr ⟨⟨e, h.perm.mem_iff.mpr he, hholds⟩, rfl⟩
      rw [hmodify] at hok
      cases hok
    have hsame : l.map (·.modified address f) = l :=
      (List.map_congr_left fun e he => Interval.modified_of_not_holds (hnone e he)).trans l.map_id
    rw [hsame]
    exact h

theorem StandsFor.remove (h : m.StandsFor l) :
    (m.edit (.remove start)).StandsFor (Edit.plain l (.remove start)) := by
  simp only [IntervalMap.edit, Edit.plain]
  cases hremove : m.remove start with
  | ok answer =>
    obtain ⟨value, m'⟩ := answer
    refine ⟨sound_remove h.sound hremove, ?_⟩
    show m'.toList.Perm _
    rw [toList_remove hremove]
    exact h.perm.filter _
  | error cause =>
    have hnone : ∀ e ∈ l, decide (e.start ≠ start) = true := by
      intro e he
      refine decide_eq_true fun hstart => ?_
      obtain ⟨answer, hok⟩ := (remove_ok_iff h.sound).mpr ⟨e, h.perm.mem_iff.mpr he, hstart⟩
      rw [hremove] at hok
      cases hok
    rw [List.filter_eq_self.mpr hnone]
    exact h

/-- **An edit of the map is the edit of the list that it stands for.** -/
theorem StandsFor.edit (h : m.StandsFor l) (x : Edit α) : (m.edit x).StandsFor (x.plain l) := by
  cases x with
  | insert start len value => exact h.insert
  | modify address f => exact h.modify
  | remove start => exact h.remove
  | clear => exact standsFor_empty
  | drain => exact standsFor_empty

theorem StandsFor.edits (xs : List (Edit α)) :
    ∀ {m : IntervalMap α} {l : List (Interval α)}, m.StandsFor l →
      (xs.foldl IntervalMap.edit m).StandsFor (xs.foldl Edit.plain l) := by
  induction xs with
  | nil => exact fun h => h
  | cons x xs ih => exact fun h => ih (h.edit x)

/-- **After any history the neighbours decide as all intervals would.** The intervals are
those that a plain list of them would have; they are in order and disjoint, not empty, and
end within the words. A range is taken in exactly if it is not empty, stays within the words
and meets none of them; else nothing changes. What is found for an address is the interval
that contains it, and its value is the one that is changed. Only an interval that begins
exactly at an address is removed there, and no other with it. -/
theorem edits_exact (xs : List (Edit α)) :
    let m := xs.foldl edit empty
    m.toList.Perm (xs.foldl Edit.plain []) ∧
    (m.toList.Pairwise fun a b => a.start + a.len ≤ b.start) ∧
    (∀ e ∈ m.toList, 0 < e.len ∧ e.start + e.len < wordBound) ∧
    (∀ start len value,
      ((∃ m', m.insert start len value = .ok m') ↔ Admits m.toList start len) ∧
      (∀ m', m.insert start len value = .ok m' →
        m'.toList.Perm ({ start, len, value } :: m.toList)) ∧
      ∀ cause, m.insert start len value = .error cause →
        m.edit (.insert start len value) = m ∧
        cause = if len = 0 then .invalidConfig "empty address interval" else .overlap start len) ∧
    (∀ address e, m.find? address = some e ↔ e ∈ m.toList ∧ e.Holds address) ∧
    (∀ address f,
      (∀ m', m.modify address f = .ok m' ↔
        (∃ e, m.find? address = some e) ∧ m' = ⟨m.toList.map (·.modified address f)⟩) ∧
      ∀ cause, m.modify address f = .error cause →
        m.find? address = none ∧ cause = .unknownAddress address) ∧
    ∀ start,
      ((∃ answer, m.remove start = .ok answer) ↔ ∃ e ∈ m.toList, e.start = start) ∧
      (∀ value m', m.remove start = .ok (value, m') →
        ∃ e ∈ m.toList, e.start = start ∧ e.value = value ∧
          ∀ x, x ∈ m'.toList ↔ x ∈ m.toList ∧ x ≠ e) ∧
      ∀ cause, m.remove start = .error cause → cause = .unknownAddress start := by
  intro m
  obtain ⟨hm, hperm⟩ : m.StandsFor (xs.foldl Edit.plain []) := standsFor_empty.edits xs
  have hfound : ∀ address, (∃ e, m.find? address = some e) ↔ ∃ e ∈ m.toList, e.Holds address :=
    fun address => exists_congr fun e => find?_eq_some hm
  refine ⟨hperm, hm.ordered, fun e he => ⟨hm.len_pos e he, hm.end_lt e he⟩, ?_,
    fun address e => find?_eq_some hm, ?_, ?_⟩
  · intro start len value
    refine ⟨insert_ok_iff hm, fun m' => perm_insert hm,
      fun cause herr => ⟨?_, insert_eq_error herr⟩⟩
    simp only [edit, herr]
    rfl
  · intro address f
    refine ⟨fun m' => ?_, fun cause herr => ⟨?_, modify_eq_error herr⟩⟩
    · rw [hfound]
      exact modify_eq_ok hm
    · refine (find?_eq_none hm).mpr fun e he hholds => ?_
      have hok := (modify_eq_ok (f := f) hm).mpr ⟨⟨e, he, hholds⟩, rfl⟩
      rw [herr] at hok
      cases hok
  · intro start
    exact ⟨remove_ok_iff hm, fun value m' => remove_eq_ok hm, fun cause => remove_eq_error⟩

end IntervalMap
end DemandPager
