/-
# The eviction ring is a queue

A ring that is `Sound` has its records in the slots from `head` on, around the end
of the buffer, and in no others. Then `Ring.toList` is a queue: pushing appends a
record (`Ring.push_spec`), popping takes the first (`Ring.pop_spec`), and an update
in place goes over the whole queue in order (`Ring.visit_spec`).

The bytes of the records are added up exactly as long as the sum is a word
(`Ring.liveBytes_eq`), and retiring an owner takes its share away
(`Ring.retireOwner_spec`).

Key definitions: `Ring.Sound`, `Ring.updateAll`, `Ring.bytesOf`, `Ring.liveSum`.
Key theorems: `Ring.push_spec`, `Ring.pop_spec`, `Ring.visit_spec`,
`Ring.retireOwner_spec`, `Ring.liveBytes_eq`.
-/
import Mathlib.Data.List.Nodup
import Mathlib.Data.Nat.ModEq
import DemandPager.Proofs.Rounding
import DemandPager.Ring

namespace DemandPager
namespace Ring

/-- Exactly the slots from `head` on, as many as the length says, hold records. -/
structure Sound (r : Ring) : Prop where
  head_lt : r.head < r.capacity
  length_le : r.length ≤ r.capacity
  isSome_iff : ∀ i < r.capacity, (r.slotAt i).isSome ↔ i < r.length

/-- Places that differ by less than the capacity lie in different slots. -/
theorem place_inj {capacity head i j : Nat} (hi : i < capacity) (hj : j < capacity)
    (h : (head + i) % capacity = (head + j) % capacity) : i = j := by
  have hmod : i ≡ j [MOD capacity] := Nat.ModEq.add_left_cancel' head h
  unfold Nat.ModEq at hmod
  rwa [Nat.mod_eq_of_lt hi, Nat.mod_eq_of_lt hj] at hmod

theorem sound_ofCapacity (n : Nat) : (ofCapacity n).Sound := by
  have hcap : (ofCapacity n).capacity = max n 1 := by simp [ofCapacity, capacity]
  refine ⟨by rw [hcap]; exact Nat.lt_of_lt_of_le Nat.one_pos (Nat.le_max_right ..),
    Nat.zero_le _, fun i _ => ?_⟩
  have hnone : (ofCapacity n).slotAt i = none := by
    unfold slotAt ofCapacity
    simp only [Array.getD_eq_getD_getElem?, Array.getElem?_replicate]
    split <;> rfl
  rw [hnone]
  exact ⟨fun h => (by cases h), fun h => by cases h⟩

variable {r : Ring}

theorem capacity_pos (hr : r.Sound) : 0 < r.capacity :=
  Nat.lt_of_le_of_lt (Nat.zero_le _) hr.head_lt

theorem toList_eq_map (hr : r.Sound) :
    r.toList = (List.range r.length).map fun i => (r.slotAt i).getD default := by
  refine List.filterMap_eq_map_iff_forall_eq_some.mpr fun i hi => ?_
  rw [List.mem_range] at hi
  have hsome := (hr.isSome_iff i (Nat.lt_of_lt_of_le hi hr.length_le)).mpr hi
  obtain ⟨record, hrec⟩ := Option.isSome_iff_exists.mp hsome
  rw [hrec]
  rfl

@[simp] theorem length_toList (hr : r.Sound) : r.toList.length = r.length := by
  rw [toList_eq_map hr, List.length_map, List.length_range]

theorem toList_eq_nil (hr : r.Sound) : r.toList = [] ↔ r.length = 0 := by
  rw [← List.length_eq_zero_iff, length_toList hr]

theorem toList_ofCapacity (n : Nat) : (ofCapacity n).toList = [] :=
  (toList_eq_nil (sound_ofCapacity n)).mpr rfl

/-- Two rings with the same records in the same places are the same queue. -/
theorem toList_congr {s : Ring} (hr : r.Sound) (hs : s.Sound) (hlen : s.length = r.length)
    (h : ∀ i < r.length, s.slotAt i = r.slotAt i) : s.toList = r.toList := by
  rw [toList_eq_map hr, toList_eq_map hs, hlen]
  refine List.map_congr_left fun i hi => ?_
  rw [h i (List.mem_range.mp hi)]

/-! ### Pushing -/

theorem slotAt_place (hr : r.Sound) (hlt : r.length < r.capacity) (record : ChunkRecord) {i : Nat}
    (hi : i < r.capacity) :
    (r.place record).slotAt i = if i = r.length then some record else r.slotAt i := by
  have hcap : (r.place record).capacity = r.capacity := Array.size_setIfInBounds
  have hslot : (r.head + r.length) % r.capacity < r.slots.size := Nat.mod_lt _ (capacity_pos hr)
  unfold slotAt
  rw [hcap]
  simp only [place, Array.getD_eq_getD_getElem?]
  by_cases h : i = r.length
  · rw [if_pos h, h, Array.getElem?_setIfInBounds_self_of_lt hslot]
    rfl
  · rw [if_neg h, Array.getElem?_setIfInBounds_ne fun he => h (place_inj hi hlt he.symm)]

theorem sound_place (hr : r.Sound) (hlt : r.length < r.capacity) (record : ChunkRecord) :
    (r.place record).Sound := by
  have hcap : (r.place record).capacity = r.capacity := Array.size_setIfInBounds
  refine ⟨hcap ▸ hr.head_lt, hcap ▸ hlt, fun i hi => ?_⟩
  rw [hcap] at hi
  rw [slotAt_place hr hlt record hi]
  show _ ↔ i < r.length + 1
  split
  · rename_i h
    simp [h]
  · rename_i h
    rw [hr.isSome_iff i hi]
    omega

theorem toList_place (hr : r.Sound) (hlt : r.length < r.capacity) (record : ChunkRecord) :
    (r.place record).toList = r.toList ++ [record] := by
  rw [toList_eq_map (sound_place hr hlt record), toList_eq_map hr]
  show (List.range (r.length + 1)).map _ = _
  rw [List.range_succ, List.map_append, List.map_singleton,
    slotAt_place hr hlt record hlt, if_pos rfl]
  congr 1
  refine List.map_congr_left fun i hi => ?_
  rw [List.mem_range] at hi
  rw [slotAt_place hr hlt record (hi.trans hlt), if_neg (Nat.ne_of_lt hi)]

theorem capacity_grow : r.grow.capacity = 2 * r.capacity := Array.size_ofFn

theorem slotAt_grow {i : Nat} (hi : i < 2 * r.capacity) :
    r.grow.slotAt i = if i < r.length then r.slotAt i else none := by
  unfold slotAt
  rw [capacity_grow]
  simp only [grow, Nat.zero_add, Nat.mod_eq_of_lt hi, Array.getD_eq_getD_getElem?,
    Array.getElem?_ofFn, hi, dite_true, Option.getD_some]
  simp only [slotAt, Array.getD_eq_getD_getElem?]

theorem sound_grow (hr : r.Sound) : r.grow.Sound := by
  have hpos := capacity_pos hr
  have hlen := hr.length_le
  refine ⟨?_, ?_, fun i hi => ?_⟩
  · rw [capacity_grow]
    exact Nat.mul_pos Nat.two_pos hpos
  · rw [capacity_grow]
    exact hlen.trans (Nat.le_mul_of_pos_left _ Nat.two_pos)
  · rw [capacity_grow] at hi
    rw [slotAt_grow hi]
    show _ ↔ i < r.length
    split
    · rename_i h
      exact iff_of_true ((hr.isSome_iff i (Nat.lt_of_lt_of_le h hlen)).mpr h) h
    · rename_i h
      exact iff_of_false (fun h => by cases h) h

theorem toList_grow (hr : r.Sound) : r.grow.toList = r.toList := by
  refine toList_congr hr (sound_grow hr) rfl fun i hi => ?_
  have hlen := hr.length_le
  rw [slotAt_grow (by omega), if_pos hi]

/-- **Pushing appends.** It fails only on a full ring that may not grow. -/
theorem push_spec (hr : r.Sound) (record : ChunkRecord) (mayGrow : Bool) :
    (∃ r', r.push record mayGrow = .ok r' ∧ r'.Sound ∧ r'.toList = r.toList ++ [record]) ∨
      (r.push record mayGrow = .error .ringExhausted ∧ r.length = r.capacity ∧
        mayGrow = false) := by
  have hlen := hr.length_le
  unfold push
  split
  · rename_i hfull
    split
    · rename_i hgrow
      have hlt : r.grow.length < r.grow.capacity := by
        have hpos := capacity_pos hr
        rw [capacity_grow]
        show r.length < 2 * r.capacity
        omega
      refine .inl ⟨_, rfl, sound_place (sound_grow hr) hlt record, ?_⟩
      rw [toList_place (sound_grow hr) hlt, toList_grow hr]
    · rename_i hgrow
      exact .inr ⟨rfl, hfull, by simpa using hgrow⟩
  · rename_i hfull
    have hlt : r.length < r.capacity := by omega
    exact .inl ⟨_, rfl, sound_place hr hlt record, toList_place hr hlt record⟩

/-! ### Popping -/

/-- **Popping takes the first record**, if there is one. -/
theorem pop_spec (hr : r.Sound) :
    (r.toList = [] ∧ r.pop = .error .ringEmpty) ∨
      ∃ record r', r.pop = .ok (record, r') ∧ r'.Sound ∧ r.toList = record :: r'.toList := by
  by_cases h0 : r.length = 0
  · refine .inl ⟨(toList_eq_nil hr).mpr h0, ?_⟩
    unfold pop
    rw [if_pos h0]
  have hlen := hr.length_le
  have hcap := capacity_pos hr
  have hhead : r.slots.getD r.head none = r.slotAt 0 := by
    unfold slotAt
    rw [Nat.add_zero, Nat.mod_eq_of_lt hr.head_lt]
  obtain ⟨record, hrec⟩ := Option.isSome_iff_exists.mp
    ((hr.isSome_iff 0 hcap).mpr (Nat.pos_of_ne_zero h0))
  set r' : Ring :=
    { slots := r.slots.setIfInBounds r.head none
      head := (r.head + 1) % r.capacity
      length := r.length - 1 } with hr'
  have hcap' : r'.capacity = r.capacity := Array.size_setIfInBounds
  have hslot : ∀ i < r.capacity,
      r'.slotAt i = if i + 1 < r.capacity then r.slotAt (i + 1) else none := by
    intro i hi
    have hplace : (r'.head + i) % r.capacity = (r.head + (i + 1)) % r.capacity := by
      rw [hr', Nat.mod_add_mod, Nat.add_assoc, Nat.add_comm 1]
    unfold slotAt
    rw [hcap', hplace, hr']
    simp only [Array.getD_eq_getD_getElem?]
    split
    · rename_i hlt
      rw [Array.getElem?_setIfInBounds_ne]
      intro he
      have hplaces : (r.head + 0) % r.capacity = (r.head + (i + 1)) % r.capacity := by
        rw [Nat.add_zero, Nat.mod_eq_of_lt hr.head_lt]
        exact he
      cases place_inj hcap hlt hplaces
    · rename_i hlt
      have hwrap : (r.head + (i + 1)) % r.capacity = r.head := by
        rw [show i + 1 = r.capacity by omega, Nat.add_mod_right, Nat.mod_eq_of_lt hr.head_lt]
      rw [hwrap, Array.getElem?_setIfInBounds_self_of_lt hr.head_lt]
      rfl
  have hsound : r'.Sound := by
    refine ⟨?_, ?_, fun i hi => ?_⟩
    · rw [hcap']
      exact Nat.mod_lt _ hcap
    · rw [hcap']
      exact (Nat.sub_le ..).trans hlen
    · rw [hcap'] at hi
      rw [hslot i hi]
      show _ ↔ i < r.length - 1
      split
      · rename_i hlt
        rw [hr.isSome_iff _ hlt]
        omega
      · exact iff_of_false (fun h => by cases h) (by omega)
  refine .inr ⟨record, r', ?_, hsound, ?_⟩
  · unfold pop
    rw [if_neg h0, hhead, hrec]
  · rw [toList_eq_map hr, toList_eq_map hsound]
    show _ = record :: (List.range (r.length - 1)).map _
    conv_lhs => rw [show r.length = r.length - 1 + 1 by omega, List.range_succ_eq_map]
    rw [List.map_cons, hrec, List.map_map]
    congr 1
    refine List.map_congr_left fun i hi => ?_
    rw [List.mem_range] at hi
    rw [hslot i (by omega), if_pos (by omega)]
    rfl

/-! ### Updates in place -/

/-- Updates the records of a queue in order, until an update breaks off. -/
def updateAll {σ : Type} (f : σ → ChunkRecord → Checked (σ × ChunkRecord)) :
    σ → List ChunkRecord → Checked σ × List ChunkRecord
  | acc, [] => (.ok acc, [])
  | acc, record :: rest =>
    match f acc record with
    | .error failure => (.error failure, record :: rest)
    | .ok (acc, record) =>
      ((updateAll f acc rest).1, record :: (updateAll f acc rest).2)

variable {σ : Type} {f : σ → ChunkRecord → Checked (σ × ChunkRecord)}

/-- The two runs of slots are the places of the queue in order. -/
theorem visitOrder_eq (hr : r.Sound) :
    r.visitOrder = (List.range r.length).map fun i => (r.head + i) % r.capacity := by
  have hhead := hr.head_lt
  have hlen := hr.length_le
  unfold visitOrder
  set first := min (r.capacity - r.head) r.length with hfirst
  conv_rhs => rw [show r.length = first + (r.length - first) by omega, List.range_add,
    List.map_append, List.map_map]
  apply congrArg₂ (· ++ ·)
  · rw [List.range'_eq_map_range]
    refine List.map_congr_left fun i hi => ?_
    rw [List.mem_range] at hi
    rw [Nat.mod_eq_of_lt (by omega)]
  · refine (List.map_id _).symm.trans (List.map_congr_left fun i hi => ?_)
    rw [List.mem_range] at hi
    show i = (r.head + (first + i)) % r.capacity
    rw [show r.head + (first + i) = i + r.capacity by omega, Nat.add_mod_right,
      Nat.mod_eq_of_lt (by omega)]

/-- Going over different slots that hold the records of a queue updates the queue,
and no other slot. -/
theorem visitSlots_spec : ∀ (places : List Nat) (acc : σ) (slots : Array (Option ChunkRecord))
    (queue : List ChunkRecord), places.Nodup →
    places.map (fun p => slots.getD p none) = queue.map some →
    (visitSlots f places acc slots).1 = (updateAll f acc queue).1 ∧
      (visitSlots f places acc slots).2.size = slots.size ∧
      places.map (fun p => (visitSlots f places acc slots).2.getD p none) =
        (updateAll f acc queue).2.map some ∧
      ∀ p, p ∉ places → (visitSlots f places acc slots).2.getD p none = slots.getD p none
  | [], acc, slots, queue, _, h => by
    cases queue with
    | nil => exact ⟨rfl, rfl, rfl, fun _ _ => rfl⟩
    | cons => cases h
  | p :: places, acc, slots, queue, hnd, h => by
    cases queue with
    | nil => cases h
    | cons record rest =>
      obtain ⟨hp, hnd⟩ := List.nodup_cons.mp hnd
      simp only [List.map_cons, List.cons.injEq] at h
      obtain ⟨hrec, hrest⟩ := h
      unfold visitSlots updateAll
      rw [hrec]
      cases hf : f acc record with
      | error failure =>
        dsimp only
        rw [hf]
        refine ⟨rfl, rfl, ?_, fun _ _ => rfl⟩
        show (p :: places).map (fun q => slots.getD q none) = _
        rw [List.map_cons, List.map_cons, hrec, hrest]
      | ok next =>
        obtain ⟨acc', record'⟩ := next
        simp only [hf]
        set slots' := slots.setIfInBounds p (some record') with hslots'
        have hother : ∀ q, q ≠ p → slots'.getD q none = slots.getD q none := by
          intro q hq
          simp only [hslots', Array.getD_eq_getD_getElem?, Array.getElem?_setIfInBounds_ne hq.symm]
        have hself : slots'.getD p none = some record' := by
          have hlt : p < slots.size := by
            by_contra hge
            simp [Nat.not_lt.mp hge] at hrec
          simp only [hslots', Array.getD_eq_getD_getElem?,
            Array.getElem?_setIfInBounds_self_of_lt hlt, Option.getD_some]
        have hrest' : places.map (fun q => slots'.getD q none) = rest.map some := by
          rw [← hrest]
          exact List.map_congr_left fun q hq => hother q fun he => hp (he ▸ hq)
        obtain ⟨h1, h2, h3, h4⟩ := visitSlots_spec places acc' slots' rest hnd hrest'
        refine ⟨h1, by rw [h2, hslots', Array.size_setIfInBounds], ?_, fun q hq => ?_⟩
        · rw [List.map_cons, List.map_cons, h3, h4 p hp, hself]
        · obtain ⟨hne, hq⟩ := not_or.mp (mt List.mem_cons.mpr hq)
          rw [h4 q hq, hother q hne]

/-- **An update goes over the whole queue**, oldest record first. -/
theorem visit_spec (hr : r.Sound) (acc : σ) :
    (r.visit f acc).1 = (updateAll f acc r.toList).1 ∧ (r.visit f acc).2.Sound ∧
      (r.visit f acc).2.toList = (updateAll f acc r.toList).2 ∧
      (r.visit f acc).2.length = r.length := by
  have hcap := capacity_pos hr
  set places := (List.range r.length).map fun i => (r.head + i) % r.capacity with hplaces
  have hnd : places.Nodup := by
    refine List.Nodup.map_on (fun i hi j hj h => ?_) List.nodup_range
    rw [List.mem_range] at hi hj
    exact place_inj (hi.trans_le hr.length_le) (hj.trans_le hr.length_le) h
  have hqueue : ∀ s : Ring, s.Sound → s.length = r.length → s.head = r.head →
      s.capacity = r.capacity →
      places.map (fun p => s.slots.getD p none) = s.toList.map some := by
    intro s hs hlen hhead hscap
    rw [toList_eq_map hs, hplaces, List.map_map, List.map_map, hlen]
    refine List.map_congr_left fun i hi => ?_
    rw [List.mem_range] at hi
    have hsome := (hs.isSome_iff i (by rw [hscap]; exact hi.trans_le hr.length_le)).mpr (hlen ▸ hi)
    obtain ⟨record, hrec⟩ := Option.isSome_iff_exists.mp hsome
    show s.slots.getD ((r.head + i) % r.capacity) none = some ((s.slotAt i).getD default)
    rw [← hhead, ← hscap]
    show s.slotAt i = _
    rw [hrec]
    rfl
  obtain ⟨h1, h2, h3, h4⟩ :=
    visitSlots_spec (f := f) places acc r.slots r.toList hnd (hqueue r hr rfl rfl rfl)
  have hvisit : r.visit f acc = ((visitSlots f places acc r.slots).1,
      { r with slots := (visitSlots f places acc r.slots).2 }) := by
    unfold visit
    rw [visitOrder_eq hr]
  rw [hvisit]
  set r' : Ring := { r with slots := (visitSlots f places acc r.slots).2 } with hr'
  have hcap' : r'.capacity = r.capacity := h2
  have hslot : ∀ i < r.capacity, (r'.slotAt i).isSome ↔ i < r.length := by
    intro i hi
    have hplace : r'.slotAt i = (visitSlots f places acc r.slots).2.getD
        ((r.head + i) % r.capacity) none := by
      unfold slotAt
      rw [hcap']
    rw [hplace]
    by_cases hlt : i < r.length
    · refine iff_of_true ?_ hlt
      have hmem : (r.head + i) % r.capacity ∈ places :=
        List.mem_map.mpr ⟨i, List.mem_range.mpr hlt, rfl⟩
      have hval : (visitSlots f places acc r.slots).2.getD ((r.head + i) % r.capacity) none ∈
          (updateAll f acc r.toList).2.map some := by
        rw [← h3]
        exact List.mem_map.mpr ⟨_, hmem, rfl⟩
      obtain ⟨record, -, hrec⟩ := List.mem_map.mp hval
      rw [← hrec]
      rfl
    · rw [h4 _ fun hmem => ?_]
      · exact hr.isSome_iff i hi
      · obtain ⟨j, hj, he⟩ := List.mem_map.mp hmem
        rw [List.mem_range] at hj
        exact hlt (place_inj (hj.trans_le hr.length_le) hi he ▸ hj)
  have hsound : r'.Sound :=
    ⟨by rw [hcap']; exact hr.head_lt, by rw [hcap']; exact hr.length_le,
      fun i hi => hslot i (hcap' ▸ hi)⟩
  refine ⟨h1, hsound, ?_, rfl⟩
  have hmap := hqueue r' hsound rfl rfl hcap'
  rw [show (fun p => r'.slots.getD p none) =
    fun p => (visitSlots f places acc r.slots).2.getD p none from rfl, h3] at hmap
  exact (List.map_injective_iff.mpr (Option.some_injective _) hmap).symm

/-! ### Bytes -/

/-- The bytes of some records. -/
def bytesOf (records : List ChunkRecord) : Nat := (records.map (·.size)).sum

/-- The bytes of all records. -/
def liveSum (r : Ring) : Nat := bytesOf r.toList

@[simp] theorem bytesOf_nil : bytesOf [] = 0 := rfl

@[simp] theorem bytesOf_cons (record : ChunkRecord) (records : List ChunkRecord) :
    bytesOf (record :: records) = record.size + bytesOf records := by
  simp [bytesOf]

@[simp] theorem bytesOf_append (a b : List ChunkRecord) :
    bytesOf (a ++ b) = bytesOf a + bytesOf b := by
  simp [bytesOf]

theorem addAll_eq : ∀ (records : List ChunkRecord) (acc : Nat), acc < wordBound →
    records.foldlM (fun sum record => Word.add sum record.size) acc =
      Word.exact (acc + bytesOf records)
  | [], acc, h => by
    simp only [List.foldlM_nil, bytesOf_nil, Nat.add_zero]
    exact (if_pos h).symm
  | record :: rest, acc, h => by
    rw [List.foldlM_cons, bytesOf_cons, ← Nat.add_assoc]
    by_cases hsum : acc + record.size < wordBound
    · rw [show Word.add acc record.size = .ok (acc + record.size) from if_pos hsum]
      exact addAll_eq rest _ hsum
    · rw [show Word.add acc record.size = .error (.abort .overflow) from if_neg hsum]
      exact (if_neg (by omega)).symm

/-- The bytes are added up exactly, as long as their sum is a word. -/
theorem liveBytes_eq (r : Ring) : r.liveBytes = Word.exact r.liveSum := by
  unfold liveBytes
  rw [addAll_eq _ 0 (by decide), Nat.zero_add]
  rfl

theorem liveBytes_eq_ok {n : Nat} :
    r.liveBytes = .ok n ↔ r.liveSum < wordBound ∧ n = r.liveSum := by
  rw [liveBytes_eq, Word.exact_eq_ok]

/-- The records of a queue after its owner's were retired. -/
def retired (owner : Nat) (records : List ChunkRecord) : List ChunkRecord :=
  records.map fun record => if record.owner = owner then { record with size := 0 } else record

/-- A record is another owner's, or it holds nothing any more. -/
theorem mem_retired {owner : Nat} {records : List ChunkRecord} {record : ChunkRecord}
    (h : record ∈ retired owner records) :
    record ∈ records ∧ record.owner ≠ owner ∨ record.size = 0 := by
  obtain ⟨x, hx, rfl⟩ := List.mem_map.mp h
  by_cases howner : x.owner = owner
  · rw [if_pos howner]
    exact .inr rfl
  · rw [if_neg howner]
    exact .inl ⟨hx, howner⟩

theorem mem_retired_of_ne {owner : Nat} {records : List ChunkRecord} {record : ChunkRecord}
    (h : record ∈ records) (howner : record.owner ≠ owner) : record ∈ retired owner records :=
  List.mem_map.mpr ⟨record, h, if_neg howner⟩

/-- The bytes that an owner's records hold. -/
def ownBytes (owner : Nat) (records : List ChunkRecord) : Nat :=
  bytesOf (records.filter (·.owner == owner))

theorem bytesOf_retired (owner : Nat) (records : List ChunkRecord) :
    bytesOf (retired owner records) + ownBytes owner records = bytesOf records := by
  induction records with
  | nil => rfl
  | cons record rest ih =>
    simp only [retired, ownBytes, List.map_cons, List.filter_cons, bytesOf_cons] at ih ⊢
    by_cases h : record.owner = owner
    · simp only [h, beq_self_eq_true, if_true, bytesOf_cons]
      omega
    · simp only [h, beq_eq_false_iff_ne.mpr h, if_false, Bool.false_eq_true]
      omega

theorem retireRecord_own {record : ChunkRecord} {released : Nat}
    (h : released + record.size < wordBound) :
    retireRecord record.owner released record =
      .ok (released + record.size, { record with size := 0 }) := by
  unfold retireRecord
  rw [if_pos rfl, show Word.add released record.size = .ok (released + record.size) from if_pos h]
  rfl

theorem retireRecord_other {record : ChunkRecord} {owner : Nat} (released : Nat)
    (h : record.owner ≠ owner) : retireRecord owner released record = .ok (released, record) := by
  unfold retireRecord
  rw [if_neg h]
  rfl

theorem retireAll_eq : ∀ (owner : Nat) (records : List ChunkRecord) (acc : Nat),
    acc + ownBytes owner records < wordBound →
    updateAll (retireRecord owner) acc records =
      (.ok (acc + ownBytes owner records), retired owner records)
  | _, [], _, _ => rfl
  | owner, record :: rest, acc, h => by
    unfold updateAll
    by_cases howner : record.owner = owner
    · subst howner
      simp only [ownBytes, List.filter_cons, beq_self_eq_true, if_true, bytesOf_cons] at h
      have ih := retireAll_eq record.owner rest (acc + record.size) (by rwa [Nat.add_assoc])
      rw [retireRecord_own (by omega)]
      simp only [ih, ownBytes, retired, List.filter_cons, List.map_cons, beq_self_eq_true, if_true,
        bytesOf_cons, Nat.add_assoc]
    · have hother : ownBytes owner (record :: rest) = ownBytes owner rest := by
        unfold ownBytes
        rw [List.filter_cons_of_neg (by simpa using howner)]
      have ih := retireAll_eq owner rest acc (by rwa [← hother])
      rw [retireRecord_other acc howner]
      simp only [ih, hother, retired, List.map_cons, howner, if_false]

/-- **Retiring an owner zeroes its records where they are** and answers the bytes
they held, as long as these are a word. -/
theorem retireOwner_own (hr : r.Sound) {owner : Nat} (hown : ownBytes owner r.toList < wordBound) :
    (r.retireOwner owner).1 = .ok (ownBytes owner r.toList) ∧ (r.retireOwner owner).2.Sound ∧
      (r.retireOwner owner).2.toList = retired owner r.toList := by
  obtain ⟨h1, h2, h3, -⟩ := visit_spec (f := retireRecord owner) hr 0
  have hall := retireAll_eq owner r.toList 0 (by rwa [Nat.zero_add])
  rw [Nat.zero_add] at hall
  rw [hall] at h1 h3
  exact ⟨h1, h2, h3⟩

/-- They are a word if all bytes together are one. -/
theorem retireOwner_spec (hr : r.Sound) (hsum : r.liveSum < wordBound) (owner : Nat) :
    (r.retireOwner owner).1 = .ok (ownBytes owner r.toList) ∧ (r.retireOwner owner).2.Sound ∧
      (r.retireOwner owner).2.toList = retired owner r.toList := by
  have hshare := bytesOf_retired owner r.toList
  exact retireOwner_own hr (by unfold liveSum at hsum; omega)

end Ring
end DemandPager
