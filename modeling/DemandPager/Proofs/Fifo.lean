/-
# The eviction ring through its history

Records are pushed to a ring and popped from it, owners are retired, and records are
updated in place. Each of these looks at slots: the one behind the newest record, the one
at the head, the two runs of slots that hold records, and all of them when a full ring is
copied into a larger one. A plain queue, which is a list of records with a bound on their
number, can be handled in the same way without any slots, and a ring `StandsFor` such a
queue if it is sound and holds the same records. Each action keeps this
(`Ring.StandsFor.act`), so after any history the ring is first in, first out
(`Ring.actions_exact`).

Key definitions: `Ring.Action`, `Ring.act`, `Queue`, `Queue.act`, `Ring.StandsFor`.
Key theorems: `Ring.exists_place`, `Ring.occupied_iff`, `Ring.push_eq_ok`, `Ring.pop_eq_ok`,
`Ring.updateAll_collect`, `Ring.StandsFor.act`, `Ring.actions_exact`.
-/
import DemandPager.Proofs.Queue

namespace DemandPager
namespace Ring

/-- An action on a ring. -/
inductive Action : Type 1
  | push (record : ChunkRecord) (mayGrow : Bool)
  | pop
  | retire (owner : Nat)
  /-- All records are updated in place, with an accumulator. -/
  | update {σ : Type} (f : σ → ChunkRecord → Checked (σ × ChunkRecord)) (acc : σ)

/-- The ring after an action; one that is refused changes nothing. -/
def act (r : Ring) : Action → Ring
  | .push record mayGrow => (r.push record mayGrow).toOption.getD r
  | .pop => r.pop.toOption.elim r (·.2)
  | .retire owner => (r.retireOwner owner).2
  | .update f acc => (r.visit f acc).2

end Ring

/-- A plain queue: how many records it has room for, and its records, oldest first. -/
structure Queue where
  room : Nat
  records : List ChunkRecord

namespace Queue

/-- A queue without records; it has room for one at least. -/
def ofRoom (n : Nat) : Queue := { room := max n 1, records := [] }

/-- The room after one more record was taken in: it is doubled if it was used up. -/
def roomAfter (q : Queue) : Nat := if q.records.length = q.room then 2 * q.room else q.room

/-- A plain queue after an action. -/
def act (q : Queue) : Ring.Action → Queue
  | .push record mayGrow =>
    if q.records.length = q.room ∧ mayGrow = false then q
    else { room := q.roomAfter, records := q.records ++ [record] }
  | .pop => { q with records := q.records.tail }
  | .retire owner => { q with records := (Ring.updateAll (Ring.retireRecord owner) 0 q.records).2 }
  | .update f acc => { q with records := (Ring.updateAll f acc q.records).2 }

end Queue

namespace Ring

variable {r r' : Ring} {record : ChunkRecord} {mayGrow : Bool} {cause : PagerError} {q : Queue}

/-! ### What an action decides -/

/-- Each slot is some places after the head. -/
theorem exists_place (hr : r.Sound) {p : Nat} (hp : p < r.capacity) :
    ∃ i < r.capacity, (r.head + i) % r.capacity = p ∧ r.slots.getD p none = r.slotAt i := by
  have hhead := hr.head_lt
  obtain ⟨i, hi, hplace⟩ : ∃ i < r.capacity, (r.head + i) % r.capacity = p := by
    rcases Nat.lt_or_ge p r.head with hlt | hge
    · refine ⟨p + r.capacity - r.head, by omega, ?_⟩
      rw [show r.head + (p + r.capacity - r.head) = p + r.capacity by omega, Nat.add_mod_right,
        Nat.mod_eq_of_lt hp]
    · refine ⟨p - r.head, by omega, ?_⟩
      rw [show r.head + (p - r.head) = p by omega, Nat.mod_eq_of_lt hp]
  refine ⟨i, hi, hplace, ?_⟩
  unfold slotAt
  rw [hplace]

/-- **The occupied slots are those from the head on**, around the end of the buffer. -/
theorem occupied_iff (hr : r.Sound) {p : Nat} (hp : p < r.capacity) :
    (r.slots.getD p none).isSome ↔ ∃ i < r.length, (r.head + i) % r.capacity = p := by
  obtain ⟨i, hi, hplace, hslot⟩ := exists_place hr hp
  rw [hslot, hr.isSome_iff i hi]
  constructor
  · exact fun hlt => ⟨i, hlt, hplace⟩
  · rintro ⟨j, hj, hsame⟩
    rwa [place_inj hi (hj.trans_le hr.length_le) (hplace.trans hsame.symm)]

theorem capacity_place : (r.place record).capacity = r.capacity := Array.size_setIfInBounds

/-- **A record is refused exactly by a full ring that may not grow.** -/
theorem push_eq_error :
    r.push record mayGrow = .error cause ↔
      (r.length = r.capacity ∧ mayGrow = false) ∧ cause = .ringExhausted := by
  unfold push
  by_cases hfull : r.length = r.capacity
  · cases mayGrow with
    | true => simp [hfull]
    | false => simp [hfull, eq_comm]
  · simp [hfull]

theorem capacity_push_eq (h : r.push record mayGrow = .ok r') :
    r'.capacity = if r.length = r.capacity then 2 * r.capacity else r.capacity := by
  unfold push at h
  by_cases hfull : r.length = r.capacity
  · cases mayGrow with
    | false =>
      rw [if_pos hfull] at h
      cases h
    | true =>
      rw [if_pos hfull] at h
      cases h
      rw [capacity_place, capacity_grow, if_pos hfull]
  · rw [if_neg hfull] at h
    cases h
    rw [capacity_place, if_neg hfull]

/-- A ring that may not grow takes a record into the slots that it has. -/
theorem capacity_push (h : r.push record false = .ok r') : r'.capacity = r.capacity := by
  have hroom : r.length ≠ r.capacity := fun hfull => by
    rw [push_eq_error.mpr ⟨⟨hfull, rfl⟩, rfl⟩] at h
    cases h
  rw [capacity_push_eq h, if_neg hroom]

theorem push_eq_ok (hr : r.Sound) (h : r.push record mayGrow = .ok r') :
    r'.Sound ∧ r'.toList = r.toList ++ [record] ∧
      r'.capacity = if r.length = r.capacity then 2 * r.capacity else r.capacity := by
  have hcapacity := capacity_push_eq h
  rcases push_spec hr record mayGrow with ⟨grown, hok, hsound, hlist⟩ | ⟨herr, -, -⟩
  · rw [hok] at h
    cases h
    exact ⟨hsound, hlist, hcapacity⟩
  · rw [herr] at h
    cases h

/-- **Only an empty ring has nothing to take.** -/
theorem pop_eq_error (hr : r.Sound) :
    r.pop = .error cause ↔ r.toList = [] ∧ cause = .ringEmpty := by
  rcases pop_spec hr with ⟨hnil, herr⟩ | ⟨record, rest, hok, -, hlist⟩
  · rw [herr]
    simp [hnil, eq_comm]
  · rw [hok, hlist]
    simp

theorem capacity_pop (h : r.pop = .ok (record, r')) : r'.capacity = r.capacity := by
  unfold pop at h
  split at h
  · cases h
  · split at h
    · cases h
    · cases h
      exact Array.size_setIfInBounds

theorem pop_eq_ok (hr : r.Sound) (h : r.pop = .ok (record, r')) :
    r'.Sound ∧ r.toList = record :: r'.toList ∧ r'.capacity = r.capacity := by
  have hcapacity := capacity_pop h
  rcases pop_spec hr with ⟨-, herr⟩ | ⟨first, rest, hok, hsound, hlist⟩
  · rw [herr] at h
    cases h
  · rw [hok] at h
    cases h
    exact ⟨hsound, hlist, hcapacity⟩

section Updates

variable {σ : Type} {f : σ → ChunkRecord → Checked (σ × ChunkRecord)}

theorem size_visitSlots : ∀ (places : List Nat) (acc : σ) (slots : Array (Option ChunkRecord)),
    (visitSlots f places acc slots).2.size = slots.size
  | [], _, _ => rfl
  | p :: places, acc, slots => by
    unfold visitSlots
    split
    · exact size_visitSlots places acc slots
    · split
      · rfl
      · rw [size_visitSlots places, Array.size_setIfInBounds]

theorem capacity_visit (acc : σ) : (r.visit f acc).2.capacity = r.capacity :=
  size_visitSlots r.visitOrder acc r.slots

end Updates

/-- Going over the records sees each of them once, in order. -/
theorem updateAll_collect : ∀ (records seen : List ChunkRecord),
    updateAll (fun seen record => .ok (seen ++ [record], record)) seen records =
      (.ok (seen ++ records), records)
  | [], seen => by
    rw [List.append_nil]
    rfl
  | record :: rest, seen => by
    unfold updateAll
    dsimp only
    rw [updateAll_collect rest, List.append_assoc, List.singleton_append]

/-! ### Histories -/

/-- The ring is sound and holds the records of the queue, with the same room. -/
structure StandsFor (r : Ring) (q : Queue) : Prop where
  sound : r.Sound
  capacity : r.capacity = q.room
  toList : r.toList = q.records

theorem standsFor_ofCapacity (n : Nat) : (ofCapacity n).StandsFor (.ofRoom n) where
  sound := sound_ofCapacity n
  capacity := by simp [ofCapacity, Ring.capacity, Queue.ofRoom]
  toList := toList_ofCapacity n

theorem StandsFor.length (h : r.StandsFor q) : r.length = q.records.length := by
  rw [← h.toList, length_toList h.sound]

theorem StandsFor.push (h : r.StandsFor q) :
    (r.act (.push record mayGrow)).StandsFor (q.act (.push record mayGrow)) := by
  simp only [Ring.act, Queue.act]
  have hfull : (r.length = r.capacity) ↔ q.records.length = q.room := by
    rw [h.length, h.capacity]
  cases hpush : r.push record mayGrow with
  | error cause =>
    obtain ⟨⟨hlen, hgrow⟩, -⟩ := push_eq_error.mp hpush
    rw [if_pos ⟨hfull.mp hlen, hgrow⟩]
    exact h
  | ok r' =>
    have hroom : ¬(q.records.length = q.room ∧ mayGrow = false) := by
      rintro ⟨hlen, hgrow⟩
      have herr : r.push record mayGrow = .error .ringExhausted :=
        push_eq_error.mpr ⟨⟨hfull.mpr hlen, hgrow⟩, rfl⟩
      rw [hpush] at herr
      cases herr
    obtain ⟨hsound, hlist, hcapacity⟩ := push_eq_ok h.sound hpush
    rw [if_neg hroom]
    refine ⟨hsound, ?_, ?_⟩
    · show r'.capacity = q.roomAfter
      rw [hcapacity, if_congr hfull rfl rfl, h.capacity]
      rfl
    · show r'.toList = q.records ++ [record]
      rw [hlist, h.toList]

theorem StandsFor.pop (h : r.StandsFor q) : (r.act .pop).StandsFor (q.act .pop) := by
  simp only [Ring.act, Queue.act]
  cases hpop : r.pop with
  | error cause =>
    obtain ⟨hnil, -⟩ := (pop_eq_error h.sound).mp hpop
    refine ⟨h.sound, h.capacity, ?_⟩
    show r.toList = q.records.tail
    rw [← h.toList, hnil]
    rfl
  | ok answer =>
    obtain ⟨record, r'⟩ := answer
    obtain ⟨hsound, hlist, hcapacity⟩ := pop_eq_ok h.sound hpop
    refine ⟨hsound, hcapacity.trans h.capacity, ?_⟩
    show r'.toList = q.records.tail
    rw [← h.toList, hlist]
    rfl

theorem StandsFor.update (h : r.StandsFor q) {σ : Type}
    (f : σ → ChunkRecord → Checked (σ × ChunkRecord)) (acc : σ) :
    (r.visit f acc).2.StandsFor { q with records := (updateAll f acc q.records).2 } := by
  obtain ⟨-, hsound, hlist, -⟩ := visit_spec (f := f) h.sound acc
  exact ⟨hsound, (capacity_visit acc).trans h.capacity, by rw [hlist, h.toList]⟩

/-- **An action on the ring is the action on the queue that it stands for.** -/
theorem StandsFor.act (h : r.StandsFor q) (x : Action) : (r.act x).StandsFor (q.act x) := by
  cases x with
  | push record mayGrow => exact h.push
  | pop => exact h.pop
  | retire owner => exact h.update (retireRecord owner) 0
  | update f acc => exact h.update f acc

theorem StandsFor.actions (xs : List Action) :
    ∀ {r : Ring} {q : Queue}, r.StandsFor q →
      (xs.foldl Ring.act r).StandsFor (xs.foldl Queue.act q) := by
  induction xs with
  | nil => exact fun h => h
  | cons x xs ih => exact fun h => ih (h.act x)

/-- **After any history the ring is first in, first out.** Its records and its capacity are
those that a plain queue would have; they lie in the slots from the head on and in no
others. A record that is pushed is the new last one, and it is refused exactly by a full
ring that may not grow; what is popped is the first one, and only an empty ring refuses.
Reading and updating go over all records in order. Retiring an owner zeroes its records
where they are, and growing moves none. -/
theorem actions_exact (n : Nat) (xs : List Action) :
    let r := xs.foldl act (ofCapacity n)
    let q := xs.foldl Queue.act (.ofRoom n)
    (r.toList = q.records ∧ r.length = q.records.length ∧ r.capacity = q.room) ∧
    (r.head < r.capacity ∧ r.length ≤ r.capacity ∧
      ∀ p < r.capacity, (r.slots.getD p none).isSome ↔
        ∃ i < r.length, (r.head + i) % r.capacity = p) ∧
    (∀ record mayGrow,
      (∀ cause, r.push record mayGrow = .error cause ↔
        (r.length = r.capacity ∧ mayGrow = false) ∧ cause = .ringExhausted) ∧
      (∀ cause, r.push record mayGrow = .error cause → r.act (.push record mayGrow) = r) ∧
      ∀ r', r.push record mayGrow = .ok r' → r'.toList = r.toList ++ [record] ∧
        r'.capacity = if r.length = r.capacity then 2 * r.capacity else r.capacity) ∧
    ((∀ cause, r.pop = .error cause ↔ r.toList = [] ∧ cause = .ringEmpty) ∧
      ∀ record r', r.pop = .ok (record, r') → r.toList = record :: r'.toList) ∧
    (∀ (σ : Type) (f : σ → ChunkRecord → Checked (σ × ChunkRecord)) (acc : σ),
      (r.visit f acc).1 = (updateAll f acc r.toList).1 ∧
      (r.visit f acc).2.toList = (updateAll f acc r.toList).2) ∧
    (r.visit (fun seen record => .ok (seen ++ [record], record)) []).1 = .ok r.toList ∧
    (∀ owner, ownBytes owner r.toList < wordBound →
      (r.retireOwner owner).1 = .ok (ownBytes owner r.toList) ∧
      (r.retireOwner owner).2.toList = retired owner r.toList) ∧
    (r.grow.toList = r.toList ∧ r.grow.capacity = 2 * r.capacity) := by
  intro r q
  have h : r.StandsFor q := (standsFor_ofCapacity n).actions xs
  have hr := h.sound
  have hvisit : ∀ (σ : Type) (f : σ → ChunkRecord → Checked (σ × ChunkRecord)) (acc : σ),
      (r.visit f acc).1 = (updateAll f acc r.toList).1 ∧
        (r.visit f acc).2.toList = (updateAll f acc r.toList).2 := by
    intro σ f acc
    obtain ⟨hresult, -, hlist, -⟩ := visit_spec (f := f) hr acc
    exact ⟨hresult, hlist⟩
  refine ⟨⟨h.toList, h.length, h.capacity⟩, ⟨hr.head_lt, hr.length_le, fun p => occupied_iff hr⟩,
    fun record mayGrow => ⟨fun cause => push_eq_error, fun cause herr => ?_, fun r' hok => ?_⟩,
    ⟨fun cause => pop_eq_error hr, fun record r' hok => (pop_eq_ok hr hok).2.1⟩, hvisit, ?_,
    fun owner hown => ?_, toList_grow hr, capacity_grow⟩
  · simp only [act, herr]
    rfl
  · obtain ⟨-, hlist, hcapacity⟩ := push_eq_ok hr hok
    exact ⟨hlist, hcapacity⟩
  · rw [(hvisit _ _ []).1, updateAll_collect, List.nil_append]
  · obtain ⟨hanswer, -, hlist⟩ := retireOwner_own hr hown
    exact ⟨hanswer, hlist⟩

end Ring
end DemandPager
