/-
# Retiring an owner conserves bytes

To retire an owner goes over the slots in two runs, and the bytes are added up through the circular
index. Both see each record of a sound ring once: the record that is `i` places after the oldest one
is the one with the number `i` in the queue (`Ring.slotAt_eq_getElem?`). So the ring after a
retirement is the same ring with the owner's records zeroed in their slots
(`Ring.retireOwner_eq`), which takes from the live bytes what the retirement answers, and to retire
the owner again finds nothing (`Ring.retirement_conserves`).

Key definitions: `ChunkRecord.zeroed`, `Ring.zeroed`.
Key theorems: `Ring.slotAt_eq_getElem?`, `Ring.retireOwner_eq`, `Ring.retirement_conserves`.
-/
import DemandPager.Proofs.Fifo

namespace DemandPager

namespace ChunkRecord

/-- The record after an owner was retired: it holds nothing if it is the owner's. -/
def zeroed (owner : Nat) (record : ChunkRecord) : ChunkRecord :=
  if record.owner = owner then { record with size := 0 } else record

variable {owner : Nat} {record : ChunkRecord}

@[simp] theorem address_zeroed : (record.zeroed owner).address = record.address := by
  unfold zeroed
  split <;> rfl

@[simp] theorem owner_zeroed : (record.zeroed owner).owner = record.owner := by
  unfold zeroed
  split <;> rfl

theorem size_zeroed_self (h : record.owner = owner) : (record.zeroed owner).size = 0 := by
  simp [zeroed, h]

theorem zeroed_of_ne (h : record.owner ≠ owner) : record.zeroed owner = record := if_neg h

@[simp] theorem zeroed_zeroed : (record.zeroed owner).zeroed owner = record.zeroed owner := by
  by_cases h : record.owner = owner
  · simp [zeroed, h]
  · simp [zeroed_of_ne h]

end ChunkRecord

namespace Ring

variable {r : Ring} {owner : Nat}

/-- The ring with the records of an owner zeroed where they are. -/
def zeroed (owner : Nat) (r : Ring) : Ring :=
  { r with slots := r.slots.map (Option.map (ChunkRecord.zeroed owner)) }

@[simp] theorem capacity_zeroed : (r.zeroed owner).capacity = r.capacity := Array.size_map ..

theorem getD_slots_zeroed (p : Nat) :
    (r.zeroed owner).slots.getD p none = (r.slots.getD p none).map (ChunkRecord.zeroed owner) := by
  simp only [zeroed, Array.getD_eq_getD_getElem?, Array.getElem?_map]
  cases r.slots[p]? <;> rfl

theorem zeroed_zeroed : (r.zeroed owner).zeroed owner = r.zeroed owner := by
  have htwice : Option.map (ChunkRecord.zeroed owner) ∘ Option.map (ChunkRecord.zeroed owner) =
      Option.map (ChunkRecord.zeroed owner) := by
    funext slot
    cases slot <;> simp
  simp [zeroed, htwice]

/-! ### Places -/

/-- **The circular index and the queue agree**: what is some places after the oldest record is the
record with that number. -/
theorem slotAt_eq_getElem? (hr : r.Sound) {i : Nat} (hi : i < r.capacity) :
    r.slotAt i = r.toList[i]? := by
  by_cases hlt : i < r.length
  · obtain ⟨record, hrecord⟩ := Option.isSome_iff_exists.mp ((hr.isSome_iff i hi).mpr hlt)
    rw [toList_eq_map hr, List.getElem?_map, List.getElem?_range hlt, hrecord]
    simp [hrecord]
  · have hnone : r.slotAt i = none := by
      rw [← Option.not_isSome_iff_eq_none, hr.isSome_iff i hi]
      exact hlt
    rw [hnone, List.getElem?_eq_none]
    rw [length_toList hr]
    omega

/-! ### The ring after a retirement -/

theorem liveSum_zeroed (hlist : (r.zeroed owner).toList = retired owner r.toList) :
    (r.zeroed owner).liveSum + ownBytes owner r.toList = r.liveSum := by
  unfold liveSum
  rw [hlist]
  exact bytesOf_retired owner r.toList

/-- **A retirement zeroes the owner's records in their slots** and changes nothing else. -/
theorem retireOwner_eq (hr : r.Sound) (hown : ownBytes owner r.toList < wordBound) :
    r.retireOwner owner = (.ok (ownBytes owner r.toList), r.zeroed owner) := by
  obtain ⟨hanswer, hsound, hlist⟩ := retireOwner_own hr hown
  have hcapacity : (r.retireOwner owner).2.capacity = r.capacity := capacity_visit 0
  -- a slot of the new ring is told by its place, and the places are those of the old ring
  have hslot : ∀ p < r.capacity, (r.retireOwner owner).2.slots.getD p none =
      (r.slots.getD p none).map (ChunkRecord.zeroed owner) := by
    intro p hp
    obtain ⟨i, hi, hplace, hold⟩ := exists_place hr hp
    have hnew : (r.retireOwner owner).2.slots.getD p none = (r.retireOwner owner).2.slotAt i := by
      have hsame : ((r.retireOwner owner).2.head + i) % r.capacity = p := hplace
      unfold slotAt
      rw [hcapacity, hsame]
    calc (r.retireOwner owner).2.slots.getD p none
        = (r.retireOwner owner).2.toList[i]? := by
          rw [hnew, slotAt_eq_getElem? hsound (hcapacity ▸ hi)]
      _ = (r.toList[i]?).map (ChunkRecord.zeroed owner) := by
          rw [hlist]
          exact List.getElem?_map
      _ = (r.slots.getD p none).map (ChunkRecord.zeroed owner) := by
          rw [hold, slotAt_eq_getElem? hr hi]
  have hslots : (r.retireOwner owner).2.slots = (r.zeroed owner).slots := by
    refine Array.ext (hcapacity.trans capacity_zeroed.symm) fun p hp hp' => ?_
    have hp'' : p < r.capacity := hcapacity ▸ hp
    have h := (hslot p hp'').trans (getD_slots_zeroed p).symm
    simpa [Array.getD_eq_getD_getElem?, hp, hp'] using h
  refine Prod.ext hanswer ?_
  show { r with slots := (r.retireOwner owner).2.slots } = r.zeroed owner
  rw [hslots]
  rfl

theorem toList_zeroed (hr : r.Sound) (hown : ownBytes owner r.toList < wordBound) :
    (r.zeroed owner).Sound ∧ (r.zeroed owner).toList = r.toList.map (ChunkRecord.zeroed owner) := by
  obtain ⟨-, hsound, hlist⟩ := retireOwner_own hr hown
  rw [retireOwner_eq hr hown] at hsound hlist
  exact ⟨hsound, hlist⟩

/-- What was zeroed holds nothing. -/
theorem ownBytes_zeroed (records : List ChunkRecord) :
    ownBytes owner (records.map (ChunkRecord.zeroed owner)) = 0 := by
  induction records with
  | nil => rfl
  | cons record rest ih =>
    unfold ownBytes at ih ⊢
    by_cases howner : record.owner = owner
    · simp [howner, ChunkRecord.size_zeroed_self howner, ih]
    · simp [howner, ih]

/-- **Retiring an owner conserves bytes.** After any history let the bytes of all records be a word.
Then the retirement of any owner ends well and answers the bytes of the owner's records. Each record
stays in its slot with its address and its owner, and it holds nothing if it is the owner's and as
much as before if it is another's. The live bytes, which were exact before, are less by the answer;
no record of the owner is live; and to retire the owner again answers zero and changes nothing. -/
theorem retirement_conserves (n : Nat) (xs : List Action) (owner : Nat)
    (hsum : (xs.foldl act (ofCapacity n)).liveSum < wordBound) :
    let r := xs.foldl act (ofCapacity n)
    let own := ownBytes owner r.toList
    r.retireOwner owner = (.ok own, r.zeroed owner) ∧
      (r.zeroed owner).toList = r.toList.map (ChunkRecord.zeroed owner) ∧
      (∀ p, (r.zeroed owner).slots.getD p none =
        (r.slots.getD p none).map (ChunkRecord.zeroed owner)) ∧
      (r.liveBytes = .ok r.liveSum ∧ own ≤ r.liveSum ∧
        (r.zeroed owner).liveBytes = .ok (r.liveSum - own)) ∧
      (∀ record ∈ (r.zeroed owner).toList, record.owner = owner → ¬record.isLive) ∧
      (r.zeroed owner).retireOwner owner = (.ok 0, r.zeroed owner) := by
  intro r own
  have hr : r.Sound := ((standsFor_ofCapacity n).actions xs).sound
  have hword : r.liveSum < wordBound := hsum
  have hshare : bytesOf (retired owner r.toList) + own = r.liveSum := bytesOf_retired owner r.toList
  have hown : own < wordBound := by omega
  obtain ⟨hsound, hlist⟩ := toList_zeroed hr hown
  have hleft : (r.zeroed owner).liveSum + own = r.liveSum := liveSum_zeroed hlist
  have hnothing : ownBytes owner (r.zeroed owner).toList = 0 := by
    rw [hlist]
    exact ownBytes_zeroed r.toList
  refine ⟨retireOwner_eq hr hown, hlist, getD_slots_zeroed, ⟨?_, by omega, ?_⟩, ?_, ?_⟩
  · exact liveBytes_eq_ok.mpr ⟨hword, rfl⟩
  · exact liveBytes_eq_ok.mpr ⟨by omega, by omega⟩
  · intro record hrecord howner
    rw [hlist] at hrecord
    obtain ⟨old, -, rfl⟩ := List.mem_map.mp hrecord
    rw [ChunkRecord.owner_zeroed] at howner
    simp [ChunkRecord.isLive, ChunkRecord.size_zeroed_self howner]
  · have hlt : ownBytes owner (r.zeroed owner).toList < wordBound := by
      rw [hnothing]
      decide
    have hagain := retireOwner_eq hsound hlt
    rwa [hnothing, zeroed_zeroed] at hagain

/-- In a ring of three slots the records lie around the end of the buffer, two of them the
owner's. -/
theorem retirement_conserves_sample :
    let xs : List Action := [.push ⟨1, 10, 7⟩ false, .push ⟨2, 20, 7⟩ false, .push ⟨3, 30, 8⟩ false,
      .pop, .push ⟨4, 40, 7⟩ false]
    let r := xs.foldl act (ofCapacity 3)
    (r.head = 1 ∧ r.length = 3 ∧ r.liveSum < wordBound) ∧
      (r.retireOwner 7 = (.ok 60, r.zeroed 7) ∧ (r.zeroed 7).liveBytes = .ok 30) ∧
      (r.zeroed 7).toList = [⟨2, 0, 7⟩, ⟨3, 30, 8⟩, ⟨4, 0, 7⟩] := by
  intro xs r
  have hsum : r.liveSum < wordBound := by decide
  have hown : ownBytes 7 r.toList = 60 := by decide
  have hlive : r.liveSum = 90 := by decide
  obtain ⟨hanswer, hlist, -, ⟨-, -, hleft⟩, -, -⟩ := retirement_conserves 3 xs 7 hsum
  rw [hown] at hanswer hleft
  rw [hlive] at hleft
  exact ⟨⟨by decide, by decide, hsum⟩, ⟨hanswer, hleft⟩, hlist.trans (by decide)⟩

end Ring
end DemandPager
