/-
# When the ring is exhausted

A fault that finds a full ring which may not grow is fatal. Then each slot of the ring is taken by a
record, and nothing has left the ring in favour of the fault. The live ones among the records stand
for chunks that are resident, each for another (`Worker.exhausted_ring_full`).

The others were left by objects that have been released. A release only zeroes them, and they go
when the making of room comes to them, which does not happen while the bytes in use stay under the
high mark. So a ring can be exhausted although no chunk is resident
(`Worker.exhausted_without_pressure`).

Key theorems: `Worker.handleFault_exhausts`, `Worker.exhausted_ring_full`,
`Worker.exhausted_without_pressure`.
-/
import DemandPager.Proofs.Causes
import DemandPager.Proofs.Failures
import DemandPager.Proofs.Presence
import DemandPager.Proofs.Room
import DemandPager.Proofs.Slots

namespace DemandPager
namespace Worker

variable {π γ : Type} [Paging π] {m : Paging.Tidy π} {w w' : Worker π γ} {lost : Nat}

omit [Paging π] in
/-- Where no call was refused the last one was not. -/
theorem not_lastRefused {cause : PagerError} (h : ∀ x ∈ w.journal, x.refusal? = none) :
    ¬w.LastRefused cause := by
  rintro ⟨x, hx, hrefused⟩
  rw [h x (List.mem_of_getLast? hx)] at hrefused
  cases hrefused

/-- A ring that is exhausted is full, and it holds what it held before; or the last call was
refused with this error. -/
theorem loadChunk_exhausts {e : Interval (Object γ)} {k : Nat} (m : Paging.Tidy π)
    (hw : w.toDesk.Filed) (ho : w.toDesk.Owes lost) (he : e ∈ w.objects.toList)
    (hr : (e.chunkRecord k).IsChunkOf e k) (hpage : 0 < Paging.pageSize w.pages)
    (hsize : (e.value.geometry.chunk k).bytes ≤ w.scratch.size)
    (hle : w.used + (e.value.geometry.chunk k).bytes ≤ w.limits.high)
    (hlt : w.used + (e.value.geometry.chunk k).bytes < wordBound) :
    Ends (loadChunk { object := e.value, bodyStart := e.bodyStart,
                      span := e.value.geometry.chunk k }) w
      (fun _ _ => True) fun f w' => f = .error .ringExhausted →
        w'.LastRefused .ringExhausted ∨ w'.ringGrowable = false ∧
          w'.ring.toList.length = w'.ring.capacity ∧ w'.ring.toList <:+ w.ring.toList := by
  refine ((loadChunk_fails (m := m) (hw.regular he) hr hw.ring hpage hsize).and
    (loadChunk_excused hw ho he hr hsize hle hlt)).mono (fun _ _ _ => trivial) ?_
  rintro f w' ⟨hleft, hends⟩ rfl
  have hsuffix : w'.ring.toList <:+ w.ring.toList := by
    rcases hleft _ rfl with hsheds | hstranded
    · exact (hsheds.ring hw.ring).2
    · exact hstranded.records
  rcases hends with hexcused | ⟨-, hf | hf⟩
  · cases hexcused with
    | hindered hhindered => exact .inl hhindered.lastRefused
    | full hgrow hfull => exact .inr ⟨hgrow, hfull, hsuffix⟩
  · cases hf
  · cases hf

/-- A ring that is exhausted is full, and what it holds are the newest records of before; or the
last call was refused with this error. -/
theorem handleFault_exhausts (m : Paging.Tidy π) (address : Nat) (hw : w.toDesk.Filed)
    (ho : w.toDesk.Owes lost) (hmarks : w.limits.low ≤ w.limits.high)
    (hpage : ∀ e ∈ w.objects.toList, e.value.geometry.pageSize = Paging.pageSize w.pages) :
    Ends (handleFault address) w (fun _ _ => True) fun f w' => f = .error .ringExhausted →
      w'.LastRefused .ringExhausted ∨ w'.ringGrowable = false ∧
        w'.ring.toList.length = w'.ring.capacity ∧ w'.ring.toList <:+ w.ring.toList := by
  unfold handleFault
  simp only [ends_bind, ends_count, ends_get, ends_checked]
  refine ⟨fun site hsite => ?_, fun f hf hexhausted => ?_⟩
  · obtain ⟨e, he, -, -, hr, rfl⟩ := locateFault_eq_ok hw hsite
    set k := e.chunkNumber address
    rw [ends_ite]
    refine ⟨fun _ hexhausted => (by cases hexhausted), fun hlarge => ?_⟩
    have hfill : (e.value.geometry.chunk k).bytes ≤ w.limits.high := Nat.le_of_not_lt hlarge
    simp only [ends_bind, ends_checked, ends_set]
    refine ⟨fun scratch hgrow => ?_, fun f hf hexhausted => ?_⟩
    · obtain ⟨hscratch, hbytes⟩ := Buffer.growTo_size hw.scratch hgrow
      set grown : Worker π γ := { w with
        exchange := { w.exchange with stats := w.exchange.stats.record .fault }, scratch }
      have hfiled : grown.toDesk.Filed :=
        ⟨hw.objects, hw.built, hw.len, hw.ring, hw.chunks, hw.fits, hscratch⟩
      have howes : grown.toDesk.Owes lost := ho.of_eq rfl rfl rfl
      have hroom : Ends (evictFor (e.value.geometry.chunk k).bytes) grown
          (fun _ => Sheds m grown) fun _ => Sheds m grown := sheds_easing.evictFor _
      refine (((evictFor_ends (w := grown) hfiled howes hmarks hfill).and hroom).and
        (evictFor_refused (w := grown) hfiled howes)).mono ?_ ?_
      · rintro _ v ⟨⟨⟨es, hv, hle, hlt⟩, hsheds⟩, -⟩
        have hmem : e ∈ v.objects.toList := by
          rw [hv.objects]
          exact he
        have hpos : 0 < Paging.pageSize v.pages := by
          rw [hsheds.pageSize, show Paging.pageSize grown.pages = _ from (hpage e he).symm]
          exact (hw.regular he).page_pos
        have hloads := loadChunk_exhausts m hv.filed hv.owes hmem hr hpos
          (hbytes.trans hv.scratch) hle hlt
        refine hloads.mono (fun _ _ _ => trivial) fun f w' hexhausts hexhausted => ?_
        exact (hexhausts hexhausted).imp_right fun hfull =>
          ⟨hfull.1, hfull.2.1, hfull.2.2.trans hv.ring⟩
      · rintro f v ⟨-, hrefused⟩ rfl
        refine .inl ((hrefused _ rfl).resolve_right ?_)
        rintro ⟨-, hf | hf⟩
        · cases hf
        · cases hf
    · rw [Buffer.growTo_error hf] at hexhausted
      cases hexhausted
  · rcases locateFault_eq_error hw hf with rfl | rfl
    · cases hexhausted
    · cases hexhausted

/-- **A ring is exhausted by as many records as it has slots, live ones and those of released
objects.** In every run in which the host takes no page away and reserves no memory that an object
has, let the handling of a fault end with an exhausted ring, and not because the last call was
refused with just this error. Then the ring was not to grow, each of its slots is taken, and it
holds what it held before. Each live record is that of a chunk of an object, all of which is
resident, and no two are of one chunk. A record that is not live was left by an object that has
been released. So if there is no record of such objects, as many chunks are resident as there are
slots. -/
theorem exhausted_ring_full {o : Options} {gone : List Nat} (hm : Paging.Thorough m)
    (h : Run (undisturbed m) o gone w) (address : Nat) :
    Ends (handleFault address) w (fun _ _ => True) fun f w' => f = .error .ringExhausted →
      ¬w'.LastRefused .ringExhausted →
        (o.ringGrowable = false ∧ w'.ring.toList.length = max o.ringCapacity 1 ∧
          w'.ring.toList = w.ring.toList) ∧
        (∀ r ∈ w'.ring.toList, r.isLive → (∃ e ∈ w'.objects.toList, ∃ k, r.IsChunkOf e k) ∧
          r.Present m w'.pages) ∧
        (w'.ring.toList.Pairwise fun r r' => r.isLive → r'.isLive → r.address ≠ r'.address) ∧
        (∀ r ∈ w'.ring.toList, ¬r.isLive → r.owner ∈ gone) ∧
        ((∀ r ∈ w'.ring.toList, r.owner ∉ gone) →
          (w'.ring.toList.filter (·.isLive)).length = max o.ringCapacity 1) := by
  obtain ⟨hfiled, ⟨lost, howes⟩, hmarks⟩ := h.history.upright
  refine (handleFault_exhausts m address hfiled howes hmarks.le
    h.history.backed.page).exactly.mono (fun _ _ _ => trivial) ?_
  rintro _ w' ⟨herr, hcause⟩ rfl hnot
  obtain ⟨hgrow, hfull, hsuffix⟩ := (hcause rfl).resolve_left hnot
  have hrun : Run (undisturbed m) o gone w' := .fault h (.inr ⟨_, herr⟩)
  have hbacked := hrun.history.backed
  have hfixed : o.ringGrowable = false := hrun.slots.1.symm.trans hgrow
  have hslots : w'.ring.toList.length = max o.ringCapacity 1 := hfull.trans (hrun.slots.2 hfixed)
  have hdead := hrun.owner_gone
  refine ⟨⟨hfixed, hslots, hsuffix.eq_of_length_le ?_⟩, fun r hr hlive => ⟨?_, ?_⟩, hbacked.apart,
    hdead, fun hnone => ?_⟩
  · rw [hslots, ← h.slots.2 hfixed, Ring.length_toList hfiled.ring]
    exact hfiled.ring.length_le
  · exact hbacked.chunks r hr hlive
  · exact hrun.history.present hm r hr
  · rw [List.filter_eq_self.mpr fun r hr => ?_, hslots]
    by_contra hlive
    exact hnone r hr (hdead r hr hlive)

/-! ### Records that are left over -/

/-- The sample object was created, and one of its chunks was loaded. -/
def sampleLoaded (w : Worker ScriptedMemory Unit) : Worker ScriptedMemory Unit :=
  after (handleFault 0x10000000) (after (allocate sampleObject) w)

/-- Then it was released, and another was created. The record of its chunk is still in its slot. -/
def sampleLeftIn (w : Worker ScriptedMemory Unit) : Worker ScriptedMemory Unit :=
  after (allocate sampleSecond) (after (free 1 0x10000000) (sampleLoaded w))

theorem run_leftIn {o : Options} {w : Worker ScriptedMemory Unit}
    (h : Run (undisturbed ScriptedMemory.tidy) o [] w) (hnone : w.objects.toList = [])
    (hcreated : ending (allocate sampleObject) w = none)
    (hloaded : ending (handleFault 0x10000000) (after (allocate sampleObject) w) = none)
    (hreleased : ending (free 1 0x10000000) (sampleLoaded w) = none)
    (hempty : (after (free 1 0x10000000) (sampleLoaded w)).objects.toList.isEmpty)
    (hrecreated : ending (allocate sampleSecond)
      (after (free 1 0x10000000) (sampleLoaded w)) = none) :
    Run (undisturbed ScriptedMemory.tidy) o [1] (sampleLeftIn w) := by
  have hbuilt : sampleSecond.geometry.Built := sampleObject_built
  have hasks : ∀ {object : Object Unit} {v : Worker ScriptedMemory Unit},
      v.objects.toList = [] → (undisturbed ScriptedMemory.tidy).asks v object := by
    intro object v hv _ _ _ e he
    rw [hv] at he
    cases he
  have hplaced := h.allocate sampleObject_built (hasks hnone) (.inl (eq_ok_of_ending hcreated))
  obtain ⟨⟨⟩, hload⟩ := eq_ok_of_ending hloaded
  obtain ⟨⟨⟩, hrelease⟩ := eq_ok_of_ending hreleased
  have hgone := Run.free (.fault hplaced (.inl ⟨_, hload⟩)) hrelease
  exact .allocate hgone hbuilt (hasks (List.isEmpty_iff.mp hempty))
    (.inl (eq_ok_of_ending hrecreated))

/-- A ring with two slots, which may not grow. -/
def twoSlots : Options := { ringCapacity := 2, ringGrowable := false }

/-- The desk with such a ring. -/
def sampleTwoSlots : Worker ScriptedMemory Unit :=
  { sampleStart with ring := .ofCapacity 2, ringGrowable := false }

/-- One slot is taken by the record of the object that was released, the other by that of a chunk
of the second object. -/
def sampleHalfLeft : Worker ScriptedMemory Unit :=
  after (handleFault 0x10000090) (sampleLeftIn sampleTwoSlots)

theorem sampleHalfLeft_run : Run (undisturbed ScriptedMemory.tidy) twoSlots [1] sampleHalfLeft := by
  have hdesk : Desk.ofOptions 16 { high := 32, low := 16 } twoSlots =
      .ok sampleTwoSlots.toDesk := rfl
  have hstart : Run (undisturbed ScriptedMemory.tidy) twoSlots [] sampleTwoSlots :=
    .start hdesk (by decide) trivial
  have hleft := run_leftIn hstart rfl (by decide +kernel) (by decide +kernel) (by decide +kernel)
    (by decide +kernel) (by decide +kernel)
  have hending : ending (handleFault 0x10000090) (sampleLeftIn sampleTwoSlots) = none := by
    decide +kernel
  obtain ⟨⟨⟩, hloaded⟩ := eq_ok_of_ending hending
  exact .fault hleft (.inl ⟨_, hloaded⟩)

/-- One of the two records is that of the object that was released; the chunk of the other is
resident. -/
theorem exhausted_ring_full_sample :
    ∃ w', handleFault 0x100000A0 sampleHalfLeft = .error (.error .ringExhausted) w' ∧
      (∀ x ∈ w'.journal, x.refusal? = none) ∧
      w'.ring.toList.map (·.isLive) = [false, true] ∧ w'.ring.toList = sampleHalfLeft.ring.toList ∧
      (∀ r ∈ w'.ring.toList, r.isLive → r.Present ScriptedMemory.tidy w'.pages) ∧
      ∀ r ∈ w'.ring.toList, ¬r.isLive → r.owner ∈ [1] := by
  have hending : ending (handleFault 0x100000A0) sampleHalfLeft = some (.error .ringExhausted) := by
    decide +kernel
  have hjournal : ∀ x ∈ (after (handleFault 0x100000A0) sampleHalfLeft).journal,
      x.refusal? = none := by decide +kernel
  have hlive : (after (handleFault 0x100000A0) sampleHalfLeft).ring.toList.map (·.isLive) =
      [false, true] := by decide +kernel
  have hfault := eq_error_of_ending hending
  have hrun := sampleHalfLeft_run
  generalize after (handleFault 0x100000A0) sampleHalfLeft = w' at hfault hjournal hlive
  generalize sampleHalfLeft = w at hfault hrun ⊢
  have hfull := (exhausted_ring_full ScriptedMemory.thorough hrun 0x100000A0).of_error hfault rfl
    (not_lastRefused hjournal)
  exact ⟨_, hfault, hjournal, hlive, hfull.1.2.2, fun r hr h => (hfull.2.1 r hr h).2,
    hfull.2.2.2.1⟩

/-- A ring with one slot, which may not grow. -/
def oneSlot : Options := { ringCapacity := 1, ringGrowable := false }

/-- The slot is taken by the record of the object that was released. -/
def sampleLeft : Worker ScriptedMemory Unit := sampleLeftIn sampleNarrow

theorem sampleLeft_run : Run (undisturbed ScriptedMemory.tidy) oneSlot [1] sampleLeft := by
  have hdesk : Desk.ofOptions 16 { high := 32, low := 16 } oneSlot = .ok sampleNarrow.toDesk := rfl
  have hstart : Run (undisturbed ScriptedMemory.tidy) oneSlot [] sampleNarrow :=
    .start hdesk (by decide) trivial
  exact run_leftIn hstart rfl (by decide +kernel) (by decide +kernel) (by decide +kernel)
    (by decide +kernel) (by decide +kernel)

/-- **A ring can be exhausted although no chunk is resident.** The only record is that of an object
that was released. No call was refused, and no byte is in use. -/
theorem exhausted_without_pressure :
    Run (undisturbed ScriptedMemory.tidy) oneSlot [1] sampleLeft ∧
    ∃ w', handleFault 0x10000090 sampleLeft = .error (.error .ringExhausted) w' ∧
      (∀ x ∈ w'.journal, x.refusal? = none) ∧ w'.used = 0 ∧
      w'.ring.toList = [{ address := 0x10000000, size := 0, owner := 1 }] := by
  have hending : ending (handleFault 0x10000090) sampleLeft = some (.error .ringExhausted) := by
    decide +kernel
  exact ⟨sampleLeft_run, _, eq_error_of_ending hending, by decide +kernel, by decide +kernel,
    by decide +kernel⟩

end Worker
end DemandPager
