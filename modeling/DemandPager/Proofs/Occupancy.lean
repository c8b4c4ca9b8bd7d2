/-
# What is resident

A worker over a memory that refuses nothing and has no content yet creates objects,
handles faults and releases objects, in any order and with or without success, while
callers and the host may change the site as long as no page comes or goes. The
ring grows when it is full, each object has a number of its own, and each reservation
begins on a page and meets no other.

In every state that is reached, the live records are chunks of objects and do not meet,
and the pages that have content are those of the headers and those of the live records
(`Worker.residency_agrees`). So the bytes in use are the bytes of bodies that are
resident.

Key definitions: `Worker.Steady`, `Worker.bodyBytes`.
Key theorems: `Worker.Steady.settled`, `Worker.bodyBytes_eq`, `Worker.residency_agrees`.
-/
import Mathlib.Algebra.BigOperators.Ring.List
import DemandPager.Proofs.Budget
import DemandPager.Proofs.Settled

namespace DemandPager
namespace Worker

variable {γ : Type} {w w' : Worker ScriptedMemory γ}

/-- The states of a worker over a memory that refuses nothing. -/
inductive Steady : Worker ScriptedMemory γ → Prop
  /-- The books are new, and no page has content. -/
  | start {pageSize : Nat} {limits : WaterMarks} {o : Options} {desk : Desk γ}
      {site : Site ScriptedMemory γ} (hdesk : Desk.ofOptions pageSize limits o = .ok desk)
      (hmarks : limits.low < limits.high) (hgrow : o.ringGrowable = true)
      (hwilling : site.pages.Willing) (hempty : ∀ p, site.pages.table.contains p = false) :
      Steady { toSite := site, toDesk := desk }
  /-- Callers and the host change the site; the same pages have content, be it another. -/
  | meanwhile {w : Worker ScriptedMemory γ} {site : Site ScriptedMemory γ} (h : Steady w)
      (hwilling : site.pages.Willing) (hpage : site.pages.pageSize = w.pages.pageSize)
      (hcontains : ∀ p, site.pages.table.contains p = w.pages.table.contains p) :
      Steady { w with toSite := site }
  | allocate {w w' : Worker ScriptedMemory γ} {object : Object γ} (h : Steady w)
      (hbuilt : object.geometry.Built) (hfresh : Fresh object w.view)
      (haligned : object.geometry.pageSize ∣ w.pages.nextStart)
      (hstep : Returns (allocate object) w w') : Steady w'
  | free {w w' : Worker ScriptedMemory γ} {id start : Nat} (h : Steady w)
      (hstep : Returns (free id start) w w') : Steady w'
  | fault {w w' : Worker ScriptedMemory γ} {address : Nat} (h : Steady w)
      (hstep : Returns (handleFault address) w w') : Steady w'

/-- New books are settled. -/
theorem start_settled {pageSize : Nat} {limits : WaterMarks} {o : Options} {desk : Desk γ}
    {site : Site ScriptedMemory γ} (hdesk : Desk.ofOptions pageSize limits o = .ok desk)
    (hmarks : limits.low < limits.high) (hgrow : o.ringGrowable = true)
    (hwilling : site.pages.Willing) (hempty : ∀ p, site.pages.table.contains p = false) :
    desk.objects.toList = [] ∧ Settled 0 { toSite := site, toDesk := desk } := by
  obtain ⟨hfiled, howes⟩ := Desk.ofOptions_filed hdesk
  obtain ⟨hobjects, hrecords, -, -, rfl, hgrowable, -⟩ := Desk.ofOptions_eq_ok hdesk
  have hresides : Resides (view { toSite := site, toDesk := desk }) :=
    .of_empty hwilling (hgrowable.trans hgrow) hobjects hrecords hempty
  exact ⟨hobjects, hfiled, howes, hmarks, hresides⟩

/-- Every state that is reached is settled, and all its objects begin on pages. -/
theorem Steady.settled (h : Steady w) : Settled 0 w ∧ w.view.Paged := by
  induction h with
  | start hdesk hmarks hgrow hwilling hempty =>
    obtain ⟨hobjects, hsettled⟩ := start_settled hdesk hmarks hgrow hwilling hempty
    refine ⟨hsettled, ?_⟩
    unfold View.Paged Worker.view
    simp only [hobjects, List.not_mem_nil]
    exact fun _ he => he.elim
  | meanwhile _ hwilling hpage hcontains ih =>
    obtain ⟨hw, hpaged⟩ := ih
    have hsame : ∀ p, _ ↔ _ := fun p => Bool.eq_iff_iff.mp (hcontains p)
    exact ⟨⟨hw.filed, hw.owes, hw.marks, hw.resides.withSite hwilling hpage hsame _⟩, hpaged⟩
  | allocate _ hbuilt hfresh haligned hstep ih =>
    obtain ⟨hw, hpaged⟩ := ih
    obtain ⟨hw', hplacing⟩ := hw.allocate hbuilt hfresh hstep
    exact ⟨hw', hplacing.paged hw.resides hbuilt hpaged haligned⟩
  | free _ hstep ih =>
    obtain ⟨hw, hpaged⟩ := ih
    obtain ⟨hw', hmoves⟩ := hw.free hstep
    exact ⟨hw', fun e he => hpaged e (hmoves.objects_subset he)⟩
  | fault _ hstep ih =>
    obtain ⟨hw, hpaged⟩ := ih
    obtain ⟨hmoves, hw' | ⟨-, hunpaged⟩⟩ := hw.fault hstep
    · exact ⟨hw', fun e he => hpaged e (hmoves.objects_subset he)⟩
    · exact absurd hpaged hunpaged

/-! ### Resident bytes -/

/-- The bytes of bodies that are resident. -/
def bodyBytes (w : Worker ScriptedMemory γ) : Nat :=
  (w.pages.table.pages.keys.filter fun p =>
    w.objects.toList.any fun e => e.bodyStart ≤ p && p < e.start + e.len).length * w.pages.pageSize

theorem pagesIn_zero (ps start : Nat) : pagesIn ps start 0 = [] := by
  have hzero : (0 + ps - 1) / ps = 0 := by
    cases ps with
    | zero => rfl
    | succ n => exact Nat.div_eq_of_lt (by omega)
  unfold pagesIn
  rw [hzero]
  rfl

/-- The pages with content are those of the headers and those of the live records. -/
theorem contains_iff_of_paged {s : View ScriptedMemory γ} (h : Resides s) (hpaged : s.Paged)
    (p : Nat) : s.pages.table.contains p ↔ p % s.pages.pageSize = 0 ∧
      ((∃ e ∈ s.objects, e.InHeader p) ∨ ∃ r ∈ s.records, r.Covers p) := by
  have hstart : ∀ e ∈ s.objects, e.start % s.pages.pageSize = 0 := by
    intro e he
    rw [← h.page e he]
    exact Nat.mod_eq_zero_of_dvd (hpaged e he)
  constructor
  · intro hp
    obtain ⟨e, he, hholds, hmod⟩ := h.keyed p hp
    refine ⟨hmod.trans (hstart e he), ?_⟩
    by_cases hbody : e.bodyStart ≤ p
    · exact .inr (h.recorded e he (hstart e he) p hbody hholds hp)
    · exact .inl ⟨e, he, hholds.1, Nat.lt_of_not_le hbody⟩
  · rintro ⟨hmod, ⟨e, he, hin⟩ | ⟨r, hr, hcovers⟩⟩
    · exact h.header e he p hin (hmod.trans (hstart e he).symm)
    · obtain ⟨e, he, k, hk⟩ := h.chunks r hr hcovers.isLive
      apply h.covered r hr p hcovers
      rw [h.address_mod he hk, hmod, hstart e he]

/-- The pages of the chunk of a record; a retired record has none. -/
theorem mem_chunkPages {s : View ScriptedMemory γ} (h : Resides s) {r : ChunkRecord}
    (hr : r ∈ s.records) (p : Nat) : p ∈ pagesIn s.pages.pageSize r.address r.size ↔
      r.Covers p ∧ p % s.pages.pageSize = r.address % s.pages.pageSize := by
  by_cases hlive : r.isLive
  · obtain ⟨e, he, k, hk⟩ := h.chunks r hr hlive
    rw [mem_pagesIn (h.page_pos he) (h.size_dvd he hk)]
    unfold ChunkRecord.Covers
    rw [and_assoc]
  · have hzero : r.size = 0 := by
      rw [ChunkRecord.isLive_iff] at hlive
      exact Nat.eq_zero_of_not_pos hlive
    rw [hzero, pagesIn_zero]
    refine ⟨fun hp => absurd hp List.not_mem_nil, fun hp => absurd hp.1.isLive hlive⟩

/-- No page is one of two chunks, or twice one of the same. -/
theorem nodup_chunkPages {s : View ScriptedMemory γ} (h : Resides s) :
    (s.records.flatMap fun r => pagesIn s.pages.pageSize r.address r.size).Nodup := by
  refine List.nodup_flatMap.mpr ⟨fun r hr => ?_, ?_⟩
  · by_cases hlive : r.isLive
    · obtain ⟨e, he, -⟩ := h.chunks r hr hlive
      exact nodup_pagesIn (h.page_pos he) ..
    · rw [ChunkRecord.isLive_iff] at hlive
      rw [Nat.eq_zero_of_not_pos hlive, pagesIn_zero]
      exact List.nodup_nil
  · refine h.apart.imp_of_mem fun ha hb hab => ?_
    intro p hp hp'
    exact hab p ((mem_chunkPages h ha p).mp hp).1 ((mem_chunkPages h hb p).mp hp').1

theorem length_chunkPages {s : View ScriptedMemory γ} (h : Resides s) {r : ChunkRecord}
    (hr : r ∈ s.records) :
    (pagesIn s.pages.pageSize r.address r.size).length * s.pages.pageSize = r.size := by
  by_cases hlive : r.isLive
  · obtain ⟨e, he, k, hk⟩ := h.chunks r hr hlive
    exact length_pagesIn (h.page_pos he) (h.size_dvd he hk)
  · rw [ChunkRecord.isLive_iff] at hlive
    rw [Nat.eq_zero_of_not_pos hlive, pagesIn_zero]
    exact Nat.zero_mul _

/-- The pages of bodies that have content are those of the chunks on record. -/
theorem mem_bodyPages {s : View ScriptedMemory γ} (h : Resides s) (hpaged : s.Paged) (p : Nat) :
    (s.pages.table.contains p ∧ ∃ e ∈ s.objects, e.bodyStart ≤ p ∧ p < e.start + e.len) ↔
      ∃ r ∈ s.records, p ∈ pagesIn s.pages.pageSize r.address r.size := by
  constructor
  · rintro ⟨hp, e, he, hbody, hend⟩
    have hstart : e.start % s.pages.pageSize = 0 := by
      rw [← h.page e he]
      exact Nat.mod_eq_zero_of_dvd (hpaged e he)
    have hholds : e.Holds p := ⟨(Nat.le_add_right ..).trans hbody, hend⟩
    obtain ⟨r, hr, hcovers⟩ := h.recorded e he hstart p hbody hholds hp
    obtain ⟨e', he', k, hk⟩ := h.chunks r hr hcovers.isLive
    obtain rfl := h.eq_of_holds he he' hholds (h.holds he' hk hcovers).2
    have hmod : p % s.pages.pageSize = 0 := ((contains_iff_of_paged h hpaged p).mp hp).1
    have haddress : r.address % s.pages.pageSize = 0 := (h.address_mod he hk).trans hstart
    exact ⟨r, hr, (mem_chunkPages h hr p).mpr ⟨hcovers, hmod.trans haddress.symm⟩⟩
  · rintro ⟨r, hr, hp⟩
    obtain ⟨hcovers, hmod⟩ := (mem_chunkPages h hr p).mp hp
    obtain ⟨e, he, k, hk⟩ := h.chunks r hr hcovers.isLive
    have hholds := h.holds he hk hcovers
    exact ⟨h.covered r hr p hcovers hmod, e, he, hholds.1, hholds.2.2⟩

/-- **The bytes of bodies that are resident are those of the live records.** -/
theorem bodyBytes_eq (h : Settled 0 w) (hpaged : w.view.Paged) : w.bodyBytes = w.used := by
  have hs := h.resides
  -- both sides list each page once, so it is enough that they list the same pages
  have hperm : (w.pages.table.pages.keys.filter fun p =>
      w.objects.toList.any fun e => e.bodyStart ≤ p && p < e.start + e.len).Perm
      (w.ring.toList.flatMap fun r => pagesIn w.pages.pageSize r.address r.size) := by
    refine (List.perm_ext_iff_of_nodup ?_ (nodup_chunkPages hs)).mpr fun p => ?_
    · exact Std.TreeMap.nodup_keys.filter _
    · have hkeys : p ∈ w.pages.table.pages.keys ↔ w.pages.table.contains p :=
        Std.TreeMap.mem_keys
      rw [List.mem_filter, hkeys, List.mem_flatMap]
      simp only [List.any_eq_true, Bool.and_eq_true, decide_eq_true_eq]
      exact mem_bodyPages hs hpaged p
  calc w.bodyBytes
      = (w.ring.toList.flatMap fun r => pagesIn w.pages.pageSize r.address r.size).length *
          w.pages.pageSize := congrArg (· * _) hperm.length_eq
    _ = (w.ring.toList.map fun r =>
          (pagesIn w.pages.pageSize r.address r.size).length * w.pages.pageSize).sum := by
        rw [List.length_flatMap, List.sum_map_mul_right]
    _ = Ring.bytesOf w.ring.toList :=
        congrArg List.sum (List.map_congr_left fun _ hr => length_chunkPages hs hr)
    _ = w.used := h.owes.used.symm

/-- **Records and residency agree.** -/
theorem residency_agrees (h : Steady w) :
    (∀ r ∈ w.ring.toList, r.isLive → ∃ e ∈ w.objects.toList, e.value.id = r.owner ∧
      ∃ span, e.value.geometry.locate (r.address - e.bodyStart) = .ok (some span) ∧
        r.address = e.bodyStart + span.offset ∧ r.size = span.bytes) ∧
    (w.ring.toList.Pairwise fun r r' => ∀ p, r.Covers p → ¬r'.Covers p) ∧
    (∀ p, w.pages.table.contains p ↔ p % w.pages.pageSize = 0 ∧
      ((∃ e ∈ w.objects.toList, e.InHeader p) ∨ ∃ r ∈ w.ring.toList, r.Covers p)) ∧
    (∀ e ∈ w.objects.toList, ∀ p, e.InHeader p → ∀ r ∈ w.ring.toList, ¬r.Covers p) ∧
    w.bodyBytes = w.used ∧ w.used ≤ w.limits.high := by
  obtain ⟨hw, hpaged⟩ := h.settled
  have hs := hw.resides
  refine ⟨fun r hr hlive => ?_, hs.apart, contains_iff_of_paged hs hpaged, ?_,
    bodyBytes_eq hw hpaged, hw.owes.used_le⟩
  · obtain ⟨e, he, k, hk⟩ := hs.chunks r hr hlive
    refine ⟨e, he, hk.owner.symm, e.value.geometry.chunk k, ?_, hk.address, hk.size⟩
    rw [hk.address, Nat.add_sub_cancel_left]
    exact Geometry.locate_chunk (hs.regular he) hk.full_lt hk.hasChunk
  · intro e he p hin r hr hcovers
    obtain ⟨e', he', k, hk⟩ := hs.chunks r hr hcovers.isLive
    have hholds := hs.holds he' hk hcovers
    obtain rfl := hs.eq_of_holds he he' (hs.holds_header he hin) hholds.2
    exact absurd hin.2 (Nat.not_lt.mpr hholds.1)

/-- Runs of the sample object are over such a memory. -/
theorem sampleRun_steady : Steady (sampleRun []) := by
  have hwilling : sampleStart.pages.Willing := .of_nil rfl
  have hstart : Steady sampleStart := .start sampleDesk_eq (by decide) rfl hwilling fun _ => rfl
  have hfresh : Fresh sampleObject sampleStart.view := .of_nil rfl
  refine .allocate hstart sampleObject_built hfresh (by decide) (.inl ?_)
  exact eq_ok_of_ending (by decide +kernel)

theorem sampleRun_steady_fault {address : Nat} {rest : List Nat} (h : Steady (sampleRun rest))
    (hok : ending (handleFault address) (sampleRun rest) = none) :
    Steady (sampleRun (address :: rest)) :=
  .fault h (.inl (eq_ok_of_ending hok))

/-- After the third of three faults one chunk is resident, and it is the one on record. -/
theorem residency_agrees_sample :
    (sampleRun [0x10000020, 0x10000010, 0x10000000]).bodyBytes =
        (sampleRun [0x10000020, 0x10000010, 0x10000000]).used ∧
      (sampleRun [0x10000020, 0x10000010, 0x10000000]).used = 16 ∧
      (sampleRun [0x10000020, 0x10000010, 0x10000000]).ring.toList =
        [{ address := 0x10000020, size := 16, owner := 1 }] := by
  have h : Steady (sampleRun [0x10000020, 0x10000010, 0x10000000]) :=
    sampleRun_steady_fault (sampleRun_steady_fault (sampleRun_steady_fault sampleRun_steady
      (by decide +kernel)) (by decide +kernel)) (by decide +kernel)
  exact ⟨(residency_agrees h).2.2.2.2.1, by decide +kernel, by decide +kernel⟩

end Worker
end DemandPager
