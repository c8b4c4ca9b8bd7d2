/-
# The slots of a ring that may not grow

A ring that may not grow keeps the slots that it was made with, whatever the worker does and however
that ends (`Worker.SameSlots`). What takes these slots are records: live ones, and those of objects
that are gone. A release zeroes the records of its object where they are, and nothing but the making
of room takes records away.

Along a run the ids of the objects that were released are kept (`Worker.Run`). A record that is not
live has one of them for its owner (`Worker.Run.owner_gone`).

Key definitions: `Worker.SameSlots`, `Worker.Run`.
Key theorems: `Moves.retired`, `Worker.Run.slots`, `Worker.Run.owner_gone`.
-/
import DemandPager.Proofs.Discretion
import DemandPager.Proofs.Fifo
import DemandPager.Proofs.Histories
import DemandPager.Proofs.Undoing

namespace DemandPager

variable {π γ α : Type}

/-! ### Retired records -/

section Retired

variable [Paging π] {s s' : View π γ} {r : ChunkRecord}

/-- After a move a record that is not live was there before, or its object has just gone. -/
theorem Move.retired (h : Move s s') (hs : ∀ e ∈ s.objects, e.value.geometry.Regular)
    (hr : r ∈ s'.records) (hdead : ¬r.isLive) :
    r ∈ s.records ∨ ∃ e ∈ s.objects, e ∉ s'.objects ∧ r.owner = e.value.id := by
  cases h with
  | skip hrecords => exact .inl (hrecords ▸ List.mem_cons_of_mem _ hr)
  | evict hrecords => exact .inl (hrecords ▸ List.mem_cons_of_mem _ hr)
  | lose hlose =>
    obtain ⟨hrecords, -⟩ := hlose
    exact .inl (hrecords ▸ List.mem_cons_of_mem _ hr)
  | load he hk =>
    rcases List.mem_append.mp hr with hold | hnew
    · exact .inl hold
    · rw [List.mem_singleton.mp hnew, ChunkRecord.isLive_iff] at hdead
      exact absurd (hk.size_pos (hs _ he)) hdead
  | @strike e _ _ _ _ _ he =>
    obtain ⟨x, hx, rfl⟩ := List.mem_map.mp hr
    by_cases howner : x.owner = e.value.id
    · refine .inr ⟨e, he, fun hmem => ?_, ?_⟩
      · simpa using (List.mem_filter.mp hmem).2
      · rw [if_pos howner]
        exact howner
    · rw [if_neg howner]
      exact .inl hx
  | _ => exact .inl hr

/-- After moves a record that is not live was there before, or its object has gone. -/
theorem Moves.retired (h : Moves s s') (hs : ∀ e ∈ s.objects, e.value.geometry.Regular)
    (hr : r ∈ s'.records) (hdead : ¬r.isLive) :
    r ∈ s.records ∨ ∃ e ∈ s.objects, e ∉ s'.objects ∧ r.owner = e.value.id := by
  induction h with
  | refl => exact .inl hr
  | tail hrun hmove ih =>
    have hsubset := Moves.objects_subset hrun
    rcases hmove.retired (fun e he => hs e (hsubset he)) hr hdead with hold | ⟨e, he, hgone, howner⟩
    · rcases ih hold with hfirst | ⟨e, he, hgone, howner⟩
      · exact .inl hfirst
      · exact .inr ⟨e, he, fun hlater => hgone (hmove.objects_subset hlater), howner⟩
    · exact .inr ⟨e, hsubset he, hgone, howner⟩

end Retired

/-- A new ring has the slots that are asked for, and one at least. -/
theorem Desk.capacity_ofOptions {pageSize : Nat} {limits : WaterMarks} {o : Options} {desk : Desk γ}
    (h : ofOptions pageSize limits o = .ok desk) : desk.ring.capacity = max o.ringCapacity 1 := by
  unfold ofOptions at h
  obtain ⟨bytes, -, h⟩ := Checked.bind_eq_ok.mp h
  obtain ⟨scratch, -, h⟩ := Checked.bind_eq_ok.mp h
  obtain ⟨ring, hring, h⟩ := Checked.bind_eq_ok.mp h
  cases h
  unfold Ring.allocate at hring
  split at hring
  · cases hring
    exact (Ring.standsFor_ofCapacity _).capacity
  · cases hring

namespace Worker

variable {w w' : Worker π γ}

/-! ### Slots -/

/-- A ring that may not grow has as many slots as before. -/
structure SameSlots (w w' : Worker π γ) : Prop where
  ringGrowable : w'.ringGrowable = w.ringGrowable
  capacity : w.ringGrowable = false → w'.ring.capacity = w.ring.capacity

instance : IsPreorder (Worker π γ) SameSlots where
  refl _ := ⟨rfl, fun _ => rfl⟩
  trans := fun _ _ _ h h' => ⟨h'.ringGrowable.trans h.ringGrowable, fun hfixed =>
    (h'.capacity (h.ringGrowable.trans hfixed)).trans (h.capacity hfixed)⟩

theorem sameSlots_of_eq (hring : w'.ring = w.ring) (hgrowable : w'.ringGrowable = w.ringGrowable) :
    SameSlots w w' :=
  ⟨hgrowable, fun _ => congrArg Ring.capacity hring⟩

theorem Leads.of_returns {R : Worker π γ → Worker π γ → Prop} {act : WorkerM π γ α}
    (h : Leads R act w) (hstep : Returns act w w') : R w w' :=
  (Ends.mono h (fun _ _ hv => hv) fun _ _ hv _ _ => hv : Ends act w (fun _ => R w)
    fun f v => ∀ cause, f = .error cause → R w v).of_returns hstep

theorem sameSlots_recordChunk (record : ChunkRecord) :
    Leads SameSlots (recordChunk record : WorkerM π γ Unit) w := by
  unfold recordChunk
  refine leads_get_bind ?_
  cases hpush : w.ring.push record w.ringGrowable with
  | error cause => exact refl_of SameSlots w
  | ok ring =>
    have hslots : SameSlots w { w with ring } :=
      ⟨rfl, fun hfixed => Ring.capacity_push (hfixed ▸ hpush)⟩
    unfold Leads
    rw [ends_bind, ends_settle_ok]
    refine leads_bind (leads_set hslots) fun _ v => leads_checked_bind fun used => ?_
    refine leads_bind (leads_modify (sameSlots_of_eq rfl rfl)) fun _ v => ?_
    exact leads_bind (leads_modify (sameSlots_of_eq rfl rfl)) fun _ v => leads_checkTotals

theorem sameSlots_fillChunk (object : Object γ) (span : Span) :
    Leads SameSlots (fillChunk object span : WorkerM π γ Bytes) w := by
  unfold fillChunk
  refine leads_bind (leads_modify (sameSlots_of_eq rfl rfl)) fun _ v => leads_get_bind ?_
  refine leads_bind (leads_set (sameSlots_of_eq rfl rfl)) fun _ v => ?_
  split
  · exact leads_refuse _
  · exact leads_throw _
  · refine leads_bind (leads_modify (sameSlots_of_eq rfl rfl)) fun _ v => ?_
    refine leads_bind (leads_modify (sameSlots_of_eq rfl rfl)) fun _ v => ?_
    exact leads_get_bind (leads_pure _)

theorem sameSlots_strike (id start : Nat) :
    Leads SameSlots (strike id start : WorkerM π γ (Object γ)) w := by
  unfold strike
  refine leads_get_bind (leads_settle_bind fun struck => ?_)
  refine leads_bind (leads_modify (sameSlots_of_eq rfl rfl)) fun _ v => leads_get_bind ?_
  refine leads_bind (leads_set ⟨rfl, fun _ => Ring.capacity_visit 0⟩) fun _ u => ?_
  refine leads_checked_bind fun released => leads_checked_bind fun used => ?_
  exact leads_bind (leads_modify (sameSlots_of_eq rfl rfl)) fun _ _ => leads_pure _

theorem sameSlots_finish (object : Object γ) :
    Leads SameSlots (finish object : WorkerM π γ Unit) w := by
  unfold finish
  cases object.callbacks.destructor with
  | none => exact leads_pure _
  | some destructor =>
    exact leads_bind (leads_modify (sameSlots_of_eq rfl rfl)) fun _ _ =>
      leads_modify (sameSlots_of_eq rfl rfl)

variable [Paging π]

/-- To make room moves the head of the ring. -/
theorem sameSlots_easing : Easing (SameSlots (π := π) (γ := γ)) where
  books _ _ _ _ _ := sameSlots_of_eq rfl rfl
  pop hpop := ⟨rfl, fun _ => Ring.capacity_pop hpop⟩
  handed _ _ _ _ _ := sameSlots_of_eq rfl rfl
  read _ := sameSlots_of_eq rfl rfl
  discard _ := sameSlots_of_eq rfl rfl

theorem sameSlots_loadChunk (site : FaultSite γ) :
    Leads SameSlots (loadChunk site : WorkerM π γ Unit) w := by
  unfold loadChunk
  refine leads_bind (sameSlots_fillChunk ..) fun content v => leads_checked_bind fun start => ?_
  refine leads_bind (leads_callPages fun _ _ _ => sameSlots_of_eq rfl rfl) fun result v => ?_
  refine leads_settle_bind fun installed => ?_
  split
  · exact sameSlots_recordChunk _
  · exact leads_modify (sameSlots_of_eq rfl rfl)

/-- **No fault changes the number of slots.** -/
theorem sameSlots_handleFault (address : Nat) :
    Leads SameSlots (handleFault address : WorkerM π γ Unit) w := by
  unfold handleFault
  refine leads_bind (leads_modify (sameSlots_of_eq rfl rfl)) fun _ v => leads_get_bind ?_
  refine leads_checked_bind fun site => ?_
  dsimp only
  split
  · exact leads_refuse_bind
  · refine leads_checked_bind fun scratch => ?_
    refine leads_bind (leads_set (sameSlots_of_eq rfl rfl)) fun _ u => ?_
    exact leads_bind (sameSlots_easing.evictFor _) fun _ u => sameSlots_loadChunk _

theorem sameSlots_writeBackAll : ∀ (addresses : List Nat) (w : Worker π γ),
    Leads SameSlots (writeBackAll addresses : WorkerM π γ Unit) w
  | [], _ => leads_pure _
  | address :: rest, _ =>
    leads_bind (sameSlots_easing.writeBackChunk address) fun _ v => sameSlots_writeBackAll rest v

theorem sameSlots_unmap (start len gate : Nat) :
    Leads SameSlots (unmap start len gate : WorkerM π γ Unit) w := by
  unfold unmap
  refine leads_bind (leads_modify (sameSlots_of_eq rfl rfl)) fun _ v => ?_
  refine leads_bind (leads_callPages fun _ _ _ => sameSlots_of_eq rfl rfl) fun result v => ?_
  cases result with
  | ok => exact leads_modify (sameSlots_of_eq rfl rfl)
  | error cause =>
    exact leads_bind (leads_modify (sameSlots_of_eq rfl rfl)) fun _ _ => leads_refuse _

/-- **No release changes the number of slots.** -/
theorem sameSlots_free (id start : Nat) :
    Leads SameSlots (free id start : WorkerM π γ Unit) w := by
  unfold free
  refine leads_get_bind ?_
  cases w.objectAt id start with
  | none => exact leads_refuse _
  | some entry =>
    refine leads_bind ?_ fun _ v => leads_bind (sameSlots_unmap ..) fun _ u => ?_
    · unfold handOverAll
      split
      · exact leads_get_bind (sameSlots_writeBackAll ..)
      · exact leads_pure _
    · unfold discharge
      refine leads_bind (sameSlots_strike ..) fun object v => ?_
      refine leads_bind (leads_callPages fun _ _ _ => sameSlots_of_eq rfl rfl) fun _ v => ?_
      refine leads_bind (sameSlots_finish _) fun _ v => ?_
      exact leads_bind (leads_modify (sameSlots_of_eq rfl rfl)) fun _ v => leads_checkTotals

/-- To create an object does not concern the ring. -/
theorem allocate_ring {o : Object γ} (hstep : Returns (allocate o) w w') :
    w'.ring = w.ring ∧ w'.ringGrowable = w.ringGrowable := by
  refine Ends.of_returns (P := fun v => v.ring = w.ring ∧ v.ringGrowable = w.ringGrowable)
    ((allocate_undoes o).mono ?_ ?_) hstep
  · rintro start _ ⟨-, pages, objects, -, -, rfl⟩
    exact ⟨rfl, rfl⟩
  · rintro f v hv cause hcause
    obtain ⟨pages, es, -, -, rfl⟩ := hv cause hcause
    exact ⟨rfl, rfl⟩

/-- Between two states that moves lead through, only objects that go leave records that are not
live. -/
theorem Upright.retired (h : w.Upright) (hmoves : Moves w.view w'.view) {r : ChunkRecord}
    (hr : r ∈ w'.ring.toList) (hdead : ¬r.isLive) : r ∈ w.ring.toList ∨
      ∃ e ∈ w.objects.toList, e ∉ w'.objects.toList ∧ r.owner = e.value.id :=
  Moves.retired hmoves (fun _ => h.filed.regular) hr hdead

/-- Where all objects stay, what is not live was not live before. -/
theorem Upright.retired_of_objects (h : w.Upright) (hmoves : Moves w.view w'.view)
    (hobjects : w'.objects = w.objects) {r : ChunkRecord} (hr : r ∈ w'.ring.toList)
    (hdead : ¬r.isLive) : r ∈ w.ring.toList := by
  rcases h.retired hmoves hr hdead with hold | ⟨e, he, hgone, -⟩
  · exact hold
  · exact absurd (hobjects ▸ he) hgone

/-! ### Runs -/

/-- The states of a worker between its operations, since its books were made with these options.
The objects with the ids `gone` were released, the last of them first. -/
inductive Run (σ : Surroundings π γ) (o : Options) : List Nat → Worker π γ → Prop
  | start {pageSize : Nat} {limits : WaterMarks} {desk : Desk γ} {site : Site π γ}
      (hdesk : Desk.ofOptions pageSize limits o = .ok desk) (hmarks : limits.low < limits.high)
      (hsite : σ.begins site) : Run σ o [] { toSite := site, toDesk := desk }
  /-- Callers and the host change the site, and the worker may come to another phase. -/
  | meanwhile {gone : List Nat} {w : Worker π γ} {site : Site π γ} {phase : Phase}
      (h : Run σ o gone w) (hsite : σ.drifts w.toSite site) :
      Run σ o gone { w with toSite := site, phase }
  | allocate {gone : List Nat} {w w' : Worker π γ} {object : Object γ} (h : Run σ o gone w)
      (hbuilt : object.geometry.Built) (hasked : σ.asks w object)
      (hstep : Returns (allocate object) w w') : Run σ o gone w'
  | free {gone : List Nat} {w w' : Worker π γ} {id start : Nat} (h : Run σ o gone w)
      (hstep : free id start w = .ok ⟨⟩ w') : Run σ o (id :: gone) w'
  /-- A release is refused. -/
  | refused {gone : List Nat} {w w' : Worker π γ} {id start : Nat} {cause : PagerError}
      (h : Run σ o gone w) (hstep : free id start w = .error (.error cause) w') : Run σ o gone w'
  | fault {gone : List Nat} {w w' : Worker π γ} {address : Nat} (h : Run σ o gone w)
      (hstep : Returns (handleFault address) w w') : Run σ o gone w'

namespace Run

variable {σ : Surroundings π γ} {o : Options} {gone : List Nat}

theorem history (h : Run σ o gone w) : History σ w := by
  induction h with
  | start hdesk hmarks hsite => exact .start hdesk hmarks hsite
  | meanwhile _ hsite ih => exact .meanwhile ih hsite
  | allocate _ hbuilt hasked hstep ih => exact .allocate ih hbuilt hasked hstep
  | free _ hstep ih => exact .free ih (.inl ⟨_, hstep⟩)
  | refused _ hstep ih => exact .free ih (.inr ⟨_, hstep⟩)
  | fault _ hstep ih => exact .fault ih hstep

/-- **A ring that may not grow has the slots that it was made with**, and one at least. -/
theorem slots (h : Run σ o gone w) : w.ringGrowable = o.ringGrowable ∧
    (o.ringGrowable = false → w.ring.capacity = max o.ringCapacity 1) := by
  have hstep : ∀ u u' : Worker π γ, SameSlots u u' → (u.ringGrowable = o.ringGrowable ∧
      (o.ringGrowable = false → u.ring.capacity = max o.ringCapacity 1)) →
      u'.ringGrowable = o.ringGrowable ∧
        (o.ringGrowable = false → u'.ring.capacity = max o.ringCapacity 1) := by
    intro u u' hsame hu
    refine ⟨hsame.ringGrowable.trans hu.1, fun hfixed => ?_⟩
    exact (hsame.capacity (hu.1.trans hfixed)).trans (hu.2 hfixed)
  induction h with
  | start hdesk =>
    obtain ⟨-, -, -, -, -, hgrowable, -⟩ := Desk.ofOptions_eq_ok hdesk
    exact ⟨hgrowable, fun _ => Desk.capacity_ofOptions hdesk⟩
  | meanwhile _ _ ih => exact ih
  | allocate _ _ _ hreturn ih =>
    obtain ⟨hring, hgrowable⟩ := allocate_ring hreturn
    exact hstep _ _ (sameSlots_of_eq hring hgrowable) ih
  | free _ hok ih => exact hstep _ _ ((sameSlots_free ..).of_returns (.inl ⟨_, hok⟩)) ih
  | refused _ herr ih => exact hstep _ _ ((sameSlots_free ..).of_returns (.inr ⟨_, herr⟩)) ih
  | fault _ hreturn ih => exact hstep _ _ ((sameSlots_handleFault _).of_returns hreturn) ih

/-- **A record that is not live was left by an object that was released.** -/
theorem owner_gone (h : Run σ o gone w) :
    ∀ r ∈ w.ring.toList, ¬r.isLive → r.owner ∈ gone := by
  induction h with
  | start hdesk =>
    obtain ⟨-, hrecords, -⟩ := Desk.ofOptions_eq_ok hdesk
    intro r hr
    rw [hrecords] at hr
    cases hr
  | meanwhile _ _ ih => exact ih
  | allocate _ _ _ hreturn ih =>
    rw [(allocate_ring hreturn).1]
    exact ih
  | free h hok ih =>
    have hupright := h.history.upright
    obtain ⟨lost, howes⟩ := hupright.owes
    obtain ⟨-, e, he, -, rfl, es, hfreed⟩ := (free_ends hupright.filed howes).of_ok hok
    intro r hr hdead
    rcases hupright.retired hfreed.moves hr hdead with hold | ⟨x, hx, hgone, howner⟩
    · exact List.mem_cons_of_mem _ (ih r hold hdead)
    · -- the object that went is the one that was released
      have hstart : x.start = e.start := by
        by_contra hne
        refine hgone ?_
        rw [hfreed.objects]
        exact List.mem_filter.mpr ⟨hx, by simpa using hne⟩
      rw [howner, hupright.filed.objects.eq_of_start hx he hstart]
      exact List.mem_cons_self ..
  | refused h herr ih =>
    have hupright := h.history.upright
    obtain ⟨lost, howes⟩ := hupright.owes
    rcases (free_ends hupright.filed howes).of_error herr with
      ⟨hf, -⟩ | ⟨hf, -⟩ | ⟨cause, es, -, hkept⟩
    · cases hf
    · cases hf
    exact fun r hr hdead =>
      ih r (hupright.retired_of_objects hkept.moves hkept.objects hr hdead) hdead
  | fault h hreturn ih =>
    have hupright := h.history.upright
    obtain ⟨es, hrest⟩ := (still_handleFault _).of_returns hreturn
    have hmoves := (hupright.fault hreturn).2.2
    exact fun r hr hdead => ih r (hupright.retired_of_objects hmoves hrest.objects hr hdead) hdead

end Run
end Worker
end DemandPager
