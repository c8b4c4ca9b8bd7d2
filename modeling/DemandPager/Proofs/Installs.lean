/-
# What a fault installs

All objects share one scratch buffer. It grows and is never cleared, so before a chunk is
filled it may hold anything. Still, a fault installs at most one chunk, the one that its address
belongs to, and its content is what the callback wrote, with zeros behind
(`Worker.handleFault_installs`). If the callback overwrites its whole target with bytes that the
elements determine, then so is the content: in two runs, whatever happened in either before,
equal elements are installed as equal bytes (`Worker.installs_determined`).

The runs are those of `Worker.Reachable`, and they may go on after a fault that was not handled.

Key definitions: `installs`, `Object.Overwrites`, `Worker.FaultSite.HasImage`, `Worker.Ventured`,
`Worker.installedBy`.
Key theorems: `Filled.content_eq`, `Worker.handleFault_installs`, `Worker.Ventured.filed`,
`Worker.installs_determined`.
-/
import DemandPager.Proofs.Budget
import DemandPager.Proofs.Discretion
import DemandPager.Proofs.Easing
import DemandPager.Proofs.Stores

namespace DemandPager

variable {π γ : Type}

/-! ### Content -/

theorem Bytes.slice_append_left {a b : Bytes} {offset len : Nat} (h : offset + len ≤ a.length) :
    slice (a ++ b) offset len = slice a offset len := by
  have hdrop : (a ++ b).drop offset = a.drop offset ++ b :=
    List.drop_append_of_le_length (Nat.le_of_add_right_le h)
  have hlength : len ≤ (a.drop offset).length := by
    rw [List.length_drop]
    omega
  unfold slice
  rw [hdrop, List.take_append_of_le_length hlength]

/-- Whenever the callback fills its target it overwrites all of it, with bytes that the elements
determine. -/
def Object.Overwrites (o : Object γ) (out : Nat → Nat → Bytes) : Prop :=
  ∀ first stop target client, target.length = (stop - first) * o.geometry.stride →
    (o.callbacks.populate first stop target client).1 = .filled →
    (o.callbacks.populate first stop target client).2.1 = out first stop ∧
      (out first stop).length = target.length

/-- **What such a callback filled a chunk with does not depend on anything else.** -/
theorem Filled.content_eq {e : Interval (Object γ)} {k : Nat} {client client' : γ} {content : Bytes}
    {out : Nat → Nat → Bytes} (h : Filled e k client content client')
    (hout : e.value.Overwrites out) :
    (out (e.value.geometry.chunk k).first (e.value.geometry.chunk k).stop).length = e.contentLen k ∧
      content = out (e.value.geometry.chunk k).first (e.value.geometry.chunk k).stop ++
        Bytes.zeros ((e.value.geometry.chunk k).bytes - e.contentLen k) := by
  obtain ⟨target, filled, htarget, hfill, rfl⟩ := h
  have hcount : (e.value.geometry.chunk k).stop - (e.value.geometry.chunk k).first =
      (e.value.geometry.chunk k).count := Nat.add_sub_cancel_left ..
  have hlength : target.length =
      ((e.value.geometry.chunk k).stop - (e.value.geometry.chunk k).first) *
        e.value.geometry.stride := by
    rw [hcount, htarget]
    rfl
  have hend : (e.value.callbacks.populate (e.value.geometry.chunk k).first
      (e.value.geometry.chunk k).stop target client).1 = .filled := (Prod.mk.inj hfill).1
  obtain ⟨hwritten, hout⟩ := hout _ _ target client hlength hend
  have hfilled : filled = out (e.value.geometry.chunk k).first (e.value.geometry.chunk k).stop := by
    rw [(Object.fill_eq hfill).1, hwritten, Bytes.overlay_eq hout]
  exact ⟨hout.trans htarget, by rw [hfilled]⟩

namespace Worker

/-- The content that a chunk is installed with, and where, if its callback writes `out`. The
bytes of each element are at the place of the element. -/
structure FaultSite.HasImage (site : FaultSite γ) (out : Nat → Nat → Bytes) (start : Nat)
    (content : Bytes) : Prop where
  place : start = site.bodyStart + site.span.first * site.object.geometry.stride
  written : (out site.span.first site.span.stop).length =
    site.span.count * site.object.geometry.stride
  whole : content = out site.span.first site.span.stop ++
    Bytes.zeros (site.span.bytes - site.span.count * site.object.geometry.stride)
  length : content.length = site.span.bytes
  elements : ∀ i, site.span.first ≤ i → i < site.span.stop →
    Bytes.slice content (site.bodyStart + i * site.object.geometry.stride - start)
        site.object.geometry.stride =
      Bytes.slice (out site.span.first site.span.stop)
        ((i - site.span.first) * site.object.geometry.stride) site.object.geometry.stride

/-- An image has its elements at their places. -/
theorem FaultSite.HasImage.intro {site : FaultSite γ} {out : Nat → Nat → Bytes} {start : Nat}
    {content : Bytes}
    (hstart : start = site.bodyStart + site.span.first * site.object.geometry.stride)
    (hwritten : (out site.span.first site.span.stop).length =
      site.span.count * site.object.geometry.stride)
    (hfits : site.span.count * site.object.geometry.stride ≤ site.span.bytes)
    (hcontent : content = out site.span.first site.span.stop ++
      Bytes.zeros (site.span.bytes - site.span.count * site.object.geometry.stride)) :
    site.HasImage out start content where
  place := hstart
  written := hwritten
  whole := hcontent
  length := by
    rw [hcontent, List.length_append, hwritten, Bytes.zeros, List.length_replicate]
    omega
  elements := by
    intro i hfirst hstop
    set stride := site.object.geometry.stride
    have hoffset : site.bodyStart + i * stride - start = (i - site.span.first) * stride := by
      rw [hstart, Nat.sub_mul]
      have hle : site.span.first * stride ≤ i * stride := Nat.mul_le_mul_right _ hfirst
      omega
    have hwithin : (i - site.span.first) * stride + stride ≤ site.span.count * stride := by
      rw [← Nat.succ_mul]
      refine Nat.mul_le_mul_right _ ?_
      unfold Span.stop at hstop
      omega
    rw [hoffset, hcontent]
    exact Bytes.slice_append_left (hwritten ▸ hwithin)

end Worker

/-! ### Entries of installs -/

/-- Where an entry says that content was to be installed, and which. -/
def JournalEntry.installed? : JournalEntry → Option (Nat × Bytes)
  | .install start content _ => some (start, content)
  | _ => none

/-- The installs that entries tell of. -/
def installs (es : List JournalEntry) : List (Nat × Bytes) := es.filterMap JournalEntry.installed?

theorem installs_append (es es' : List JournalEntry) :
    installs (es ++ es') = installs es ++ installs es' := List.filterMap_append

/-- No install was entered, the objects are the same, and the scratch buffer has its size. -/
def Uninstalling (w w' : Worker π γ) : Prop :=
  (∃ es, w'.journal = w.journal ++ es ∧ installs es = []) ∧ w'.objects = w.objects ∧
    w'.scratch.size = w.scratch.size

theorem Uninstalling.refl (w : Worker π γ) : Uninstalling w w :=
  ⟨⟨[], (List.append_nil _).symm, rfl⟩, rfl, rfl⟩

theorem Uninstalling.trans {w v w' : Worker π γ} (h : Uninstalling w v) (h' : Uninstalling v w') :
    Uninstalling w w' := by
  obtain ⟨⟨es, hjournal, hes⟩, hobjects, hsize⟩ := h
  obtain ⟨⟨es', hjournal', hes'⟩, hobjects', hsize'⟩ := h'
  refine ⟨⟨es ++ es', ?_, ?_⟩, hobjects'.trans hobjects, hsize'.trans hsize⟩
  · rw [hjournal', hjournal, List.append_assoc]
  · rw [installs_append, hes, hes']
    rfl

instance : IsPreorder (Worker π γ) Uninstalling where
  refl := .refl
  trans _ _ _ := .trans

theorem Uninstalling.of_eq {w w' : Worker π γ} (hjournal : w'.journal = w.journal)
    (hobjects : w'.objects = w.objects) (hsize : w'.scratch.size = w.scratch.size) :
    Uninstalling w w' :=
  ⟨⟨[], hjournal.trans (List.append_nil _).symm, rfl⟩, hobjects, hsize⟩

/-- An entry that tells of no install is made. -/
theorem Uninstalling.entry {w w' : Worker π γ} {x : JournalEntry} (hx : x.installed? = none)
    (hjournal : w'.journal = w.journal ++ [x]) (hobjects : w'.objects = w.objects)
    (hsize : w'.scratch.size = w.scratch.size) : Uninstalling w w' :=
  ⟨⟨[x], hjournal, List.filterMap_cons_none hx⟩, hobjects, hsize⟩

namespace Worker

variable {α : Type} {w w' : Worker π γ}

theorem uninstalling_note {x : JournalEntry} (hx : x.installed? = none) :
    Leads Uninstalling (note x : WorkerM π γ Unit) w := .entry hx rfl rfl rfl

theorem uninstalling_count (event : WorkEvent) :
    Leads Uninstalling (count event : WorkerM π γ Unit) w := .of_eq rfl rfl rfl

theorem uninstalling_recordChunk (record : ChunkRecord) :
    Leads Uninstalling (recordChunk record : WorkerM π γ Unit) w := by
  unfold recordChunk
  refine leads_get_bind (leads_settle_bind fun ring => ?_)
  refine leads_bind (.of_eq rfl rfl rfl) fun _ v => leads_checked_bind fun used => ?_
  refine leads_bind (.of_eq rfl rfl rfl) fun _ v => ?_
  exact leads_bind (uninstalling_count _) fun _ v => leads_checkTotals

/-- To fill a chunk is not to install it. -/
theorem uninstalling_fillChunk (object : Object γ) (span : Span) :
    Leads Uninstalling (fillChunk object span : WorkerM π γ Bytes) w := by
  unfold fillChunk
  refine leads_bind (uninstalling_note rfl) fun _ v => leads_get_bind ?_
  refine leads_bind (.of_eq rfl rfl rfl) fun _ v => ?_
  split
  · exact leads_refuse _
  · exact leads_throw _
  · refine leads_bind (uninstalling_count _) fun _ v => ?_
    exact leads_bind (.of_eq rfl rfl rfl) fun _ v => leads_get_bind (leads_pure _)

variable [Paging π]

/-! ### Making room -/

/-- To make room is to install nothing. -/
theorem uninstalling_easing : Easing (Uninstalling (π := π) (γ := γ)) where
  books _ _ _ _ _ := .of_eq rfl rfl rfl
  pop _ := .of_eq rfl rfl rfl
  handed _ _ _ _ _ := .entry rfl rfl rfl rfl
  read _ := .entry rfl rfl rfl rfl
  discard _ := .entry rfl rfl rfl rfl

/-! ### The installs of a fault -/

omit [Paging π] in
/-- The installs that the step entered, each of the chunk that an address belongs to, with
content that its callback wrote. -/
structure Installs (address : Nat) (w w' : Worker π γ) (xs : List (Nat × Bytes)) : Prop where
  journal : ∃ es, w'.journal = w.journal ++ es ∧ installs es = xs
  filled : ∀ x ∈ xs, ∃ e k client client', e.value.geometry.Regular ∧
    locateFault w.objects address =
      .ok { object := e.value, bodyStart := e.bodyStart, span := e.value.geometry.chunk k } ∧
    x.1 = e.chunkStart k ∧ Filled e k client x.2 client'

omit [Paging π] in
theorem Installs.of_uninstalling {address : Nat} (h : Uninstalling w w') :
    Installs address w w' [] :=
  ⟨h.1, fun _ hx => absurd hx List.not_mem_nil⟩

omit [Paging π] in
/-- What was done before nothing was installed makes no difference. -/
theorem Installs.of_later {v : Worker π γ} {address : Nat} {xs : List (Nat × Bytes)}
    (h : Installs address v w' xs) (hv : Uninstalling w v) : Installs address w w' xs := by
  obtain ⟨⟨es, hjournal, hes⟩, hobjects, -⟩ := hv
  obtain ⟨es', hjournal', hes'⟩ := h.journal
  refine ⟨⟨es ++ es', ?_, ?_⟩, hobjects ▸ h.filled⟩
  · rw [hjournal', hjournal, List.append_assoc]
  · rw [installs_append, hes, hes']
    rfl

/-- Loading a chunk installs it, unless it cannot be filled. -/
theorem loadChunk_installs {e : Interval (Object γ)} {k address : Nat}
    (hg : e.value.geometry.Regular)
    (hsize : (e.value.geometry.chunk k).bytes ≤ w.scratch.size)
    (hlocate : locateFault w.objects address =
      .ok { object := e.value, bodyStart := e.bodyStart, span := e.value.geometry.chunk k }) :
    Ends (loadChunk
      { object := e.value, bodyStart := e.bodyStart, span := e.value.geometry.chunk k }) w
      (fun _ w' => ∃ x, Installs address w w' [x])
      fun _ w' => ∃ xs, xs.length ≤ 1 ∧ Installs address w w' xs := by
  unfold loadChunk
  simp only [ends_bind, ends_checked]
  refine ((fillChunk_ends hg hsize).and (uninstalling_fillChunk ..)).mono ?_
    fun _ v hv => ⟨[], Nat.zero_le _, .of_uninstalling hv.2⟩
  rintro content v ⟨⟨-, -, hfill⟩, hv⟩
  refine ⟨fun start hstart => ?_, fun _ _ => ⟨[], Nat.zero_le _, .of_uninstalling hv⟩⟩
  obtain ⟨-, rfl⟩ := Word.add_eq_ok.mp hstart
  refine ends_callPages fun result pages _ => ?_
  set u : Worker π γ := { v with
    pages, journal := v.journal ++ [.install (e.chunkStart k) content result] }
  have hu : Installs address w u [(e.chunkStart k, content)] := by
    obtain ⟨⟨es, hjournal, hes⟩, -, -⟩ := hv
    refine ⟨⟨es ++ [.install (e.chunkStart k) content result], ?_, ?_⟩, fun x hx => ?_⟩
    · show v.journal ++ _ = _
      rw [hjournal, List.append_assoc]
    · rw [installs_append, hes]
      rfl
    · rw [List.mem_singleton.mp hx]
      exact ⟨e, k, w.client, v.client, hg, hlocate, rfl, hfill⟩
  have hafter : ∀ w', Uninstalling u w' → Installs address w w' [(e.chunkStart k, content)] := by
    rintro w' ⟨⟨es, hjournal, hes⟩, -, -⟩
    obtain ⟨es', hjournal', hes'⟩ := hu.journal
    refine ⟨⟨es' ++ es, ?_, ?_⟩, hu.filled⟩
    · rw [hjournal, hjournal', List.append_assoc]
    · rw [installs_append, hes, hes']
      rfl
  rw [ends_settle]
  refine ⟨fun installed _ => ?_, fun cause _ => ⟨_, Nat.le_refl _, hu⟩⟩
  have hrest : ∀ r : ChunkRecord, Leads Uninstalling
      (if installed = true then recordChunk r else count .duplicateFault) u := by
    intro r
    split
    · exact uninstalling_recordChunk r
    · exact uninstalling_count _
  exact Ends.mono (hrest _) (fun _ w' hw' => ⟨_, hafter w' hw'⟩)
    fun _ w' hw' => ⟨_, Nat.le_refl _, hafter w' hw'⟩

/-- **A fault installs the chunk that its address belongs to, and nothing else.** One that is not
handled may install nothing. -/
theorem handleFault_installs {address : Nat} (hw : w.toDesk.Filed) :
    Ends (handleFault address) w (fun _ w' => ∃ x, Installs address w w' [x])
      fun _ w' => ∃ xs, xs.length ≤ 1 ∧ Installs address w w' xs := by
  have hnone : ∀ w', Uninstalling w w' → ∃ xs, xs.length ≤ 1 ∧ Installs address w w' xs :=
    fun w' h => ⟨[], Nat.zero_le _, .of_uninstalling h⟩
  unfold handleFault
  simp only [ends_bind, ends_count, ends_get, ends_checked]
  refine ⟨fun site hsite => ?_, fun _ _ => hnone _ (.of_eq rfl rfl rfl)⟩
  obtain ⟨e, he, -, -, -, rfl⟩ := locateFault_eq_ok hw hsite
  set k := e.chunkNumber address
  rw [ends_ite]
  refine ⟨fun _ => hnone _ (.of_eq rfl rfl rfl), fun _ => ?_⟩
  simp only [ends_bind, ends_checked, ends_set]
  refine ⟨fun scratch hgrow => ?_, fun _ _ => hnone _ (.of_eq rfl rfl rfl)⟩
  have hbytes : (e.value.geometry.chunk k).bytes ≤ scratch.size := Buffer.le_size_of_growTo hgrow
  set grown : Worker π γ := { w with
    exchange := { w.exchange with stats := w.exchange.stats.record .fault }, scratch }
  have hgrown : ∀ {w'} {xs}, Installs address grown w' xs → Installs address w w' xs :=
    fun h => ⟨h.journal, h.filled⟩
  refine Ends.mono (uninstalling_easing.evictFor (w := grown) _) ?_
    fun _ v hv => ⟨[], Nat.zero_le _, hgrown (.of_uninstalling hv)⟩
  intro _ v hv
  obtain ⟨-, hobjects, hscratch⟩ := id hv
  have hlocate : locateFault v.objects address =
      .ok { object := e.value, bodyStart := e.bodyStart, span := e.value.geometry.chunk k } := by
    rw [hobjects]
    exact hsite
  refine (loadChunk_installs (hw.regular he) (hscratch ▸ hbytes) hlocate).mono ?_ ?_
  · rintro _ w' ⟨x, hx⟩
    exact ⟨x, hgrown (hx.of_later hv)⟩
  · rintro _ w' ⟨xs, hlength, hxs⟩
    exact ⟨xs, hlength, hgrown (hxs.of_later hv)⟩

omit [Paging π] in
/-- What is installed is the image of the chunk. -/
theorem Installs.hasImage {address : Nat} {xs : List (Nat × Bytes)} (h : Installs address w w' xs)
    {x : Nat × Bytes} (hx : x ∈ xs) : ∃ site, locateFault w.objects address = .ok site ∧
      ∀ out, site.object.Overwrites out → site.HasImage out x.1 x.2 := by
  obtain ⟨e, k, client, client', hg, hlocate, hstart, hfill⟩ := h.filled x hx
  refine ⟨_, hlocate, fun out hout => ?_⟩
  obtain ⟨hwritten, hcontent⟩ := hfill.content_eq hout
  refine .intro ?_ hwritten hg.content_le_bytes hcontent
  rw [hstart, Geometry.first_mul_stride]
  rfl

/-! ### Runs -/

/-- The states of a worker between its operations, also after a fault that was not handled. The
scratch buffer may be of any length and hold anything. -/
inductive Ventured : Worker π γ → Prop
  | reached {w : Worker π γ} (h : Reachable w) : Ventured w
  | scribble {w : Worker π γ} {scratch : Buffer} (h : Ventured w)
      (hsize : Word.isAllocatable scratch.size) : Ventured { w with scratch }
  | meanwhile {w : Worker π γ} {site : Site π γ} (h : Ventured w) :
      Ventured { w with toSite := site }
  | allocate {w w' : Worker π γ} {object : Object γ} (h : Ventured w)
      (hbuilt : object.geometry.Built) (hstep : Returns (allocate object) w w') : Ventured w'
  | free {w w' : Worker π γ} {id start : Nat} (h : Ventured w)
      (hstep : Returns (free id start) w w') : Ventured w'
  | fault {w w' : Worker π γ} {address : Nat} (h : Ventured w)
      (hstep : Returns (handleFault address) w w') : Ventured w'

/-- The books are filed and within the budget, whatever they owe. -/
structure Tolerable (w : Worker π γ) : Prop where
  filed : w.toDesk.Filed
  owes : ∃ lost, w.toDesk.Owes lost
  marks : w.limits.low ≤ w.limits.high

omit [Paging π] in
theorem Kept.tolerable {es : List JournalEntry} {lost : Nat} (h : Kept w w' es) (hw : w.Tolerable)
    (hfiled : w'.toDesk.Filed) (howes : w'.toDesk.Owes lost) : w'.Tolerable :=
  ⟨hfiled, ⟨lost, howes⟩, by rw [h.limits]; exact hw.marks⟩

theorem Ventured.tolerable (h : Ventured w) : w.Tolerable := by
  induction h with
  | reached h => exact ⟨h.inOrder.filed, ⟨0, h.inOrder.owes⟩, h.inOrder.marks.le⟩
  | scribble _ hsize ih =>
    obtain ⟨hfiled, ⟨lost, howes⟩, hmarks⟩ := ih
    exact ⟨⟨hfiled.objects, hfiled.built, hfiled.len, hfiled.ring, hfiled.chunks,
      hfiled.fits, hsize⟩,
      ⟨lost, howes.of_eq rfl rfl rfl⟩, hmarks⟩
  | meanwhile _ ih => exact ⟨ih.filed, ih.owes, ih.marks⟩
  | allocate _ hbuilt hstep ih =>
    obtain ⟨lost, howes⟩ := ih.owes
    refine Ends.of_returns (P := Tolerable) ?_ hstep
    refine (allocate_ends ih.filed howes hbuilt).mono ?_ ?_
    · rintro _ v ⟨es, hv⟩
      exact hv.toKept.tolerable ih hv.filed hv.owes
    · rintro f v (⟨breach, rfl, -⟩ | ⟨cause, es, rfl, hv⟩) _ hcause
      · cases hcause
      · exact hv.toKept.tolerable ih hv.filed hv.owes
  | free _ hstep ih =>
    obtain ⟨lost, howes⟩ := ih.owes
    refine Ends.of_returns (P := Tolerable) ?_ hstep
    refine (free_ends ih.filed howes).mono ?_ ?_
    · rintro _ v ⟨-, e, -, -, -, es, hv⟩
      exact hv.toKept.tolerable ih hv.filed hv.owes
    · rintro f v (⟨rfl, -⟩ | ⟨rfl, -⟩ | ⟨cause, es, rfl, hv⟩) _ hcause
      · cases hcause
      · cases hcause
      · exact hv.toKept.tolerable ih hv.filed hv.owes
  | fault _ hstep ih =>
    obtain ⟨lost, howes⟩ := ih.owes
    refine Ends.of_returns (P := Tolerable) ?_ hstep
    refine (handleFault_ends ih.filed howes ih.marks).mono ?_ ?_
    · rintro _ v ⟨es, hv⟩
      exact hv.toKept.tolerable ih hv.filed hv.owes
    · rintro f v (⟨breach, rfl, -⟩ | ⟨cause, es, rfl, hv⟩) _ hcause
      · cases hcause
      · -- a chunk that could not be read is owed from now on
        rcases hv.owes with ⟨-, ho⟩ | ⟨-, ⟨r, -, -, ho⟩, -⟩
        · exact hv.toKept.tolerable ih hv.filed ho
        · exact hv.toKept.tolerable ih hv.filed ho

/-- The installs that a fault enters. -/
def installedBy (address : Nat) (w : Worker π γ) : List (Nat × Bytes) :=
  installs ((after (handleFault address) w).journal.drop w.journal.length)

/-- The installs of a fault are known from its entries. -/
theorem Ventured.installs_once (h : Ventured w) (address : Nat) :
    (installedBy address w).length ≤ 1 ∧
      Installs address w (after (handleFault address) w) (installedBy address w) ∧
      ∀ w', handleFault address w = .ok () w' → (installedBy address w).length = 1 := by
  have heq : ∀ w' xs, after (handleFault address) w = w' → Installs address w w' xs →
      installedBy address w = xs := by
    rintro _ xs rfl hxs
    obtain ⟨es, hjournal, hes⟩ := hxs.journal
    unfold installedBy
    rw [hjournal, List.drop_left, hes]
  have hends : Ends (handleFault address) w (fun _ w' => ∃ x, Installs address w w' [x])
      fun _ w' => ∃ xs, xs.length ≤ 1 ∧ Installs address w w' xs :=
    handleFault_installs h.tolerable.filed
  have hafter : ∃ xs, xs.length ≤ 1 ∧ Installs address w (after (handleFault address) w) xs := by
    refine Leads.after (R := fun w w' => ∃ xs, xs.length ≤ 1 ∧ Installs address w w' xs) ?_
    refine Ends.mono hends ?_ fun _ _ h => h
    rintro _ w' ⟨x, hx⟩
    exact ⟨[x], Nat.le_refl _, hx⟩
  obtain ⟨xs, hlength, hxs⟩ := hafter
  rw [heq _ xs rfl hxs]
  refine ⟨hlength, hxs, fun w' hok => ?_⟩
  obtain ⟨x, hx⟩ := hends.of_ok hok
  have hone := heq w' [x] (by unfold after; rw [hok]) hx
  rw [← heq _ xs rfl hxs, hone]
  rfl

/-- **Installed content depends on the callback only.** In any two runs, whatever was loaded
before and whatever the scratch buffer holds: a fault installs at most one chunk, and one if it is
handled; if the callback of its object overwrites its whole target with bytes that the elements
determine, the chunk is installed as those bytes, with zeros behind them and each element at its
place. So equal elements are installed as equal content in both runs. -/
theorem installs_determined {w v : Worker π γ} (hw : Ventured w) (hv : Ventured v)
    (address address' : Nat) (out : Nat → Nat → Bytes) :
    (installedBy address w).length ≤ 1 ∧
    (∀ w', handleFault address w = .ok () w' → (installedBy address w).length = 1) ∧
    (∀ x ∈ installedBy address w, ∃ site, locateFault w.objects address = .ok site ∧
      (site.object.Overwrites out → site.HasImage out x.1 x.2)) ∧
    ∀ site site', locateFault w.objects address = .ok site →
      locateFault v.objects address' = .ok site' → site.span = site'.span →
      site.object.geometry.stride = site'.object.geometry.stride →
      site.object.Overwrites out → site'.object.Overwrites out →
      ∀ x ∈ installedBy address w, ∀ y ∈ installedBy address' v,
        x.2 = y.2 ∧ x.1 - site.bodyStart = y.1 - site'.bodyStart := by
  obtain ⟨hlength, hinstalls, hhandled⟩ := hw.installs_once address
  obtain ⟨-, hinstalls', -⟩ := hv.installs_once address'
  refine ⟨hlength, hhandled, fun x hx => ?_, ?_⟩
  · obtain ⟨site, hlocate, himage⟩ := hinstalls.hasImage hx
    exact ⟨site, hlocate, himage out⟩
  · intro site site' hlocate hlocate' hspan hstride hout hout' x hx y hy
    obtain ⟨s, hs, himage⟩ := hinstalls.hasImage hx
    obtain ⟨t, ht, himage'⟩ := hinstalls'.hasImage hy
    obtain rfl : site = s := Except.ok.inj (hlocate.symm.trans hs)
    obtain rfl : site' = t := Except.ok.inj (hlocate'.symm.trans ht)
    have hx := himage out hout
    have hy := himage' out hout'
    refine ⟨?_, ?_⟩
    · rw [hx.whole, hy.whole, hspan, hstride]
    · rw [hx.place, hy.place, hspan, hstride]
      omega

/-! ### Two runs -/

/-- The elements from the first number to before the second; each is four bytes, one more than its
number. -/
def numbered (first stop : Nat) : Bytes :=
  (List.range' first (stop - first)).flatMap fun i => List.replicate 4 (UInt8.ofNat (i + 1))

/-- An object of eighteen elements of four bytes. A chunk has sixteen elements, and the second has
two in a page of sixteen bytes. -/
def sampleNumbers : Object Unit where
  id := 1
  geometry :=
    { pageSize := 16, headerSize := 0, paddedHeader := 0, count := 18, stride := 4, loadCount := 16,
      readOnly := true }
  callbacks := { populate := fun first stop _ client => (.filled, numbered first stop, client) }
  gate := 0

theorem sampleNumbers_built : sampleNumbers.geometry.Built :=
  ⟨16, 0, 18, 4, some 16, _, false, rfl, rfl⟩

theorem sampleNumbers_overwrites : sampleNumbers.Overwrites numbered := by
  intro first stop target client htarget _
  refine ⟨rfl, ?_⟩
  have hfour : ∀ l : List Nat, (l.flatMap fun i => List.replicate 4 (UInt8.ofNat (i + 1))).length =
      l.length * 4 := by
    intro l
    induction l with
    | nil => rfl
    | cons i l ih =>
      rw [List.flatMap_cons, List.length_append, ih, List.length_replicate, List.length_cons]
      omega
  rw [htarget]
  unfold numbered
  rw [hfour, List.length_range']
  rfl

/-- A worker with a budget for both chunks. -/
def sampleIdle : Worker ScriptedMemory Unit where
  pages := { pageSize := 16 }
  client := ()
  toDesk := { sampleDesk with limits := { high := 96, low := 16 } }

/-- The worker with this object. -/
def sampleFresh : Worker ScriptedMemory Unit := after (allocate sampleNumbers) sampleIdle

/-- The worker after the first chunk was loaded; the scratch buffer still holds it. -/
def sampleUsed : Worker ScriptedMemory Unit := after (handleFault 0x10000000) sampleFresh

theorem sampleFresh_ventured : Ventured sampleFresh := by
  have hdesk : Desk.ofOptions 16 { high := 96, low := 16 } { ringCapacity := 2 } =
      .ok sampleIdle.toDesk := rfl
  have hposted : sampleIdle.toSite.Posted := fun _ hm => (List.not_mem_nil hm).elim
  refine .allocate (.reached (.start hdesk (by decide) hposted)) sampleNumbers_built (.inl ?_)
  exact eq_ok_of_ending (by decide +kernel)

theorem sampleUsed_ventured : Ventured sampleUsed :=
  .fault sampleFresh_ventured (.inl (eq_ok_of_ending (by decide +kernel)))

/-- The second chunk is installed alike, with eight bytes of zeros, although the scratch buffers
differ. -/
theorem installs_determined_sample :
    sampleFresh.scratch.take 16 ≠ sampleUsed.scratch.take 16 ∧
    installedBy 0x10000044 sampleFresh =
      [(0x10000040, [17, 17, 17, 17, 18, 18, 18, 18, 0, 0, 0, 0, 0, 0, 0, 0])] ∧
    ∀ x ∈ installedBy 0x10000044 sampleFresh, ∀ y ∈ installedBy 0x10000044 sampleUsed,
      x.2 = y.2 := by
  refine ⟨by decide +kernel, by decide +kernel, fun x hx y hy => ?_⟩
  have hfresh :
    sampleFresh.objects = ⟨[{ start := 0x10000000, len := 80, value := sampleNumbers }]⟩ :=
    rfl
  have hstill : AtRest sampleFresh sampleUsed := Leads.after (still_handleFault 0x10000000)
  have hused : sampleUsed.objects = sampleFresh.objects := by
    obtain ⟨es, hes⟩ := hstill
    exact hes.objects
  have hlocate : locateFault sampleFresh.objects 0x10000044 = .ok
      { object := sampleNumbers, bodyStart := 0x10000000,
        span := sampleNumbers.geometry.chunk 1 } := by
    rw [hfresh]
    rfl
  exact ((installs_determined sampleFresh_ventured sampleUsed_ventured 0x10000044 0x10000044
    numbered).2.2.2 _ _ hlocate (hused ▸ hlocate) rfl rfl sampleNumbers_overwrites
    sampleNumbers_overwrites x hx y hy).1

end Worker
end DemandPager
