/-
# A release removes one object or nothing

A release first offers the resident chunks of the object to its owner. Then the object begins to be
unmapped, and its registration is to be taken back. If a chunk cannot be read or the registration is
not given back the object stays, and with it everything there is: no object, no record, no byte in
use, no gate and no page is other than before (`Worker.Spared`). Otherwise its gate is retired, it
goes off the books together with its records and their bytes, and then its memory is given back,
whatever comes of that, and its destructor runs (`Worker.Parted`).

For this each object needs a gate of its own that is not unmapping already. Callers give it one when
they ask for the object (`separate`), and every operation keeps it so (`Worker.History.gated`).

Key definitions: `Withheld`, `Worker.Spared`, `Worker.Parted`, `Worker.Gated`, `separate`.
Key theorems: `Worker.free_parts`, `Worker.History.gated`, `Worker.free_all_or_nothing`.
-/
import DemandPager.Proofs.Gates
import DemandPager.Proofs.Histories
import DemandPager.Proofs.Logs
import DemandPager.Proofs.Registry
import DemandPager.Proofs.Tidiness
import DemandPager.Proofs.Undoing

namespace DemandPager

variable {π γ : Type}

/-! ### What is entered -/

section Entries

variable {objects : List (Interval (Object γ))} {records : List ChunkRecord} {client client' : γ}
  {es : List JournalEntry}

/-- No destructor runs while chunks are offered. -/
theorem OffersLog.not_destructor (h : OffersLog objects records client es client') (id : Nat) :
    .destructor id ∉ es := by
  induction h with
  | nil => exact List.not_mem_nil
  | cons _ _ hoffer _ ih =>
    rw [List.mem_append]
    rintro (hmem | hmem)
    · cases hoffer with
      | unwanted => cases hmem
      | taken => simp at hmem
    · exact ih hmem

/-- Why the object of an id at an address stays, and what is entered. -/
inductive Withheld (id start : Nat) (w : Worker π γ) : PagerError → List JournalEntry → Prop
  /-- There is no such object. -/
  | unknown (h : ∀ e ∈ w.objects.toList, e.start = start → e.value.id ≠ id) :
      Withheld id start w (.unknownAddress start) []
  /-- One of its chunks cannot be read to be offered. -/
  | unread {e : Interval (Object γ)} {done rest : List ChunkRecord} {r : ChunkRecord} {client : γ}
      {offers : List JournalEntry} {len : Nat} {cause : PagerError} (he : e ∈ w.objects.toList)
      (hstart : e.start = start) (hid : e.value.id = id)
      (hnext : e.offerable w.ring.toList = done ++ r :: rest)
      (hoffers : OffersLog w.objects.toList done w.client offers client) :
      Withheld id start w cause (offers ++ [.readResident r.address len (.error cause)])
  /-- Its registration is not given back. -/
  | held {e : Interval (Object γ)} {client : γ} {offers : List JournalEntry} {cause : PagerError}
      (he : e ∈ w.objects.toList) (hstart : e.start = start) (hid : e.value.id = id)
      (hoffers : OffersLog w.objects.toList (e.offerable w.ring.toList) w.client offers client) :
      Withheld id start w cause (offers ++ [.unregister e.start e.len (.error cause)])

theorem Withheld.not_destructor {id start : Nat} {w : Worker π γ} {cause : PagerError}
    (h : Withheld id start w cause es) (n : Nat) : .destructor n ∉ es := by
  cases h with
  | unknown => exact List.not_mem_nil
  | unread _ _ _ _ hoffers =>
    simpa using hoffers.not_destructor n
  | held _ _ _ hoffers =>
    simpa using hoffers.not_destructor n

end Entries

variable [Paging π]

namespace Worker

variable {w v w' : Worker π γ} {lost : Nat} (m : Paging.Tidy π)

/-! ### Offering chunks -/

omit [Paging π] in
/-- Chunks on record were offered one after the other, up to one that could not be read. -/
def Stalled (records : List ChunkRecord) (w w' : Worker π γ) (cause : PagerError) : Prop :=
  ∃ (done : List ChunkRecord) (r : ChunkRecord) (rest : List ChunkRecord) (client : γ)
    (es : List JournalEntry) (len : Nat), records = done ++ r :: rest ∧
    OffersLog w.objects.toList done w.client es client ∧
    SameBooks w w' (es ++ [.readResident r.address len (.error cause)])

/-- Chunks on record are offered one after the other, up to one that cannot be read. No page
changes, and no book. -/
theorem writeBackAll_offers : ∀ (records : List ChunkRecord) (w : Worker π γ), w.toDesk.Filed →
    (∀ r ∈ records, r ∈ w.ring.toList ∧ r.isLive) →
    Ends (writeBackAll (records.map (·.address))) w
      (fun _ w' => Paging.Same m.content w.pages w'.pages ∧ ∃ es, SameBooks w w' es ∧
        OffersLog w.objects.toList records w.client es w'.client)
      (fun f w' => ∀ cause, f = .error cause → Paging.Same m.content w.pages w'.pages ∧
        Stalled records w w' cause)
  | [], w, _, _ => ⟨.refl _, [], SameBooks.refl w, .nil⟩
  | r :: rest, w, hw, hrecords => by
    obtain ⟨hmem, hlive⟩ := hrecords r (List.mem_cons_self ..)
    obtain ⟨e, he, k, hr⟩ := hw.chunks r hmem hlive
    have hfits := hw.fits r hmem
    rw [List.map_cons]
    unfold writeBackAll
    rw [ends_bind]
    refine ((writeBackChunk_ends hw he hr hfits).and (writeBackChunk_counts hw he hr hfits)).mono
      ?_ ?_
    · rintro _ v ⟨⟨es, hv, -, hoffered⟩, offer, hcounted, hoffer⟩
      obtain rfl : es = offer := List.append_cancel_left (hv.journal.symm.trans hcounted.journal)
      have hrest : ∀ x ∈ rest, x ∈ v.ring.toList ∧ x.isLive := by
        intro x hx
        rw [hv.ring]
        exact hrecords x (List.mem_cons_of_mem _ hx)
      refine (writeBackAll_offers rest v (hv.filed hw) hrest).mono ?_ ?_
      · rintro _ w' ⟨hsame, es', hw', hoffers⟩
        rw [hv.objects] at hoffers
        exact ⟨(hoffered.same m).trans hsame, _, hv.trans hw', .cons he hr hoffer hoffers⟩
      · intro f w' h cause hcause
        obtain ⟨hsame, done, r', rest', client, es', len, rfl, hoffers, hw'⟩ := h cause hcause
        rw [hv.objects] at hoffers
        refine ⟨(hoffered.same m).trans hsame, r :: done, r', rest', client, es ++ es', len, rfl,
          .cons he hr hoffer hoffers, ?_⟩
        rw [List.append_assoc]
        exact hv.trans hw'
    · rintro f v ⟨⟨rfl, -⟩ | ⟨cause, rfl, hv, hread, -⟩, -⟩ _ hcause
      · cases hcause
      · cases hcause
        refine ⟨m.readResident hread, [], r, rest, w.client, [], e.contentLen k, rfl, .nil, ?_⟩
        rw [hr.address]
        exact hv

/-- The resident chunks of an object are offered. -/
theorem handOverAll_offers (e : Interval (Object γ)) (hw : w.toDesk.Filed) :
    Ends (handOverAll e) w
      (fun _ w' => Paging.Same m.content w.pages w'.pages ∧ ∃ es, SameBooks w w' es ∧
        OffersLog w.objects.toList (e.offerable w.ring.toList) w.client es w'.client)
      (fun f w' => ∀ cause, f = .error cause → Paging.Same m.content w.pages w'.pages ∧
        Stalled (e.offerable w.ring.toList) w w' cause) := by
  unfold handOverAll Interval.offerable
  rw [ends_ite]
  refine ⟨fun hwants => ?_, fun hwants => ?_⟩
  · simp only [ends_bind, ends_get]
    rw [if_pos hwants]
    refine writeBackAll_offers m _ w hw fun r hr => ?_
    rw [List.mem_filter, Bool.and_eq_true] at hr
    exact ⟨hr.1, hr.2.2⟩
  · rw [if_neg hwants]
    exact ⟨.refl _, [], SameBooks.refl w, .nil⟩

/-! ### Gates -/

omit [Paging π] in
/-- Each object has a gate of its own, and no gate of an object is unmapping. -/
structure Gated (w : Worker π γ) : Prop where
  own : ∀ e ∈ w.objects.toList, ∀ e' ∈ w.objects.toList, e.value.gate = e'.value.gate → e = e'
  isOpen : ∀ e ∈ w.objects.toList, ∃ g, w.gates[e.value.gate]? = some g ∧ g.unmapping = false

omit [Paging π] in
/-- To begin unmapping and to take it back changes nothing, if the gate was not unmapping. -/
theorem modify_abortUnmap {gates : List Gate} {number : Nat} {g : Gate}
    (hget : gates[number]? = some g) (hg : g.unmapping = false) :
    (gates.modify number Gate.beginUnmap).modify number Gate.abortUnmap = gates := by
  rw [List.modify_modify_eq]
  refine List.ext_getElem? fun n => ?_
  rw [List.getElem?_modify]
  by_cases hn : number = n
  · have hback : (Gate.abortUnmap ∘ Gate.beginUnmap) g = g := by
      show { g with unmapping := false } = g
      rw [← hg]
    rw [← hn, hget]
    simpa using hback
  · simp [hn]

/-! ### A release -/

/-- No object, no record, no byte in use, no gate and no page is other than before. -/
structure Spared (m : Paging.Tidy π) (w w' : Worker π γ) : Prop where
  objects : w'.objects = w.objects
  ring : w'.ring = w.ring
  used : w'.used = w.used
  gates : w'.gates = w.gates
  pages : Paging.Same m.content w.pages w'.pages

/-- The object is gone with its records and their bytes, and its gate is retired and unmapping; all
else is as before. Its memory was to be given back after its registration was, and its destructor,
if it has one, ran after that and not before. -/
structure Parted (m : Paging.Tidy π) (e : Interval (Object γ)) (w w' : Worker π γ) :
    Prop where
  objects : w'.objects.toList = w.objects.toList.filter (·.start ≠ e.start)
  records : w'.ring.toList = Ring.retired e.value.id w.ring.toList
  used : w'.used + Ring.ownBytes e.value.id w.ring.toList = w.used
  gates : w'.gates = w.gates.modify e.value.gate (Gate.retire ∘ Gate.beginUnmap)
  pages : Paging.Dropped m.content e.start e.len w.pages w'.pages
  calls : ∃ (offers : List JournalEntry) (client : γ) (released : Except PagerError Unit),
    OffersLog w.objects.toList (e.offerable w.ring.toList) w.client offers client ∧
    (∀ n, .destructor n ∉ offers) ∧
      w'.journal = w.journal ++ (offers ++ [.unregister e.start e.len (.ok ()),
        .release e.start e.len released] ++ e.value.farewell) ∧ w'.client = e.value.finished client

omit [Paging π] in
theorem withheld_of_objectAt {id start : Nat} (hw : w.toDesk.Filed)
    (hat : w.objectAt id start = none) : Withheld id start w (.unknownAddress start) [] := by
  refine .unknown ?_
  rintro e he rfl rfl
  have hfind := (IntervalMap.find?_eq_some hw.objects).mpr ⟨he, hw.objects.holds_start he⟩
  unfold objectAt at hat
  rw [hfind] at hat
  simp at hat

/-- Once the registration of an object is given back, the object goes. -/
theorem discharge_parts {e : Interval (Object γ)} {offers : List JournalEntry} {pages : π}
    (hw : w.toDesk.Filed) (ho : w.toDesk.Owes lost) (he : e ∈ w.objects.toList)
    (hpages : Paging.Same m.content w.pages pages) (hv : SameBooks w v offers)
    (hoffers : OffersLog w.objects.toList (e.offerable w.ring.toList) w.client offers v.client) :
    Ends (discharge e) { v with
        pages
        gates := (v.gates.modify e.value.gate Gate.beginUnmap).modify e.value.gate Gate.retire
        journal := v.journal ++ [.unregister e.start e.len (.ok ())] }
      (fun _ w' => Parted m e w w') fun f _ => ∃ breach, f = .abort breach := by
  set u : Worker π γ := { v with
    pages
    gates := (v.gates.modify e.value.gate Gate.beginUnmap).modify e.value.gate Gate.retire
    journal := v.journal ++ [.unregister e.start e.len (.ok ())] }
  have hobjects : u.objects = w.objects := hv.objects
  have hring : u.ring = w.ring := hv.ring
  have heu : e ∈ u.objects.toList := hobjects ▸ he
  have howes : u.toDesk.Owes lost := hv.owes ho
  refine ((discharge_ends (w := u) (hv.filed hw) howes heu).and
    (sameGates_discharge (w := u) e)).mono ?_ ?_
  · rintro _ w' ⟨⟨-, es, hd⟩, hgates⟩
    obtain ⟨released, hreleased⟩ := hd.released
    obtain ⟨released', rfl⟩ := hd.entries
    refine ⟨?_, ?_, ?_, ?_, ?_, offers, v.client, released', hoffers, hoffers.not_destructor,
      ?_, ?_⟩
    · rw [hd.objects, hobjects]
    · rw [hd.records, hring]
    · -- what is owed is owed before and after
      have hbefore := ho.used
      have hafter := hd.owes.used
      have hbytes := Ring.bytesOf_retired e.value.id w.ring.toList
      unfold Ring.liveSum at hbefore hafter
      rw [hd.records, hring] at hafter
      omega
    · rw [show w'.gates = u.gates from hgates, ← List.modify_modify_eq, ← hv.gates]
    · have hdropped := m.release hreleased
      refine ⟨hdropped.pageSize.trans hpages.pageSize, fun a => ?_⟩
      rw [← hpages.content]
      exact hdropped.content a
    · rw [hd.journal, show u.journal = v.journal ++ _ from rfl, hv.journal]
      simp only [List.append_assoc, List.cons_append, List.nil_append]
    · exact hd.client
  · rintro _ w' ⟨⟨rfl, -⟩, -⟩
    exact ⟨_, rfl⟩

/-- **A release parts with the object, or it is refused and spares everything.** -/
theorem free_parts {id start : Nat} (hw : w.toDesk.Filed) (ho : w.toDesk.Owes lost)
    (hgated : w.Gated) :
    Ends (free id start) w
      (fun _ w' => ∃ e ∈ w.objects.toList, e.start = start ∧ e.value.id = id ∧ Parted m e w w')
      (fun f w' => ∀ cause, f = .error cause → Spared m w w' ∧
        ∃ es, w'.journal = w.journal ++ es ∧ Withheld id start w cause es) := by
  unfold free
  rw [ends_bind, ends_get]
  cases hat : w.objectAt id start with
  | none =>
    rintro cause ⟨⟩
    exact ⟨⟨rfl, rfl, rfl, rfl, .refl _⟩, [], (List.append_nil _).symm, withheld_of_objectAt hw hat⟩
  | some e =>
    obtain ⟨he, rfl, rfl⟩ := objectAt_eq_some hw hat
    rw [ends_bind]
    refine (handOverAll_offers m e hw).mono ?_ ?_
    · rintro _ v ⟨hsame, offers, hv, hoffers⟩
      rw [ends_bind]
      unfold unmap
      simp only [ends_bind, ends_changeGate]
      refine ends_callPages fun result pages hcalled => ?_
      cases result with
      | ok =>
        rw [ends_changeGate]
        have hpages : Paging.Same m.content w.pages pages := hsame.trans (m.unregister hcalled)
        refine (discharge_parts m hw ho he hpages hv hoffers).mono ?_ ?_
        · exact fun _ w' hparted => ⟨e, he, rfl, rfl, hparted⟩
        · rintro _ w' ⟨breach, rfl⟩ cause hcause
          cases hcause
      | error cause =>
        simp only [ends_bind, ends_changeGate, ends_refuse]
        rintro _ ⟨⟩
        obtain ⟨g, hget, hg⟩ := hgated.isOpen e he
        refine ⟨⟨hv.objects, hv.ring, hv.used, ?_, hsame.trans (m.unregister hcalled)⟩, _, ?_,
          .held he rfl rfl hoffers⟩
        · rw [hv.gates]
          exact modify_abortUnmap hget hg
        · rw [hv.journal, List.append_assoc]
    · intro f v h cause hcause
      obtain ⟨hsame, done, r, rest, client, offers, len, hnext, hoffers, hv⟩ := h cause hcause
      exact ⟨⟨hv.objects, hv.ring, hv.used, hv.gates, hsame⟩, _, hv.journal,
        .unread he rfl rfl hnext hoffers⟩

/-! ### Histories -/

/-- Callers may do anything to the site but unmap, and each object that they ask for has a gate of
its own, which is not unmapping. -/
def separate : Surroundings π γ where
  begins _ := True
  drifts s s' := ∀ (number : Nat) (g : Gate), s.gates[number]? = some g →
    ∃ g' : Gate, s'.gates[number]? = some g' ∧ g'.unmapping = g.unmapping
  asks w o := (∀ e ∈ w.objects.toList, e.value.gate ≠ o.gate) ∧
    ∃ g : Gate, w.gates[o.gate]? = some g ∧ g.unmapping = false

omit [Paging π] in
theorem Gated.of_eq (h : w.Gated) (hobjects : w'.objects = w.objects)
    (hgates : w'.gates = w.gates) :
    w'.Gated := by
  refine ⟨?_, ?_⟩
  · rw [hobjects]
    exact h.own
  · rw [hobjects, hgates]
    exact h.isOpen

/-- Objects stay gated when another comes with a gate of its own. -/
theorem Gated.allocate {o : Object γ} (h : w.Gated) (hasked : separate.asks w o)
    (hstep : Returns (allocate o) w w') : w'.Gated := by
  refine Ends.of_returns ((allocate_undoes o).mono ?_ ?_) hstep
  · rintro start _ ⟨-, pages, objects, hinsert, -, rfl⟩
    obtain ⟨hown, hopen⟩ := hasked
    set placing : Interval (Object γ) := { start, len := o.geometry.trueSize, value := o }
    have hmem : ∀ e ∈ objects.toList, e = placing ∨ e ∈ w.objects.toList := by
      intro e he
      rw [IntervalMap.toList_insert hinsert] at he
      rw [w.objects.mem_iff start]
      rcases List.mem_append.mp he with he | he
      · exact .inr (.inl he)
      · exact (List.mem_cons.mp he).imp id .inr
    refine ⟨fun e he e' he' heq => ?_, fun e he => ?_⟩
    · rcases hmem e he with rfl | he
      · rcases hmem e' he' with rfl | he'
        · rfl
        · exact absurd heq.symm (hown e' he')
      · rcases hmem e' he' with rfl | he'
        · exact absurd heq (hown e he)
        · exact h.own e he e' he' heq
    · rcases hmem e he with rfl | he
      · exact hopen
      · exact h.isOpen e he
  · rintro f v hv cause hcause
    obtain ⟨pages, es, -, -, rfl⟩ := hv cause hcause
    exact h.of_eq rfl rfl

/-- Objects stay gated when another goes. -/
theorem Gated.parted {e : Interval (Object γ)} (h : w.Gated) (he : e ∈ w.objects.toList)
    (hparted : Parted m e w w') : w'.Gated := by
  have hmem : ∀ x ∈ w'.objects.toList, x ∈ w.objects.toList ∧ e.value.gate ≠ x.value.gate := by
    intro x hx
    rw [hparted.objects, List.mem_filter] at hx
    refine ⟨hx.1, fun heq => ?_⟩
    have hne := hx.2
    rw [h.own e he x hx.1 heq] at hne
    simp at hne
  refine ⟨fun x hx y hy => h.own x (hmem x hx).1 y (hmem y hy).1, fun x hx => ?_⟩
  obtain ⟨hold, hne⟩ := hmem x hx
  rw [hparted.gates, List.getElem?_modify_ne _ _ hne]
  exact h.isOpen x hold

/-- **In every history each object has a gate of its own that is not unmapping.** -/
theorem History.gated (m : Paging.Tidy π) (h : History separate w) : w.Gated := by
  induction h with
  | start hdesk =>
    obtain ⟨hobjects, -⟩ := Desk.ofOptions_eq_ok hdesk
    refine ⟨?_, ?_⟩
    all_goals simp only [hobjects, List.not_mem_nil, false_implies, implies_true]
  | meanwhile _ hsite ih =>
    refine ⟨ih.own, fun e he => ?_⟩
    obtain ⟨g, hget, hg⟩ := ih.isOpen e he
    obtain ⟨g', hget', hg'⟩ := hsite _ g hget
    exact ⟨g', hget', hg'.trans hg⟩
  | allocate _ _ hasked hstep ih => exact ih.allocate hasked hstep
  | free h hstep ih =>
    obtain ⟨lost, howes⟩ := h.upright.owes
    refine Ends.of_returns ((free_parts m h.upright.filed howes ih).mono ?_ ?_) hstep
    · rintro _ v ⟨e, he, -, -, hparted⟩
      exact ih.parted m he hparted
    · intro f v hv cause hcause
      obtain ⟨hspared, -⟩ := hv cause hcause
      exact ih.of_eq hspared.objects hspared.gates
  | @fault v v' address _ hstep ih =>
    have hrest : Leads AtRest (handleFault address) v := still_handleFault address
    refine Ends.of_returns (Ends.mono hrest ?_ ?_) hstep
    · rintro _ u ⟨_, hu⟩
      exact ih.of_eq hu.objects hu.turns
    · rintro f u ⟨_, hu⟩ _ _
      exact ih.of_eq hu.objects hu.turns

/-- **A release removes exactly one object, or nothing.** In every history in which the objects have
ids of their own: a release that is refused, for want of such an object, for a chunk that cannot be
read or for a registration that is not given back, changes no object, no record, no byte in use, no
gate and no page, and no destructor runs. One that succeeds takes just the object off, zeroes just
the live records of its chunks and takes their bytes off, changes no page outside the object, and
retires its gate, which is unmapping from then on; the gates of other objects are as before. -/
theorem free_all_or_nothing (h : History separate w)
    (hids : (w.objects.toList.map (·.value.id)).Nodup) (id start : Nat) :
    Ends (free id start) w
      (fun _ w' => ∃ e ∈ w.objects.toList, e.start = start ∧ e.value.id = id ∧ Parted m e w w' ∧
        (∀ x, x ∈ w'.objects.toList ↔ x ∈ w.objects.toList ∧ x ≠ e) ∧
        (∀ r ∈ w.ring.toList, r.isLive → (r.owner = id ↔ ∃ k, r.IsChunkOf e k)) ∧
        (∀ x ∈ w'.objects.toList, w'.gate x.value.gate = w.gate x.value.gate ∧
          ∀ a, x.Holds a → m.content w'.pages a = m.content w.pages a) ∧
        (w'.gate e.value.gate).alive = false ∧ (w'.gate e.value.gate).unmapping = true)
      (fun f w' => ∀ cause, f = .error cause → Spared m w w' ∧
        ∃ es, w'.journal = w.journal ++ es ∧ Withheld id start w cause es ∧
          ∀ n, .destructor n ∉ es) := by
  have hfiled := h.upright.filed
  obtain ⟨lost, howes⟩ := h.upright.owes
  have hgated := h.gated m
  refine (free_parts m hfiled howes hgated).mono ?_ ?_
  · rintro _ w' ⟨e, he, rfl, rfl, hparted⟩
    have hothers : ∀ x, x ∈ w'.objects.toList ↔ x ∈ w.objects.toList ∧ x ≠ e := by
      intro x
      rw [hparted.objects, List.mem_filter, decide_eq_true_eq]
      refine and_congr_right fun hx => not_congr ?_
      exact ⟨hfiled.objects.eq_of_start hx he, congrArg _⟩
    obtain ⟨g, hget, -⟩ := hgated.isOpen e he
    have hgate : w'.gate e.value.gate = (Gate.retire ∘ Gate.beginUnmap) g := by
      refine Site.gate_of_getElem? ?_
      rw [hparted.gates, List.getElem?_modify_eq, hget]
      rfl
    refine ⟨e, he, rfl, rfl, hparted, hothers, fun r hr hlive => ⟨fun howner => ?_, ?_⟩,
      fun x hx => ?_, ?_⟩
    · obtain ⟨x, hx, k, hk⟩ := hfiled.chunks r hr hlive
      obtain rfl : x = e := List.inj_on_of_nodup_map hids hx he (hk.owner.symm.trans howner)
      exact ⟨k, hk⟩
    · rintro ⟨k, hk⟩
      exact hk.owner
    · obtain ⟨hold, hne⟩ := (hothers x).mp hx
      obtain ⟨g', hget', -⟩ := hgated.isOpen x hold
      refine ⟨?_, fun a ha => ?_⟩
      · rw [Site.gate_of_getElem? hget']
        refine Site.gate_of_getElem? ?_
        rw [hparted.gates, List.getElem?_modify_ne _ _ fun heq => ?_, hget']
        exact hne (hgated.own e he x hold heq).symm
      · refine (hparted.pages.content a).resolve_right fun hin => ?_
        exact hne (hfiled.objects.eq_of_holds hold he ha hin.1)
    · rw [hgate]
      exact ⟨rfl, rfl⟩
  · intro f w' hw' cause hcause
    obtain ⟨hspared, es, hjournal, hwithheld⟩ := hw' cause hcause
    exact ⟨hspared, es, hjournal, hwithheld, hwithheld.not_destructor⟩

/-- A worker at a site with two gates. -/
def sampleGates : Worker ScriptedMemory Unit :=
  { sampleStart with gates := [{ owner := 1 }, { owner := 2 }] }

/-- An object like the sample object; it has the second gate. -/
def sampleOther : Object Unit := { sampleSecond with gate := 1 }

/-- A chunk of the sample object is loaded, and the other object is created. -/
def sampleNeighbours : Worker ScriptedMemory Unit :=
  after (allocate sampleOther) (after (handleFault 0x10000000) (after (allocate sampleObject)
    sampleGates))

/-- A chunk of the other object is loaded, too. -/
def sampleTwo : Worker ScriptedMemory Unit := after (handleFault 0x10000090) sampleNeighbours

theorem sampleNeighbours_history : History separate sampleNeighbours := by
  have hstart : History separate sampleGates := .start sampleDesk_eq (by decide) trivial
  have hending : ending (allocate sampleObject) sampleGates = none := by decide +kernel
  have hasked : separate.asks sampleGates sampleObject :=
    ⟨by decide +kernel, { owner := 1 }, by decide +kernel, rfl⟩
  have hfirst : History separate (after (allocate sampleObject) sampleGates) :=
    .allocate hstart sampleObject_built hasked (.inl (eq_ok_of_ending hending))
  have hending : ending (handleFault 0x10000000) (after (allocate sampleObject) sampleGates) =
      none := by decide +kernel
  obtain ⟨⟨⟩, hloaded⟩ := eq_ok_of_ending hending
  have hending : ending (allocate sampleOther)
      (after (handleFault 0x10000000) (after (allocate sampleObject) sampleGates)) = none := by
    decide +kernel
  have hbuilt : sampleOther.geometry.Built := sampleObject_built
  have hasked : separate.asks
      (after (handleFault 0x10000000) (after (allocate sampleObject) sampleGates)) sampleOther :=
    ⟨by decide +kernel, { owner := 2 }, by decide +kernel, rfl⟩
  exact .allocate (.fault hfirst (.inl ⟨_, hloaded⟩)) hbuilt hasked (.inl (eq_ok_of_ending hending))

theorem sampleTwo_history : History separate sampleTwo := by
  have hending : ending (handleFault 0x10000090) sampleNeighbours = none := by decide +kernel
  obtain ⟨⟨⟩, hstep⟩ := eq_ok_of_ending hending
  exact .fault sampleNeighbours_history (.inl ⟨_, hstep⟩)

/-- One of two objects is released; the record of the other stays live. -/
theorem free_all_or_nothing_sample :
    (sampleTwo.objects.toList.map (·.value.id)).Nodup ∧
    ∃ w', free 1 0x10000000 sampleTwo = .ok () w' ∧ w'.used + 16 = sampleTwo.used ∧
      w'.ring.toList = [{ address := 0x10000000, size := 0, owner := 1 },
        { address := 0x10000090, size := 16, owner := 2 }] ∧
      ∀ a, ¬(0x10000000 ≤ a ∧ a < 0x10000080) → w'.pages.content a = sampleTwo.pages.content a := by
  have hids : (sampleTwo.objects.toList.map (·.value.id)).Nodup := by decide +kernel
  have hring : sampleTwo.ring.toList = [{ address := 0x10000000, size := 16, owner := 1 },
      { address := 0x10000090, size := 16, owner := 2 }] := by decide +kernel
  have hlens : ∀ e ∈ sampleTwo.objects.toList, e.len = 0x80 := by decide +kernel
  have hending : ending (free 1 0x10000000) sampleTwo = none := by decide +kernel
  obtain ⟨⟨⟩, hok⟩ := eq_ok_of_ending hending
  have hhistory := sampleTwo_history
  generalize sampleTwo = w at hids hring hlens hok hhistory ⊢
  obtain ⟨e, he, hstart, hid, hparted, -⟩ :=
    (free_all_or_nothing ScriptedMemory.tidy hhistory hids 1 0x10000000).of_ok hok
  have hlen := hlens e he
  refine ⟨hids, _, hok, ?_, ?_, fun a ha => ?_⟩
  · rw [← hparted.used, hid, hring]
    rfl
  · rw [hparted.records, hid, hring]
    rfl
  · refine (hparted.pages.content a).resolve_right fun hin => ha ?_
    rw [hstart, hlen] at hin
    exact hin.1

end Worker
end DemandPager
