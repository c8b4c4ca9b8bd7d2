/-
# Bodies as arrays

A worker over a memory that refuses nothing, with callers that keep a store for each
object (`Object.KeepsStore`). Each element byte of a body then behaves as if it were
always there: what is read is what was written last, or what the store held at first,
however often its chunk was dropped and loaded again in between. What is not resident
is in the store, and when an object goes the store has its whole body
(`Worker.bodies_hold`).

Objects may be created, released and accessed in any order and with or without success.
Each has a number of its own and a reservation that meets no other; these need not begin
on pages.

Key definitions: `Worker.Holding`.
Key theorems: `Placing.mirrors`, `Mirrors.write`, `Worker.Holding.mirrors`,
`Worker.bodies_hold`.
-/
import DemandPager.Proofs.Occupancy
import DemandPager.Proofs.Stores

namespace DemandPager

variable {γ : Type} {store : γ → Bodies} {body : Bodies} {e : Interval (Object γ)}
  {s s' : View ScriptedMemory γ}

/-! ### New objects -/

/-- A reservation changes the pages of its header only, and these are whole. -/
theorem Laid.get?_eq {o : Object γ} {pages pages' : ScriptedMemory} {start : Nat}
    (h : Laid o pages start pages') (hwilling : pages.Willing) (ho : o.geometry.Regular)
    (hpage : o.geometry.pageSize = pages.pageSize) (hwhole : pages.table.Whole pages.pageSize) :
    pages'.table.Whole pages.pageSize ∧
      ∀ p, ¬(start ≤ p ∧ p < start + o.geometry.paddedHeader) →
        pages'.table.get? p = pages.table.get? p := by
  obtain ⟨reserved, registered, hreserve, hregister, hzero⟩ := h
  obtain ⟨-, htable, hsize, hreserved⟩ := ScriptedMemory.called_reserve hwilling hreserve
  obtain ⟨-, rfl⟩ := ScriptedMemory.called_register hreserved hregister
  rw [← htable, ← hsize] at hwhole ⊢
  rw [← hsize] at hpage
  by_cases hheader : 0 < o.geometry.paddedHeader
  · rw [if_pos hheader] at hzero
    obtain ⟨-, rfl⟩ := ScriptedMemory.called_zero hreserved hzero
    constructor
    · refine PageTable.Whole.setAll _ hwhole fun page hpage => ?_
      obtain ⟨x, -, rfl⟩ := List.mem_map.mp hpage
      exact List.length_replicate
    · intro p hout
      refine PageTable.get?_setAll_of_not_mem _ _ fun hin => hout ?_
      have hps : 0 < registered.pageSize := hpage ▸ ho.page_pos
      have hdvd : registered.pageSize ∣ o.geometry.paddedHeader := hpage ▸ ho.header_dvd
      rw [ScriptedMemory.map_fst_zeros, mem_pagesIn hps hdvd] at hin
      exact ⟨hin.1, hin.2.1⟩
  · rw [if_neg hheader] at hzero
    subst hzero
    exact ⟨hwhole, fun _ _ => rfl⟩

/-- More objects whose bodies are not resident, and other pages outside of the old ones. -/
theorem Mirrors.extend (h : Mirrors store body s) {pages : ScriptedMemory}
    {objects : List (Interval (Object γ))} (hs' : Resides { s with pages, objects })
    (hsize : pages.pageSize = s.pages.pageSize) (hwhole : pages.table.Whole s.pages.pageSize)
    (hold : s.objects ⊆ objects)
    (hget : ∀ e ∈ s.objects, ∀ p, e.Holds p → pages.table.get? p = s.pages.table.get? p)
    (hnew : ∀ e ∈ objects, e ∈ s.objects ∨ e.value.KeepsStore store ∧
      ∀ i < e.value.geometry.bodyLen,
        pages.table.byte? pages.pageSize (e.bodyStart + i) = none) :
    Mirrors store body { s with pages, objects } := by
  have hbyte : ∀ e ∈ s.objects, ∀ i < e.value.geometry.bodyLen,
      pages.table.byte? pages.pageSize (e.bodyStart + i) =
        s.pages.table.byte? s.pages.pageSize (e.bodyStart + i) := by
    intro e he i hi
    have hholds := h.holds_body he hi
    rw [hsize]
    by_cases hthere : s.pages.table.byte? s.pages.pageSize (e.bodyStart + i) = none
    · rw [hthere]
      by_contra hnow
      rw [← hsize] at hnow
      have hpage := (hs'.of_byte? (hold he) hholds hnow).2.1
      rw [hsize, PageTable.byte?_congr (hget e he _ (hsize ▸ hpage))] at hnow
      exact hnow hthere
    · exact PageTable.byte?_congr (hget e he _ (h.of_byte? he hholds hthere).2.1)
  refine ⟨hs', hsize ▸ hwhole, fun e he => ?_, fun e he hfrom i hi b hb => ?_, fun id i => ?_⟩
  · rcases hnew e he with hmem | ⟨hkeeps, -⟩
    · exact h.keeps e hmem
    · exact hkeeps
  · rcases hnew e he with hmem | ⟨-, hnone⟩
    · exact h.current e hmem hfrom i hi b ((hbyte e hmem i hi).symm.trans hb)
    · cases (hnone i hi).symm.trans hb
  · rcases h.stored id i with heq | ⟨e, he, hid, hwants, hi, hthere⟩
    · exact .inl heq
    · refine .inr ⟨e, hold he, hid, hwants, hi, ?_⟩
      intro hnone
      exact hthere ((hbyte e he i hi).symm.trans hnone)

theorem Mirrors.place (h : Mirrors store body s) {o : Object γ} {start : Nat}
    {pages : ScriptedMemory} {objects : IntervalMap (Object γ)} (ho : o.geometry.Built)
    (hpage : o.geometry.pageSize = s.pages.pageSize) (hid : ∀ e ∈ s.objects, e.value.id ≠ o.id)
    (hkeeps : o.KeepsStore store) (hlaid : Laid o s.pages start pages)
    (hinsert : (IntervalMap.mk s.objects).insert start o.geometry.trueSize o = .ok objects) :
    Mirrors store body { s with pages, objects := objects.toList } := by
  have hs' := h.toResides.place ho hpage hid hlaid hinsert
  obtain ⟨-, -, hsize, -⟩ := hlaid.contains h.willing ho.regular hpage
  obtain ⟨hwhole, hget⟩ := hlaid.get?_eq h.willing ho.regular hpage h.whole
  obtain ⟨-, -, hapart, -⟩ := (IntervalMap.insert_eq_ok h.objects).mp hinsert
  have hmem := fun e => IntervalMap.mem_insert (e := e) h.objects hinsert
  refine h.extend hs' hsize hwhole (fun e he => (hmem e).mpr (.inr he)) (fun e he p hp => ?_) ?_
  · exact hget p (Object.not_in_header (hapart e he) hp)
  · intro e he
    rcases (hmem e).mp he with rfl | hold
    · -- a resident byte would be on record, and so be one of an old object
      refine .inr ⟨hkeeps, fun i hi => ?_⟩
      by_contra hthere
      obtain ⟨r, hr, k, hk, -⟩ := hs'.chunk_of_byte? he hi hthere
      have hlive : r.isLive := ChunkRecord.isLive_iff.mpr (hk.size_pos ho.regular)
      obtain ⟨e', he', k', hk'⟩ := h.chunks r hr hlive
      exact hid e' he' (hk'.owner.symm.trans hk.owner)
    · exact .inl hold

/-- **The creation of an object, or the attempt, leaves the bodies where they are.** -/
theorem Placing.mirrors {o : Object γ} (h : Placing o s s') (hs : Mirrors store body s)
    (ho : o.geometry.Built) (hfresh : Fresh o s) (hkeeps : o.KeepsStore store) :
    Mirrors store body s' := by
  have hresides := h.resides hs.toResides ho hfresh
  cases h with
  | unfit => exact hs
  | placed hpage hlaid hinsert => exact hs.place ho hpage hfresh.id hkeeps hlaid hinsert
  | unreserved hreserve =>
    cases (ScriptedMemory.called_reserve hs.willing hreserve).1
  | unregistered hreserve hregister =>
    obtain ⟨-, -, -, hreserved⟩ := ScriptedMemory.called_reserve hs.willing hreserve
    cases (ScriptedMemory.called_register hreserved hregister).1
  | unzeroed hreserve hregister hzero =>
    obtain ⟨-, -, -, hreserved⟩ := ScriptedMemory.called_reserve hs.willing hreserve
    obtain ⟨-, rfl⟩ := ScriptedMemory.called_register hreserved hregister
    cases (ScriptedMemory.called_zero hreserved hzero).1
  | unrecorded hpage hlaid _ hunregister hrelease =>
    obtain ⟨hstart, hwilling, hsize, -⟩ := hlaid.contains hs.willing ho.regular hpage
    obtain ⟨hwhole, hget⟩ := hlaid.get?_eq hs.willing ho.regular hpage hs.whole
    obtain ⟨-, rfl⟩ := ScriptedMemory.called_unregister hwilling hunregister
    obtain ⟨-, rfl⟩ := ScriptedMemory.called_release hwilling hrelease
    refine hs.extend hresides hsize hwhole.dropRange (List.Subset.refl _) (fun e he p hp => ?_)
      fun e he => .inl he
    have hapart := hfresh.apart e he
    rw [← hstart] at hapart
    have hkept := hget p (Object.not_in_header hapart hp)
    exact (PageTable.get?_dropRange ..).trans ((if_neg (hapart.not_within hp)).trans hkept)

/-! ### Writes -/

/-- The memory after somebody wrote to it. -/
def ScriptedMemory.written (m : ScriptedMemory) (address : Nat) (bytes : Bytes) : ScriptedMemory :=
  m.withTable (m.table.write m.pageSize address bytes).1

/-- **A write to resident bytes changes the body where it is written.** -/
theorem Mirrors.write (h : Mirrors store body s) (he : e ∈ s.objects)
    (hwants : e.value.wantsWriteBack) {i : Nat} {bytes : Bytes}
    (hin : i + bytes.length ≤ e.value.geometry.bodyLen)
    (hthere : ∀ j < bytes.length,
      s.pages.table.byte? s.pages.pageSize (e.bodyStart + i + j) ≠ none) :
    Mirrors store (body.write e.value.id i bytes)
      { s with pages := s.pages.written (e.bodyStart + i) bytes } := by
  obtain ⟨hwhole, hcontains, hinside, houtside⟩ :=
    PageTable.write_overwritten (h.page_pos he) h.whole (e.bodyStart + i) bytes
  set table := (s.pages.table.write s.pages.pageSize (e.bodyStart + i) bytes).1 with htable
  have hwilling := h.willing.withTable table
  have hs' : Resides { s with pages := s.pages.written (e.bodyStart + i) bytes } :=
    h.toResides.withSite hwilling rfl (fun p => Bool.eq_iff_iff.mp (hcontains p)) _
  have hsame : ∀ q, table.byte? s.pages.pageSize q ≠ none ↔
      s.pages.table.byte? s.pages.pageSize q ≠ none := by
    intro q
    rw [PageTable.byte?_ne_none, PageTable.byte?_ne_none, hcontains]
  refine ⟨hs', hwhole, h.keeps, fun e' he' hfrom i' hi' b hb => ?_, fun id i' => ?_⟩
  · change table.byte? s.pages.pageSize (e'.bodyStart + i') = some b at hb
    by_cases hq : e.bodyStart + i ≤ e'.bodyStart + i' ∧
        e'.bodyStart + i' < e.bodyStart + i + bytes.length
    · have hplace : e'.bodyStart + i' = e.bodyStart + (e'.bodyStart + i' - e.bodyStart) := by omega
      have hholds : e.Holds (e'.bodyStart + i') := by
        rw [hplace]
        exact h.holds_body he (by omega)
      obtain rfl := h.eq_of_holds he' he (h.holds_body he' hi') hholds
      have hold := (hsame _).mp (by rw [hb]; exact Option.some_ne_none b)
      have hwritten : bytes[i' - i]? = some (body.write e'.value.id i bytes e'.value.id i') :=
        Bodies.write_inside (by omega) (by omega)
      rw [hinside _ hq.1 hq.2 hold, Nat.add_sub_add_left, hwritten] at hb
      exact (Option.some.inj hb).symm
    · rw [houtside _ (by omega)] at hb
      rw [h.current e' he' hfrom i' hi' b hb, Bodies.write_outside]
      rintro ⟨hid, hle, hlt⟩
      obtain rfl := h.ids e' he' e he hid
      omega
  · by_cases hin' : id = e.value.id ∧ i ≤ i' ∧ i' < i + bytes.length
    · obtain ⟨rfl, hle, hlt⟩ := hin'
      have hold := hthere (i' - i) (by omega)
      rw [Nat.add_assoc, Nat.add_sub_cancel' hle] at hold
      exact .inr ⟨e, he, rfl, hwants, by omega, (hsame _).mpr hold⟩
    · rw [Bodies.write_outside hin']
      rcases h.stored id i' with heq | ⟨e', he', hid, hwants', hi', hold⟩
      · exact .inl heq
      · exact .inr ⟨e', he', hid, hwants', hi', (hsame _).mpr hold⟩

/-! ### Runs -/

namespace Worker

variable {w w' : Worker ScriptedMemory γ}

/-- The states of a worker over a memory that refuses nothing, each with what the bodies
hold: what the stores held at first, overwritten by what was written since. -/
inductive Holding (store : γ → Bodies) : Worker ScriptedMemory γ → Bodies → Prop
  /-- The books are new, and no page has content. -/
  | start {pageSize : Nat} {limits : WaterMarks} {o : Options} {desk : Desk γ}
      {site : Site ScriptedMemory γ} (hdesk : Desk.ofOptions pageSize limits o = .ok desk)
      (hmarks : limits.low < limits.high) (hgrow : o.ringGrowable = true)
      (hwilling : site.pages.Willing) (hempty : ∀ p, site.pages.table.contains p = false) :
      Holding store { toSite := site, toDesk := desk } (store site.client)
  /-- Callers and the host change the site, but neither pages nor stores. -/
  | meanwhile {w : Worker ScriptedMemory γ} {body : Bodies} {site : Site ScriptedMemory γ}
      (h : Holding store w body) (hwilling : site.pages.Willing)
      (hpage : site.pages.pageSize = w.pages.pageSize)
      (htable : site.pages.table = w.pages.table)
      (hstore : store site.client = store w.client) : Holding store { w with toSite := site } body
  /-- Somebody writes to element bytes of an object, all of which are resident. -/
  | write {w : Worker ScriptedMemory γ} {body : Bodies} {e : Interval (Object γ)} {i : Nat}
      {bytes : Bytes} (h : Holding store w body) (he : e ∈ w.objects.toList)
      (hwritable : e.value.geometry.readOnly = false)
      (hin : i + bytes.length ≤ e.value.geometry.bodyLen)
      (hthere : ∀ j < bytes.length,
        w.pages.table.byte? w.pages.pageSize (e.bodyStart + i + j) ≠ none) :
      Holding store { w with pages := w.pages.written (e.bodyStart + i) bytes }
        (body.write e.value.id i bytes)
  | allocate {w w' : Worker ScriptedMemory γ} {body : Bodies} {object : Object γ}
      (h : Holding store w body) (hbuilt : object.geometry.Built) (hfresh : Fresh object w.view)
      (hkeeps : object.KeepsStore store) (hstep : Returns (allocate object) w w') :
      Holding store w' body
  | free {w w' : Worker ScriptedMemory γ} {body : Bodies} {id start : Nat}
      (h : Holding store w body) (hstep : Returns (free id start) w w') : Holding store w' body
  | fault {w w' : Worker ScriptedMemory γ} {body : Bodies} {address : Nat}
      (h : Holding store w body) (hstep : Returns (handleFault address) w w') :
      Holding store w' body

/-- In every state that is reached resident bytes and stores hold the bodies. -/
theorem Holding.mirrors (h : Holding store w body) :
    (∃ lost, Settled lost w) ∧ Mirrors store body w.view := by
  induction h with
  | start hdesk hmarks hgrow hwilling hempty =>
    obtain ⟨hobjects, hsettled⟩ := start_settled hdesk hmarks hgrow hwilling hempty
    exact ⟨⟨0, hsettled⟩, .of_empty hsettled.resides hobjects hempty⟩
  | @meanwhile w _ site _ hwilling hpage htable hstore ih =>
    obtain ⟨⟨lost, hw⟩, hmirrors⟩ := ih
    have hsame : ∀ p, site.pages.table.contains p ↔ w.pages.table.contains p := by
      intro p
      rw [htable]
    have hresides := hw.resides.withSite hwilling hpage hsame site.client
    exact ⟨⟨lost, hw.filed, hw.owes, hw.marks, hresides⟩,
      hmirrors.change hresides rfl htable hpage hstore⟩
  | write _ he hwritable hin hthere ih =>
    obtain ⟨⟨lost, hw⟩, hmirrors⟩ := ih
    have hwants := (hmirrors.keeps _ he).wantsWriteBack hwritable
    have hwritten := hmirrors.write he hwants hin hthere
    exact ⟨⟨lost, hw.filed, hw.owes, hw.marks, hwritten.toResides⟩, hwritten⟩
  | allocate _ hbuilt hfresh hkeeps hstep ih =>
    obtain ⟨⟨lost, hw⟩, hmirrors⟩ := ih
    obtain ⟨hw', hplacing⟩ := hw.allocate hbuilt hfresh hstep
    exact ⟨⟨lost, hw'⟩, hplacing.mirrors hmirrors hbuilt hfresh hkeeps⟩
  | free _ hstep ih =>
    obtain ⟨⟨lost, hw⟩, hmirrors⟩ := ih
    obtain ⟨hw', hmoves⟩ := hw.free hstep
    exact ⟨⟨lost, hw'⟩, hmoves.mirrors hmirrors⟩
  | fault _ hstep ih =>
    obtain ⟨⟨lost, hw⟩, hmirrors⟩ := ih
    obtain ⟨hmoves, hw' | ⟨hw', -⟩⟩ := hw.fault hstep
    · exact ⟨⟨lost, hw'⟩, hmoves.mirrors hmirrors⟩
    · exact ⟨hw', hmoves.mirrors hmirrors⟩

/-- **Bodies are arrays that lose no write.** A resident element byte is the one that was
written last, or the one of the store if there was none; a byte that is not resident is in
the store; and after an object was released, its store has its whole body. -/
theorem bodies_hold (h : Holding store w body) :
    (∀ e ∈ w.objects.toList, e.value.geometry.readOnly = false ∨ e.value.FilledFrom store →
      ∀ i < e.value.geometry.bodyLen, ∀ b,
        w.pages.table.byte? w.pages.pageSize (e.bodyStart + i) = some b → b = body e.value.id i) ∧
    (∀ e ∈ w.objects.toList, ∀ i < e.value.geometry.bodyLen,
      w.pages.table.byte? w.pages.pageSize (e.bodyStart + i) = none →
        store w.client e.value.id i = body e.value.id i) ∧
    ∀ id start w', free id start w = .ok () w' → ∀ i, store w'.client id i = body id i := by
  obtain ⟨⟨lost, hw⟩, hmirrors⟩ := h.mirrors
  refine ⟨fun e he hfrom => ?_, fun e he i _ => hmirrors.store_eq he, fun id start w' hok i => ?_⟩
  · exact hmirrors.current e he (hfrom.elim (hmirrors.keeps e he).filled fun h => h)
  · obtain ⟨-, e, he, -, rfl, es, hfreed⟩ := (free_ends hw.filed hw.owes).of_ok hok
    have hmirrors' := hfreed.moves.mirrors hmirrors
    rcases hmirrors'.stored e.value.id i with heq | ⟨e', he', hid, -⟩
    · exact heq
    · -- the number was that of the released object alone
      have hleft : e' ∈ w.objects.toList.filter (·.start ≠ e.start) := hfreed.objects ▸ he'
      obtain ⟨hmem, hne⟩ := (hmirrors.mem_others he).mp hleft
      exact absurd (hmirrors.ids e' hmem e he hid) hne

/-! ### A run -/

/-- An object like the sample object, whose elements are kept by the callers. -/
def sampleArray : Object Bodies where
  id := 1
  geometry := sampleObject.geometry
  callbacks :=
    { populate := fun first _ target bodies =>
        (.filled, bytesAt (first * 16) target.length (bodies 1), bodies)
      writeBack := some fun first _ bytes bodies => (.taken, bodies.write 1 (first * 16) bytes) }
  gate := 0

theorem sampleArray_keepsStore : sampleArray.KeepsStore fun bodies => bodies where
  populate := fun _ _ _ _ => rfl
  destructor := fun _ => rfl
  filled := fun _ _ _ _ _ => ⟨rfl, rfl⟩
  writeBack := fun _ => ⟨_, rfl, fun _ _ _ _ => ⟨rfl, rfl⟩⟩

/-- A worker with a budget of two pages, and stores that are zero. -/
def arrayStart : Worker ScriptedMemory Bodies where
  pages := { pageSize := 16 }
  client := fun _ _ => 0
  toDesk :=
    { objects := .empty
      ring := .ofCapacity 2
      ringGrowable := true
      used := 0
      limits := { high := 32, low := 16 }
      scratch := { size := 320 }
      spill := {}
      phase := .running }

/-- The sample array is created, and its first page is resident. -/
def arrayLoaded : Worker ScriptedMemory Bodies :=
  after (handleFault 0x10000000) (after (allocate sampleArray) arrayStart)

/-- A byte of the first page is written. -/
def arrayWritten : Worker ScriptedMemory Bodies :=
  { arrayLoaded with pages := arrayLoaded.pages.written 0x10000003 [7] }

/-- The worker after more faults, the latest first. -/
def arrayRun : List Nat → Worker ScriptedMemory Bodies
  | [] => arrayWritten
  | address :: rest => after (handleFault address) (arrayRun rest)

theorem arrayLoaded_holding :
    Holding (fun bodies => bodies) arrayLoaded (arrayStart.client) := by
  have hdesk : Desk.ofOptions 16 { high := 32, low := 16 } { ringCapacity := 2 } =
      .ok arrayStart.toDesk := rfl
  have hwilling : arrayStart.pages.Willing := .of_nil rfl
  have hstart : Holding (fun bodies => bodies) arrayStart arrayStart.client :=
    .start hdesk (by decide) rfl hwilling fun _ => rfl
  have hfresh : Fresh sampleArray arrayStart.view := .of_nil rfl
  have hcreated : Holding (fun bodies => bodies) (after (allocate sampleArray) arrayStart) _ :=
    .allocate hstart sampleObject_built hfresh sampleArray_keepsStore
      (.inl (eq_ok_of_ending (by decide +kernel)))
  exact .fault hcreated (.inl (eq_ok_of_ending (by decide +kernel)))

theorem arrayLoaded_objects :
    arrayLoaded.objects.toList = [{ start := 0x10000000, len := 128, value := sampleArray }] := rfl

theorem arrayWritten_holding :
    Holding (fun bodies => bodies) arrayWritten (arrayStart.client.write 1 3 [7]) := by
  have hmem : { start := 0x10000000, len := 128, value := sampleArray } ∈
      arrayLoaded.objects.toList := arrayLoaded_objects ▸ List.mem_singleton.mpr rfl
  have hthere : ∀ j < [(7 : UInt8)].length,
      arrayLoaded.pages.table.byte? arrayLoaded.pages.pageSize (0x10000000 + 3 + j) ≠ none := by
    decide +kernel
  exact arrayLoaded_holding.write hmem rfl (by decide) hthere

theorem arrayRun_fault {address : Nat} {rest : List Nat}
    (h : Holding (fun bodies => bodies) (arrayRun rest) body)
    (hok : ending (handleFault address) (arrayRun rest) = none) :
    Holding (fun bodies => bodies) (arrayRun (address :: rest)) body ∧
      (arrayRun (address :: rest)).objects = (arrayRun rest).objects := by
  obtain ⟨⟨⟩, hstep⟩ := eq_ok_of_ending hok
  obtain ⟨⟨lost, hw⟩, -⟩ := h.mirrors
  obtain ⟨es, hv⟩ := (handleFault_ends hw.filed hw.owes (Nat.le_of_lt hw.marks)).of_ok hstep
  exact ⟨.fault h (.inl ⟨(), hstep⟩), hv.objects⟩

/-- The first page is dropped for two others, and then it is loaded again. -/
theorem arrayRun_holding :
    Holding (fun bodies => bodies) (arrayRun [0x10000000, 0x10000020, 0x10000010])
        (arrayStart.client.write 1 3 [7]) ∧
      (arrayRun [0x10000000, 0x10000020, 0x10000010]).objects = arrayLoaded.objects := by
  have hwritten : Holding (fun bodies => bodies) (arrayRun []) (arrayStart.client.write 1 3 [7]) :=
    arrayWritten_holding
  have hsecond : ending (handleFault 0x10000010) (arrayRun []) = none := by decide +kernel
  have hthird : ending (handleFault 0x10000020) (arrayRun [0x10000010]) = none := by
    decide +kernel
  have hfirst : ending (handleFault 0x10000000) (arrayRun [0x10000020, 0x10000010]) = none := by
    decide +kernel
  obtain ⟨h, hobjects⟩ := arrayRun_fault hwritten hsecond
  obtain ⟨h', hobjects'⟩ := arrayRun_fault h hthird
  obtain ⟨h'', hobjects''⟩ := arrayRun_fault h' hfirst
  exact ⟨h'', hobjects''.trans (hobjects'.trans hobjects)⟩

/-- The byte that was written is there again after its chunk was dropped and loaded, and
when the object goes it is in the store. -/
theorem bodies_hold_sample :
    (arrayRun [0x10000000, 0x10000020, 0x10000010]).pages.table.byte? 16 0x10000003 = some 7 ∧
      ∃ w', free 1 0x10000000 (arrayRun [0x10000000, 0x10000020, 0x10000010]) = .ok () w' ∧
        w'.client 1 3 = 7 := by
  obtain ⟨hrun, hobjects⟩ := arrayRun_holding
  obtain ⟨hcurrent, -, hgone⟩ := bodies_hold hrun
  have hseven : arrayStart.client.write 1 3 [7] 1 3 = 7 := by decide
  constructor
  · have hmem : { start := 0x10000000, len := 128, value := sampleArray } ∈
        (arrayRun [0x10000000, 0x10000020, 0x10000010]).objects.toList := by
      rw [hobjects, arrayLoaded_objects]
      exact List.mem_singleton.mpr rfl
    have hthere : ((arrayRun [0x10000000, 0x10000020, 0x10000010]).pages.table.byte? 16
        0x10000003).isSome := by
      decide +kernel
    obtain ⟨b, hb⟩ := Option.isSome_iff_exists.mp hthere
    have hsize : (arrayRun [0x10000000, 0x10000020, 0x10000010]).pages.pageSize = 16 := by
      decide +kernel
    have hbyte := hcurrent _ hmem (.inl rfl) 3 (by decide) b
    rw [hsize] at hbyte
    rw [hb, hbyte hb, ← hseven]
    rfl
  · have hend : ending (free 1 0x10000000) (arrayRun [0x10000000, 0x10000020, 0x10000010]) =
        none := by
      decide +kernel
    obtain ⟨⟨⟩, hfree⟩ := eq_ok_of_ending hend
    exact ⟨_, hfree, (hgone 1 0x10000000 _ hfree 3).trans hseven⟩

end Worker
end DemandPager
