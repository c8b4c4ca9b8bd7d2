/-
# Faults on a chunk that is there

The access that a fault reports may find its chunk resident by the time the fault is handled. Only
the installation, the last call, tells so. If the bytes of the chunk fit under the high mark once
more, nothing came before it but a call of the populate callback, and the fault is a duplicate that
leaves objects, records, bytes in use and pages alone (`Worker.Repeated`).

If they do not fit, room is made first, for a chunk that needs none. At least the oldest record goes
(`Worker.Displaced`), and the chunk of the fault may be among those that are dropped; then it is
loaded anew. `Worker.repeated_fault_exact` says that these are the only two cases.

Over a memory that refuses nothing all pages with content are in objects, and a body has some only
if its chunks can be found (`Lodged`).

Key definitions: `Lodged`, `obliging`, `Worker.Repeated`, `Worker.Displaced`.
Key theorems: `Move.lodged`, `Worker.History.lodged`, `Worker.repeated_fault_exact`.
-/
import DemandPager.Proofs.Failures

namespace DemandPager

variable {γ : Type}

/-! ### Where pages have content -/

/-- The chunks of a body can be found. -/
def Interval.Searchable (e : Interval (Object γ)) : Prop :=
  e.value.geometry.loadCount * e.value.geometry.stride < wordBound

/-- Pages with content are in objects, and in bodies only where chunks can be found. -/
structure Lodged (s : View ScriptedMemory γ) : Prop extends Sited s where
  willing : s.pages.Willing
  pages : ∀ p, s.pages.table.contains p →
    ∃ e ∈ s.objects, e.Holds p ∧ (e.bodyStart ≤ p → e.Searchable)

namespace Lodged

variable {s s' : View ScriptedMemory γ} {e : Interval (Object γ)} {r : ChunkRecord} {k : Nat}

/-- Other pages with content, no more than before. -/
theorem change (h : Lodged s) {pages : ScriptedMemory} (hwilling : pages.Willing)
    (hpage : pages.pageSize = s.pages.pageSize)
    (hpages : ∀ p, pages.table.contains p → s.pages.table.contains p) (client : γ)
    (records : List ChunkRecord) : Lodged { s with pages, client, records } :=
  ⟨h.toSited.change rfl hpage, hwilling, fun p hp => h.pages p (hpages p hp)⟩

/-- The same pages. -/
theorem keep (h : Lodged s) (client : γ) (records : List ChunkRecord) :
    Lodged { s with client, records } :=
  h.change h.willing rfl (fun _ hp => hp) client records

/-- A range is emptied. -/
theorem drop (h : Lodged s) (start len : Nat) (client : γ) (records : List ChunkRecord) :
    Lodged { s with
      pages := s.pages.withTable (s.pages.table.dropRange start len), client, records } :=
  h.change (h.willing.withTable (s.pages.table.dropRange start len)) rfl
    (fun _ hp => (PageTable.contains_dropRange.mp hp).1) client records

/-- A chunk of a body is installed. -/
theorem install (h : Lodged s) (he : e ∈ s.objects) (hr : r.IsChunkOf e k) {content : Bytes}
    (hlength : content.length = r.size) (client : γ) (records : List ChunkRecord) :
    Lodged { s with
      pages := s.pages.withTable (s.pages.installed r.address content), client, records } := by
  have hg : e.value.geometry.Regular := h.regular he
  have hps : 0 < s.pages.pageSize := h.page_pos he
  have hpage : e.value.geometry.pageSize = s.pages.pageSize := h.page e he
  have hdvd : s.pages.pageSize ∣ content.length := by
    rw [hlength, hr.size, ← hpage]
    exact Geometry.Regular.bytes_dvd
  refine ⟨h.toSited.change rfl rfl, h.willing.withTable _, fun p hp => ?_⟩
  rcases (ScriptedMemory.contains_installed hps hdvd).mp hp with ⟨hle, hlt, -⟩ | hold
  · refine ⟨e, he, ?_, fun _ => hr.full_lt⟩
    obtain ⟨hlow, hhigh⟩ := hr.within hg (h.len e he)
    have hbody : e.start ≤ e.bodyStart := Nat.le_add_right ..
    unfold Interval.Holds
    omega
  · exact h.pages p hold

/-- An object goes with its pages. -/
theorem strike (h : Lodged s) (he : e ∈ s.objects) (client : γ) (records : List ChunkRecord) :
    Lodged { s with
      pages := s.pages.withTable (s.pages.table.dropRange e.start e.len)
      client
      objects := s.objects.filter (·.start ≠ e.start)
      records } := by
  refine ⟨h.toSited.strike rfl rfl, h.willing.withTable _, fun p hp => ?_⟩
  obtain ⟨hthere, hout⟩ := PageTable.contains_dropRange.mp hp
  obtain ⟨x, hx, hholds, hbody⟩ := h.pages p hthere
  refine ⟨x, List.mem_filter.mpr ⟨hx, decide_eq_true fun hstart => hout ?_⟩, hholds, hbody⟩
  obtain rfl := h.objects.eq_of_start hx he hstart
  exact hholds

/-- A page of a body has content only if the chunks of the body can be found. -/
theorem searchable (h : Lodged s) (he : e ∈ s.objects) {address : Nat} (hbody : e.InBody address)
    (hthere : s.pages.table.contains (e.chunkStart (e.chunkNumber address))) : e.Searchable := by
  obtain ⟨hlow, hhigh⟩ := hbody
  have hoffset : (e.value.geometry.chunk (e.chunkNumber address)).offset ≤ address - e.bodyStart :=
    Nat.div_mul_le_self ..
  have hchunk : e.bodyStart ≤ e.chunkStart (e.chunkNumber address) := Nat.le_add_right ..
  have hholds : e.Holds (e.chunkStart (e.chunkNumber address)) := by
    refine ⟨(Nat.le_add_right ..).trans hchunk, ?_⟩
    rw [h.len e he]
    unfold Interval.chunkStart
    omega
  obtain ⟨x, hx, hholds', hsearchable⟩ := h.pages _ hthere
  obtain rfl := h.objects.eq_of_holds he hx hholds hholds'
  exact hsearchable hchunk

end Lodged

section Steps

variable {s s' : View ScriptedMemory γ}

/-- **Every move keeps the pages with content in objects.** -/
theorem Move.lodged (h : Move s s') (hs : Lodged s) : Lodged s' := by
  cases h with
  | skip => exact hs.keep _ _
  | evict _ _ _ hoffer hdiscard =>
    obtain rfl := hoffer.pages_eq hs.willing
    obtain ⟨-, rfl⟩ := ScriptedMemory.called_discard hs.willing hdiscard
    exact hs.drop _ _ _ _
  | lose hlose =>
    obtain ⟨-, -, -, -, hread⟩ := hlose
    obtain ⟨rfl, -⟩ := ScriptedMemory.called_readResident hs.willing hread
    exact hs.keep _ _
  | offer _ _ _ hoffer =>
    obtain rfl := hoffer.pages_eq hs.willing
    exact hs.keep _ _
  | unread hread =>
    obtain ⟨rfl, -⟩ := ScriptedMemory.called_readResident hs.willing hread
    exact hs
  | unregister hcall =>
    obtain ⟨-, rfl⟩ := ScriptedMemory.called_unregister hs.willing hcall
    exact hs
  | giveUp => exact hs.keep _ _
  | load he hr hfill hinstall | spill he hr hfill hinstall =>
    rcases ScriptedMemory.called_install hs.willing hinstall with ⟨-, hfalse, -⟩ | ⟨-, -, rfl⟩
    · cases hfalse
    · exact hs.install he hr (hfill.length hr (hs.built _ he).regular) _ _
  | waste _ _ _ hinstall hresult =>
    rcases ScriptedMemory.called_install hs.willing hinstall with ⟨-, -, rfl⟩ | ⟨-, htrue, -⟩
    · exact hs.keep _ _
    · exact absurd htrue hresult
  | strike he hoffer hunregister hrelease =>
    obtain rfl := hoffer.pages_eq hs.willing
    obtain ⟨-, rfl⟩ := ScriptedMemory.called_unregister hs.willing hunregister
    obtain ⟨-, rfl⟩ := ScriptedMemory.called_release hs.willing hrelease
    exact hs.strike he _ _

/-- **To create an object, or to attempt it, keeps the pages with content in objects.** -/
theorem Placing.lodged {o : Object γ} (h : Placing o s s') (hs : Lodged s) (ho : o.geometry.Built) :
    Lodged s' := by
  have hheader : o.geometry.paddedHeader ≤ o.geometry.trueSize := Nat.le_add_right ..
  cases h with
  | unfit => exact hs
  | @placed start pages objects hpage hlaid hinsert =>
    obtain ⟨-, hwilling, hsize, hcontains⟩ := hlaid.contains hs.willing ho.regular hpage
    have hmem := fun x => IntervalMap.mem_insert (e := x) hs.objects hinsert
    refine ⟨hs.toSited.place ho hpage hinsert rfl hsize, hwilling, fun p hp => ?_⟩
    rcases (hcontains p).mp hp with ⟨hle, hlt, -⟩ | hold
    · refine ⟨{ start, len := o.geometry.trueSize, value := o }, (hmem _).mpr (.inl rfl),
        ⟨hle, hlt.trans_le (Nat.add_le_add_left hheader start)⟩, fun hbody => ?_⟩
      exact absurd hlt (Nat.not_lt.mpr hbody)
    · obtain ⟨x, hx, hin⟩ := hs.pages p hold
      exact ⟨x, (hmem x).mpr (.inr hx), hin⟩
  | unreserved hreserve =>
    cases (ScriptedMemory.called_reserve hs.willing hreserve).1
  | unregistered hreserve hregister =>
    obtain ⟨-, -, -, hreserved⟩ := ScriptedMemory.called_reserve hs.willing hreserve
    cases (ScriptedMemory.called_register hreserved hregister).1
  | unzeroed hreserve hregister hzero =>
    obtain ⟨-, -, -, hreserved⟩ := ScriptedMemory.called_reserve hs.willing hreserve
    obtain ⟨-, rfl⟩ := ScriptedMemory.called_register hreserved hregister
    cases (ScriptedMemory.called_zero hreserved hzero).1
  | @unrecorded start _ freed _ _ _ _ hpage hlaid _ hunregister hrelease =>
    -- what was filled in is given back
    obtain ⟨-, hwilling, hsize, hcontains⟩ := hlaid.contains hs.willing ho.regular hpage
    obtain ⟨-, rfl⟩ := ScriptedMemory.called_unregister hwilling hunregister
    obtain ⟨-, rfl⟩ := ScriptedMemory.called_release hwilling hrelease
    refine hs.change (hwilling.withTable (freed.table.dropRange start o.geometry.trueSize)) hsize
      (fun p hp => ?_) _ _
    obtain ⟨hthere, hout⟩ := PageTable.contains_dropRange.mp hp
    refine ((hcontains p).mp hthere).resolve_left fun hin => hout ⟨hin.1, ?_⟩
    exact hin.2.1.trans_le (Nat.add_le_add_left hheader _)

end Steps

namespace Worker

/-- The memory is empty at first, it refuses nothing, and the host fills no page. -/
def obliging : Surroundings ScriptedMemory γ where
  begins s := s.pages.Willing ∧ ∀ p, s.pages.table.contains p = false
  drifts s s' := s'.pages.Willing ∧ s'.pages.pageSize = s.pages.pageSize ∧
    ∀ p, s'.pages.table.contains p → s.pages.table.contains p
  asks _ _ := True

/-- **In every history the pages with content are in objects.** -/
theorem History.lodged {w : Worker ScriptedMemory γ} (h : History obliging w) : Lodged w.view := by
  refine h.view_induction (fun site growable hsite => ?_) (fun w site hdrift hw => ?_)
    (fun w o s _ ho _ hplacing hw => hplacing.lodged hw ho) fun s s' hmove hs => hmove.lodged hs
  · refine ⟨.of_empty rfl, hsite.1, fun p hp => ?_⟩
    rw [hsite.2 p] at hp
    cases hp
  · exact hw.change hdrift.1 hdrift.2.1 hdrift.2.2 _ _

variable {w v w' : Worker ScriptedMemory γ} {e : Interval (Object γ)} {k m n fill lost : Nat}

/-! ### Making room -/

/-- The oldest `n` records went, and the pages that they covered are empty. -/
structure Eased (n : Nat) (w w' : Worker ScriptedMemory γ) : Prop where
  le : n ≤ w.ring.toList.length
  ring : w'.ring.toList = w.ring.toList.drop n
  willing : w'.pages.Willing
  contains : ∀ p, w'.pages.table.contains p ↔
    w.pages.table.contains p ∧ ∀ r ∈ w.ring.toList.take n, ¬r.Covers p

theorem Eased.refl (h : w.pages.Willing) : Eased 0 w w :=
  ⟨Nat.zero_le _, rfl, h, fun _ => ⟨fun hp => ⟨hp, fun _ hr => absurd hr List.not_mem_nil⟩, (·.1)⟩⟩

theorem Eased.trans (h : Eased m w v) (h' : Eased n v w') : Eased (m + n) w w' where
  le := by
    have hle := h'.le
    rw [h.ring, List.length_drop] at hle
    have hle' := h.le
    omega
  ring := by rw [h'.ring, h.ring, List.drop_drop]
  willing := h'.willing
  contains := by
    intro p
    rw [h'.contains, h.contains, h.ring, List.take_add, List.forall_mem_append, and_assoc]

theorem dropOldest_eases (hw : w.toDesk.Filed) (ho : w.toDesk.Owes lost)
    (hwilling : w.pages.Willing) : Ends dropOldest w (fun _ => Eased 1 w) fun _ _ => True := by
  unfold dropOldest
  simp only [ends_bind, ends_get]
  rcases Ring.pop_spec hw.ring with ⟨-, hpop⟩ | ⟨record, ring, hpop, hring, hlist⟩
  · rw [hpop, ends_settle_error]
    trivial
  have hmem : record ∈ w.ring.toList := hlist ▸ List.mem_cons_self ..
  have hle : 1 ≤ w.ring.toList.length := List.length_pos_of_mem hmem
  have htake : w.ring.toList.take 1 = [record] := by rw [hlist]; rfl
  have hdrop : w.ring.toList.drop 1 = ring.toList := by rw [hlist]; rfl
  rw [hpop, ends_settle_ok]
  simp only [ends_modify]
  set popped : Worker ScriptedMemory γ := { w with ring }
  rw [ends_ite]
  refine ⟨fun hlive => ?_, fun hdead => ?_⟩
  · obtain ⟨e, he, k, hr⟩ := hw.chunks record hmem hlive
    rw [ends_bind]
    apply (writeBackChunk_ends (w := popped) (popped_filed hw hring hlist) he hr
      (hw.fits record hmem)).mono
    · rintro _ v ⟨es, hv, -, hoffer⟩
      have hpages : v.pages = w.pages := hoffer.pages_eq hwilling
      refine (dropChunk_ends (hv.owes (popped_owes ho hlist))).mono ?_ fun _ _ _ => trivial
      rintro _ w' ⟨htook, -⟩
      have hcalled := htook.called
      rw [hpages] at hcalled
      obtain ⟨-, hdropped⟩ := ScriptedMemory.called_discard hwilling hcalled
      refine ⟨hle, by rw [htook.ring, hv.ring, hdrop], hdropped ▸ hwilling.withTable _, fun p => ?_⟩
      rw [hdropped, htake, List.forall_mem_singleton]
      exact PageTable.contains_dropRange
    · exact fun _ _ _ => trivial
  · rw [ends_pure]
    refine ⟨hle, hdrop.symm, hwilling, fun p => ?_⟩
    rw [htake, List.forall_mem_singleton]
    exact ⟨fun hp => ⟨hp, fun hcovers => hdead hcovers.isLive⟩, (·.1)⟩

theorem dropWhileCrowded_eases (fill : Nat) : ∀ (records : Nat) (w : Worker ScriptedMemory γ),
    w.toDesk.Filed → w.toDesk.Owes lost → w.pages.Willing →
    Ends (dropWhileCrowded fill records) w
      (fun _ w' => ∃ n, Eased n w w' ∧ (w.crowded fill = true → 0 < n)) fun _ _ => True
  | 0, w, hw, ho, hwilling => by
    unfold dropWhileCrowded
    simp only [ends_bind, ends_get]
    rw [ends_ite]
    exact ⟨fun _ => trivial,
      fun hfree => ⟨0, .refl hwilling, fun hcrowded => absurd hcrowded hfree⟩⟩
  | records + 1, w, hw, ho, hwilling => by
    unfold dropWhileCrowded
    simp only [ends_bind, ends_get]
    rw [ends_ite]
    refine ⟨fun hcrowded => ?_, fun hfree => ⟨0, .refl hwilling, fun h => absurd h hfree⟩⟩
    have hused : 0 < w.used := by
      unfold crowded at hcrowded
      simp only [Bool.and_eq_true, decide_eq_true_eq] at hcrowded
      exact hcrowded.1
    rw [ends_bind]
    refine ((dropOldest_ends hw ho hused).and (dropOldest_eases hw ho hwilling)).mono ?_
      fun _ _ _ => trivial
    rintro _ v ⟨⟨es, hv, -⟩, heased⟩
    refine (dropWhileCrowded_eases fill records v hv.filed hv.owes heased.willing).mono ?_
      fun _ _ _ => trivial
    rintro _ w' ⟨n, heased', -⟩
    exact ⟨1 + n, heased.trans heased', fun _ => Nat.add_pos_left Nat.one_pos n⟩

/-- To make room either nothing is done, or at least one record goes. -/
theorem evictFor_eases (hw : w.toDesk.Filed) (ho : w.toDesk.Owes lost)
    (hwilling : w.pages.Willing) (hmarks : w.limits.low ≤ w.limits.high)
    (hfill : fill ≤ w.limits.high) (hhigh : w.limits.high < wordBound) :
    Ends (evictFor fill) w
      (fun _ w' => w.used + fill ≤ w.limits.high ∧ w' = w ∨
        w.limits.high < w.used + fill ∧ ∃ n, 0 < n ∧ Eased n w w')
      fun _ _ => w.limits.high < w.used + fill := by
  unfold evictFor
  simp only [ends_bind, ends_get, ends_checked, Word.add_eq_ok]
  refine ⟨?_, fun f hf => ?_⟩
  · rintro _ ⟨-, rfl⟩
    rw [ends_ite]
    refine ⟨fun hcross => ?_, fun hfits => .inl ⟨Nat.le_of_not_lt hfits, rfl⟩⟩
    have hcrowded : w.crowded fill = true := by
      unfold crowded
      simp only [Bool.and_eq_true, decide_eq_true_eq]
      omega
    refine (dropWhileCrowded_eases fill _ w hw ho hwilling).mono ?_ fun _ _ _ => hcross
    rintro _ w' ⟨n, heased, hpos⟩
    exact .inr ⟨hcross, n, hpos hcrowded, heased⟩
  · refine Nat.lt_of_not_le fun hfits => ?_
    have hadd : Word.add w.used fill = .ok (w.used + fill) :=
      Word.add_eq_ok.mpr ⟨hfits.trans_lt hhigh, rfl⟩
    rw [hadd] at hf
    cases hf

/-! ### Loading a chunk -/

/-- The callback fills the chunk in every state of the callers. -/
def Fills (e : Interval (Object γ)) (k : Nat) : Prop :=
  ∀ (target : Bytes) (client : γ), target.length = e.contentLen k →
    (e.value.fill (e.value.geometry.chunk k).first (e.value.geometry.chunk k).stop
      target client).1 = .filled

/-- A chunk was filled, and then it was found to be there. Apart from the counts, the journal, the
scratch buffer and the state of the callers nothing has changed. -/
def Repeated (e : Interval (Object γ)) (k : Nat) (w w' : Worker ScriptedMemory γ) : Prop :=
  ∃ (content : Bytes) (client : γ) (scratch : Buffer), w' = { w with
    client
    scratch
    journal := w.journal ++ [.populate e.value.id (e.value.geometry.chunk k).first
      (e.value.geometry.chunk k).stop (e.contentLen k),
      .install (e.chunkStart k) content (.ok false)]
    exchange := { w.exchange with
      stats := (w.exchange.stats.record .populate).record .duplicateFault } }

theorem fillChunk_fills (hfills : Fills e k)
    (hsize : e.contentLen k ≤ w.scratch.size) :
    Ends (fillChunk e.value (e.value.geometry.chunk k)) w
      (fun _ v => ∃ (client : γ) (scratch : Buffer), v = { w with
        client
        scratch
        journal := w.journal ++ [.populate e.value.id (e.value.geometry.chunk k).first
          (e.value.geometry.chunk k).stop (e.contentLen k)]
        exchange := { w.exchange with stats := w.exchange.stats.record .populate } })
      fun _ _ => False := by
  have hfilled := hfills (w.scratch.take (e.contentLen k)) w.client (Buffer.length_take hsize)
  unfold fillChunk
  simp only [ends_bind, ends_note, ends_get, ends_set]
  rw [show (e.value.geometry.chunk k).count * e.value.geometry.stride = e.contentLen k from rfl,
    hfilled]
  exact ⟨_, _, rfl⟩

theorem recordChunk_appends (r : ChunkRecord) (hring : w.ring.Sound) :
    Ends (recordChunk r) w (fun _ w' => w'.ring.toList = w.ring.toList ++ [r]) fun _ _ => True := by
  unfold recordChunk checkTotals
  simp only [ends_bind, ends_get]
  rcases Ring.push_spec hring r w.ringGrowable with ⟨ring, hpush, -, hlist⟩ | ⟨hpush, -⟩
  · rw [hpush, ends_settle_ok]
    simp only [ends_set, ends_checked, ends_modify, ends_count, ends_ensure, hlist, implies_true,
      and_self]
  · rw [hpush, ends_settle_error]
    trivial

/-- A chunk that is there stays and nothing fails; a chunk that is absent is put on record. -/
theorem loadChunk_tells (hfills : Fills e k) (hsize : e.contentLen k ≤ w.scratch.size)
    (hstart : Word.add e.bodyStart (e.value.geometry.chunk k).offset = .ok (e.chunkStart k))
    (hwilling : w.pages.Willing) (hring : w.ring.Sound) :
    Ends (loadChunk { object := e.value, bodyStart := e.bodyStart,
                      span := e.value.geometry.chunk k }) w
      (fun _ w' => w.pages.table.contains (e.chunkStart k) = true ∧ Repeated e k w w' ∨
        w.pages.table.contains (e.chunkStart k) = false ∧
          w'.ring.toList = w.ring.toList ++ [e.chunkRecord k])
      fun _ _ => w.pages.table.contains (e.chunkStart k) = false := by
  unfold loadChunk
  simp only [ends_bind]
  refine (fillChunk_fills hfills hsize).mono ?_ fun _ _ h => h.elim
  rintro content _ ⟨client, scratch, rfl⟩
  rw [hstart, ends_checked_ok]
  refine ends_callPages fun result pages hcalled => ?_
  rcases ScriptedMemory.called_install hwilling hcalled with ⟨hthere, rfl, rfl⟩ | ⟨habsent, rfl, -⟩
  · rw [ends_settle_ok, if_neg Bool.false_ne_true, ends_count]
    refine .inl ⟨hthere, content, client, scratch, ?_⟩
    simp only [List.append_assoc, List.singleton_append]
  · rw [ends_settle_ok, if_pos rfl]
    refine (recordChunk_appends (e.chunkRecord k) ?_).mono ?_ fun _ _ _ => habsent
    · exact hring
    · exact fun _ w' hlist => .inr ⟨habsent, hlist⟩

/-! ### Handling a fault -/

/-- Room was made for a chunk that is there. At least the oldest record went. The chunk has stayed,
or it was dropped with one of those that went and was loaded anew. -/
inductive Displaced (e : Interval (Object γ)) (k : Nat) (records : List ChunkRecord) :
    List ChunkRecord → Prop
  | stayed {n : Nat} (hpos : 0 < n) (hle : n ≤ records.length)
      (hspared : ∀ r ∈ records.take n, ¬r.Covers (e.chunkStart k)) :
      Displaced e k records (records.drop n)
  | reloaded {n : Nat} {r : ChunkRecord} (hpos : 0 < n) (hle : n ≤ records.length)
      (hr : r ∈ records.take n) (hcovers : r.Covers (e.chunkStart k)) :
      Displaced e k records (records.drop n ++ [e.chunkRecord k])

theorem Eased.displaced (h : Eased n w v) (hpos : 0 < n)
    (hthere : w.pages.table.contains (e.chunkStart k))
    (hload : v.pages.table.contains (e.chunkStart k) = true ∧ Repeated e k v w' ∨
      v.pages.table.contains (e.chunkStart k) = false ∧
        w'.ring.toList = v.ring.toList ++ [e.chunkRecord k]) :
    Displaced e k w.ring.toList w'.ring.toList := by
  rcases hload with ⟨hstays, _, _, _, rfl⟩ | ⟨hgone, hlist⟩
  · rw [show _ = w.ring.toList.drop n from h.ring]
    exact .stayed hpos h.le ((h.contains _).mp hstays).2
  · have hdropped : ∃ r ∈ w.ring.toList.take n, r.Covers (e.chunkStart k) := by
      by_contra hnone
      have hstays := (h.contains (e.chunkStart k)).mpr
        ⟨hthere, fun r hr hcovers => hnone ⟨r, hr, hcovers⟩⟩
      rw [hgone] at hstays
      cases hstays
    obtain ⟨r, hr, hcovers⟩ := hdropped
    rw [hlist, h.ring]
    exact .reloaded hpos h.le hr hcovers

theorem handleFault_repeats {address : Nat} (h : History obliging w)
    (hhigh : w.limits.high < 2 ^ 63)
    (he : e ∈ w.objects.toList) (hbody : e.InBody address)
    (hthere : w.pages.table.contains (e.chunkStart (e.chunkNumber address)))
    (hfills : Fills e (e.chunkNumber address)) :
    Ends (handleFault address) w
      (fun _ w' => w.used + (e.value.geometry.chunk (e.chunkNumber address)).bytes ≤ w.limits.high ∧
          Repeated e (e.chunkNumber address) (faulted w) w' ∨
        w.limits.high < w.used + (e.value.geometry.chunk (e.chunkNumber address)).bytes ∧
          Displaced e (e.chunkNumber address) w.ring.toList w'.ring.toList)
      fun _ _ =>
        w.limits.high < w.used + (e.value.geometry.chunk (e.chunkNumber address)).bytes := by
  obtain ⟨hfiled, ⟨lost, howes⟩, hmarks⟩ := h.upright
  have hlodged := h.lodged
  have hsearchable := hlodged.searchable he hbody hthere
  have hcontent := (hfiled.regular he).content_le_bytes (k := e.chunkNumber address)
  have hdouble : 2 * w.limits.high < wordBound := by
    unfold wordBound
    omega
  obtain ⟨scratch, hbytes, hfiled', hrun⟩ :=
    handleFault_begins hfiled h.sized hdouble he hbody hsearchable
  set k := e.chunkNumber address
  have hr : (e.chunkRecord k).IsChunkOf e k := chunkRecord_isChunkOf hfiled he hbody hsearchable
  have hfits : (e.value.geometry.chunk k).bytes ≤ w.limits.high := h.sized e he k
  have hstart := chunkStart_eq hfiled he hr
  have hwords : w.limits.high < wordBound := by omega
  set grown : Worker ScriptedMemory γ := { faulted w with scratch }
  have howes' : grown.toDesk.Owes lost := howes.of_eq rfl rfl rfl
  refine Ends.of_run_eq ?_ hrun
  rw [ends_bind]
  refine ((evictFor_ends (w := grown) hfiled' howes' hmarks.le hfits).and
    (evictFor_eases (w := grown) hfiled' howes' hlodged.willing hmarks.le hfits hwords)).mono ?_
    fun _ _ hfails => hfails.2
  rintro _ v ⟨⟨_, hv, -⟩, ⟨hroom, rfl⟩ | ⟨hcross, n, hpos, heased⟩⟩
  · refine (loadChunk_tells (w := grown) hfills (hcontent.trans hbytes) hstart hlodged.willing
      hfiled.ring).mono ?_ fun _ _ habsent => ?_
    · rintro _ w' (⟨-, hrepeated⟩ | ⟨habsent, -⟩)
      · exact .inl ⟨hroom, hrepeated⟩
      · exact absurd hthere (Bool.eq_false_iff.mp habsent)
    · exact absurd hthere (Bool.eq_false_iff.mp habsent)
  · refine (loadChunk_tells hfills (hcontent.trans (hbytes.trans hv.scratch)) hstart
      heased.willing hv.filed.ring).mono ?_ fun _ _ _ => hcross
    exact fun _ w' hload => .inr ⟨hcross, heased.displaced (w := grown) hpos hthere hload⟩

/-- **A fault on a chunk that is there changes nothing but counts if the chunk would fit once
more, and else it drops chunks.** In every history over a memory that refuses nothing, let the
address lie in a chunk that is resident, and let the callback fill it. If its bytes fit under the
high mark in addition to those in use, the fault is handled, it is counted as a duplicate, and
objects, records, bytes in use and pages are as they were. If they do not, room is made first: if
the fault is handled, at least the oldest record has gone, and it fails only with an excuse, or
where bytes of lost records were in use already. -/
theorem repeated_fault_exact (h : History obliging w) (hhigh : w.limits.high < 2 ^ 63)
    {address : Nat} (he : e ∈ w.objects.toList) (hbody : e.InBody address)
    (hthere : w.pages.table.contains (e.chunkStart (e.chunkNumber address)))
    (hfills : Fills e (e.chunkNumber address)) :
    (w.used + (e.value.geometry.chunk (e.chunkNumber address)).bytes ≤ w.limits.high →
      ∃ w', handleFault address w = .ok () w' ∧
        Repeated e (e.chunkNumber address) (faulted w) w') ∧
    (w.limits.high < w.used + (e.value.geometry.chunk (e.chunkNumber address)).bytes →
      Ends (handleFault address) w
        (fun _ w' => Displaced e (e.chunkNumber address) w.ring.toList w'.ring.toList)
        fun f w' => Excused e (e.chunkNumber address) w f w' ∨
          ∃ lost, 0 < lost ∧ w.toDesk.Owes lost) := by
  have hends := handleFault_repeats h hhigh he hbody hthere hfills
  constructor
  · intro hroom
    cases hact : handleFault address w with
    | ok a w' =>
      refine ⟨w', rfl, ?_⟩
      rcases hends.of_ok hact with hrepeated | ⟨hcross, -⟩
      · exact hrepeated.2
      · exact absurd hroom (Nat.not_le.mpr hcross)
    | error f w' => exact absurd hroom (Nat.not_le.mpr (hends.of_error hact))
  · intro hcross
    obtain ⟨hfiled, ⟨lost, howes⟩, hmarks⟩ := h.upright
    have hfails : Ends (handleFault address) w (fun _ _ => True) fun f w' =>
        Excused e (e.chunkNumber address) w f w' ∨ ∃ lost, 0 < lost ∧ w.toDesk.Owes lost := by
      rcases Nat.eq_zero_or_pos lost with rfl | hlost
      · have hdouble : 2 * w.limits.high < wordBound := by
          unfold wordBound
          omega
        exact (handleFault_excused hfiled howes hmarks.le h.sized hdouble he hbody
          (h.lodged.searchable he hbody hthere)).mono (fun _ _ _ => trivial) fun _ _ => .inl
      · exact .of_forall (fun _ _ => trivial) fun _ _ => .inr ⟨lost, hlost, howes⟩
    refine (hends.and hfails).mono ?_ fun _ _ hfails => hfails.2
    rintro _ w' ⟨⟨hroom, -⟩ | ⟨-, hdisplaced⟩, -⟩
    · exact absurd hroom (Nat.not_le.mpr hcross)
    · exact hdisplaced

/-- Runs of the sample object are such histories, and they have no other object. -/
theorem sampleRun_obliging : History obliging (sampleRun []) ∧
    ∀ e ∈ (sampleRun []).objects.toList, e.value = sampleObject := by
  have hstart : History obliging sampleStart :=
    .start sampleDesk_eq (by decide) ⟨.of_nil rfl, fun _ => rfl⟩
  have hending : ending (allocate sampleObject) sampleStart = none := by decide +kernel
  have hstep : Returns (allocate sampleObject) sampleStart (sampleRun []) :=
    .inl (eq_ok_of_ending hending)
  refine ⟨.allocate hstart sampleObject_built trivial hstep, fun e he => ?_⟩
  obtain ⟨-, -, hplacing⟩ := hstart.upright.allocate sampleObject_built hstep
  rcases hplacing.mem_objects hstart.upright.filed.objects he with hold | hnew
  · exact absurd hold List.not_mem_nil
  · exact hnew

theorem sampleRun_obliging_fault {address : Nat} {rest : List Nat}
    (h : History obliging (sampleRun rest) ∧
      ∀ e ∈ (sampleRun rest).objects.toList, e.value = sampleObject)
    (hok : ending (handleFault address) (sampleRun rest) = none) :
    History obliging (sampleRun (address :: rest)) ∧
      ∀ e ∈ (sampleRun (address :: rest)).objects.toList, e.value = sampleObject := by
  have hstep : Returns (handleFault address) (sampleRun rest) (sampleRun (address :: rest)) :=
    .inl (eq_ok_of_ending hok)
  obtain ⟨-, -, hmoves⟩ := h.1.upright.fault hstep
  exact ⟨.fault h.1 hstep, fun e he => h.2 e (hmoves.objects_subset he)⟩

/-- The first chunk of the sample object. -/
theorem sample_first_chunk {w : Worker ScriptedMemory Unit}
    (hvalues : ∀ e ∈ w.objects.toList, e.value = sampleObject)
    (hstarts : (w.objects.toList.map fun e => e.start) = [0x10000000]) :
    ∃ e ∈ w.objects.toList, e.InBody 0x10000000 ∧
      e.chunkStart (e.chunkNumber 0x10000000) = 0x10000000 ∧
      (e.value.geometry.chunk (e.chunkNumber 0x10000000)).bytes = 16 ∧
      Fills e (e.chunkNumber 0x10000000) := by
  obtain ⟨e, he, hstart⟩ := List.map_eq_singleton_iff.mp hstarts
  have hmem : e ∈ w.objects.toList := he ▸ List.mem_singleton_self e
  have hvalue := hvalues e hmem
  refine ⟨e, hmem, ?_, ?_, ?_, fun target client _ => ?_⟩
  · unfold Interval.InBody Interval.bodyStart
    rw [hstart, hvalue]
    decide
  · unfold Interval.chunkStart Interval.chunkNumber Interval.bodyStart
    rw [hstart, hvalue]
    decide
  · unfold Interval.chunkNumber Interval.bodyStart
    rw [hstart, hvalue]
    decide
  · rw [hvalue]
    rfl

/-- A second fault on a chunk changes nothing while one chunk is in use. When two are, both of them
go, and the chunk is loaded anew. -/
theorem repeated_fault_exact_sample :
    (∃ w', handleFault 0x10000000 (sampleRun [0x10000000]) = .ok () w' ∧
      w'.ring = (sampleRun [0x10000000]).ring ∧ w'.pages = (sampleRun [0x10000000]).pages) ∧
    ∃ (e : Interval (Object Unit)) (w' : Worker ScriptedMemory Unit),
      handleFault 0x10000000 (sampleRun [0x10000010, 0x10000000]) = .ok () w' ∧
      Displaced e (e.chunkNumber 0x10000000)
        (sampleRun [0x10000010, 0x10000000]).ring.toList w'.ring.toList ∧
      w'.ring.toList = [{ address := 0x10000000, size := 16, owner := 1 }] := by
  have hfirst : ending (handleFault 0x10000000) (sampleRun []) = none := by decide +kernel
  have hone := sampleRun_obliging_fault sampleRun_obliging hfirst
  have hsecond : ending (handleFault 0x10000010) (sampleRun [0x10000000]) = none := by
    decide +kernel
  have htwo := sampleRun_obliging_fault hone hsecond
  constructor
  · have hstarts : ((sampleRun [0x10000000]).objects.toList.map fun e => e.start) =
        [0x10000000] := by decide +kernel
    have hthere : (sampleRun [0x10000000]).pages.table.contains 0x10000000 := by decide +kernel
    have hroom : (sampleRun [0x10000000]).used + 16 ≤ (sampleRun [0x10000000]).limits.high ∧
        (sampleRun [0x10000000]).limits.high < 2 ^ 63 := by decide +kernel
    generalize sampleRun [0x10000000] = w at hone hstarts hthere hroom ⊢
    obtain ⟨e, he, hbody, hchunk, hbytes, hfills⟩ := sample_first_chunk hone.2 hstarts
    obtain ⟨w', hok, _, _, _, rfl⟩ := (repeated_fault_exact hone.1 hroom.2 he hbody
      (hchunk.symm ▸ hthere) hfills).1 (hbytes.symm ▸ hroom.1)
    exact ⟨_, hok, rfl, rfl⟩
  · have hstarts : ((sampleRun [0x10000010, 0x10000000]).objects.toList.map fun e => e.start) =
        [0x10000000] := by decide +kernel
    have hthere : (sampleRun [0x10000010, 0x10000000]).pages.table.contains 0x10000000 := by
      decide +kernel
    have hcross : (sampleRun [0x10000010, 0x10000000]).limits.high <
          (sampleRun [0x10000010, 0x10000000]).used + 16 ∧
        (sampleRun [0x10000010, 0x10000000]).limits.high < 2 ^ 63 := by decide +kernel
    have hending : ending (handleFault 0x10000000) (sampleRun [0x10000010, 0x10000000]) = none := by
      decide +kernel
    have hring : (after (handleFault 0x10000000)
        (sampleRun [0x10000010, 0x10000000])).ring.toList =
          [{ address := 0x10000000, size := 16, owner := 1 }] := by decide +kernel
    obtain ⟨⟨⟩, hok⟩ := eq_ok_of_ending hending
    generalize sampleRun [0x10000010, 0x10000000] = w at htwo hstarts hthere hcross hring hok ⊢
    obtain ⟨e, he, hbody, hchunk, hbytes, hfills⟩ := sample_first_chunk htwo.2 hstarts
    exact ⟨e, _, hok, ((repeated_fault_exact htwo.1 hcross.2 he hbody (hchunk.symm ▸ hthere)
      hfills).2 (hbytes.symm ▸ hcross.1)).of_ok hok, hring⟩

end Worker
end DemandPager
