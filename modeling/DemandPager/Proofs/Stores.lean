/-
# Objects and their stores

The callers keep a store for each object. An object is filled from its store, and what
is handed over goes back there. Then the bodies can be thought of as arrays that are
always there: `Mirrors store body s` says that a resident byte of an element is that of
`body`, and that every store has the bytes of `body` but for those that are resident
in an object that hands them over.

Every move keeps this (`Moves.mirrors`): a chunk that is loaded comes from the store, and
one that is dropped was handed over before.

Key definitions: `Bodies`, `Object.FilledFrom`, `Object.KeepsStore`, `Mirrors`.
Key theorems: `Mirrors.offered`, `Mirrors.load`, `Mirrors.strike`, `Moves.mirrors`.
-/
import DemandPager.Content
import DemandPager.Proofs.Residency

namespace DemandPager

variable {γ : Type}

/-- The bytes of bodies, by the numbers of their objects and their positions. -/
abbrev Bodies := Nat → Nat → UInt8

/-- Bodies in one of which bytes were written from a position on. -/
def Bodies.write (b : Bodies) (id position : Nat) (bytes : Bytes) : Bodies := fun id' p =>
  if id' = id ∧ position ≤ p ∧ p < position + bytes.length then bytes.getD (p - position) 0
  else b id' p

theorem Bodies.write_inside {b : Bodies} {id position p : Nat} {bytes : Bytes}
    (hle : position ≤ p) (hlt : p < position + bytes.length) :
    bytes[p - position]? = some (b.write id position bytes id p) := by
  have hin : p - position < bytes.length := by omega
  unfold write
  rw [if_pos ⟨rfl, hle, hlt⟩, List.getElem?_eq_getElem hin]
  simp [hin]

theorem Bodies.write_outside {b : Bodies} {id position id' p : Nat} {bytes : Bytes}
    (h : ¬(id' = id ∧ position ≤ p ∧ p < position + bytes.length)) :
    b.write id position bytes id' p = b id' p := if_neg h

/-! ### Callbacks -/

/-- The elements of the object are filled from its store. -/
def Object.FilledFrom (store : γ → Bodies) (o : Object γ) : Prop :=
  ∀ first stop target client,
    (o.callbacks.populate first stop target client).1 = .filled ∧
      (o.callbacks.populate first stop target client).2.1 =
        bytesAt (first * o.geometry.stride) target.length (store client o.id)

/-- The callbacks keep the stores. An object that can be written is filled from its store
and hands its elements back to it; apart from that no callback touches a store. -/
structure Object.KeepsStore (store : γ → Bodies) (o : Object γ) : Prop where
  populate : ∀ first stop target client,
    store (o.callbacks.populate first stop target client).2.2 = store client
  destructor : ∀ client, store (o.finished client) = store client
  filled : o.geometry.readOnly = false → o.FilledFrom store
  writeBack : o.geometry.readOnly = false → ∃ hook, o.callbacks.writeBack = some hook ∧
    ∀ first stop bytes client, (hook first stop bytes client).1 = .taken ∧
      store (hook first stop bytes client).2 =
        (store client).write o.id (first * o.geometry.stride) bytes

theorem length_bytesAt (position len : Nat) (f : Nat → UInt8) :
    (bytesAt position len f).length = len := by
  unfold bytesAt
  rw [List.length_map, List.length_range]

theorem getElem?_bytesAt {position len i : Nat} {f : Nat → UInt8} (h : i < len) :
    (bytesAt position len f)[i]? = some (f (position + i)) := by
  unfold bytesAt
  rw [List.getElem?_map, List.getElem?_range h]
  rfl

variable {store : γ → Bodies} {body : Bodies} {p : Nat} {r : ChunkRecord}
  {e e' : Interval (Object γ)} {k : Nat} {s s' : View ScriptedMemory γ}

/-- The position of the first element of a chunk. -/
theorem Geometry.first_mul_stride (g : Geometry) (k : Nat) :
    (g.chunk k).first * g.stride = (g.chunk k).offset := Nat.mul_assoc ..

theorem Filled.store_eq {content : Bytes} {client client' : γ}
    (h : Filled e k client content client') (hkeeps : e.value.KeepsStore store) :
    store client' = store client := by
  obtain ⟨target, filled, -, hfill, -⟩ := h
  rw [(Object.fill_eq hfill).2]
  exact hkeeps.populate ..

theorem GaveUp.store_eq {client client' : γ} (h : GaveUp e k client client')
    (hkeeps : e.value.KeepsStore store) : store client' = store client := by
  obtain ⟨target, reason, filled, -, hfill⟩ := h
  rw [(Object.fill_eq hfill).2]
  exact hkeeps.populate ..

/-- A chunk that is filled from a store has the bytes of the store. -/
theorem Filled.getElem?_content {content : Bytes} {client client' : γ}
    (h : Filled e k client content client') (hfrom : e.value.FilledFrom store) {i : Nat}
    (hi : i < e.contentLen k) : content[i]? =
      some (store client e.value.id ((e.value.geometry.chunk k).offset + i)) := by
  obtain ⟨target, filled, htarget, hfill, rfl⟩ := h
  obtain ⟨-, hwritten⟩ := hfrom (e.value.geometry.chunk k).first (e.value.geometry.chunk k).stop
    target client
  rw [(Object.fill_eq hfill).1, hwritten, Bytes.overlay_eq (length_bytesAt ..), htarget,
    Geometry.first_mul_stride, List.getElem?_append_left (by rw [length_bytesAt]; exact hi),
    getElem?_bytesAt hi]

/-- A chunk that is offered is handed to the store byte for byte, if at all. -/
theorem Offered.store_eq {pages pages' : ScriptedMemory} {client client' : γ}
    (h : Offered e k pages client pages' client') (hkeeps : e.value.KeepsStore store)
    (hwilling : pages.Willing) (hps : 0 < pages.pageSize)
    (hwhole : pages.table.Whole pages.pageSize) :
    (e.value.wantsWriteBack = false ∧ client' = client) ∨
      e.value.wantsWriteBack = true ∧ ∃ bytes : Bytes, bytes.length = e.contentLen k ∧
        (∀ i < e.contentLen k,
          pages.table.byte? pages.pageSize (e.chunkStart k + i) = bytes[i]?) ∧
        store client' =
          (store client).write e.value.id (e.value.geometry.chunk k).offset bytes := by
  cases h with
  | unwanted hwants => exact .inl ⟨hwants, rfl⟩
  | taken hwants hhook hread hgiven hcall =>
    obtain ⟨-, ⟨bytes, hok, hbytes⟩ | ⟨x, herr, -⟩⟩ :=
      ScriptedMemory.called_readResident hwilling hread
    · cases hok
      obtain ⟨hlength, hthere⟩ := PageTable.read_eq_ok hps hwhole hbytes
      rw [hgiven hlength] at hcall
      have hwritable : e.value.geometry.readOnly = false := by
        unfold Object.wantsWriteBack at hwants
        simp only [Bool.and_eq_true, Bool.not_eq_true'] at hwants
        exact hwants.1
      obtain ⟨hook, hhook', hstores⟩ := hkeeps.writeBack hwritable
      rw [hhook] at hhook'
      cases hhook'
      refine .inr ⟨hwants, _, hlength, hthere, ?_⟩
      obtain ⟨-, hstored⟩ := hstores (e.value.geometry.chunk k).first
        (e.value.geometry.chunk k).stop _ client
      rwa [hcall, Geometry.first_mul_stride] at hstored
    · cases herr

theorem Object.KeepsStore.wantsWriteBack {o : Object γ} (h : o.KeepsStore store)
    (hwritable : o.geometry.readOnly = false) : o.wantsWriteBack := by
  obtain ⟨hook, hhook, -⟩ := h.writeBack hwritable
  unfold Object.wantsWriteBack
  rw [hwritable, hhook]
  rfl

/-! ### Bodies -/

/-- Resident bytes and stores together hold the bodies. -/
structure Mirrors (store : γ → Bodies) (body : Bodies) (s : View ScriptedMemory γ) : Prop
    extends Resides s where
  whole : s.pages.table.Whole s.pages.pageSize
  keeps : ∀ e ∈ s.objects, e.value.KeepsStore store
  /-- A resident byte of an element is that of the body. -/
  current : ∀ e ∈ s.objects, e.value.FilledFrom store → ∀ i < e.value.geometry.bodyLen, ∀ b,
    s.pages.table.byte? s.pages.pageSize (e.bodyStart + i) = some b → b = body e.value.id i
  /-- A byte of a store is that of the body, unless it is resident and will be handed
  over. -/
  stored : ∀ id i, store s.client id i = body id i ∨ ∃ e ∈ s.objects, e.value.id = id ∧
    e.value.wantsWriteBack ∧ i < e.value.geometry.bodyLen ∧
      s.pages.table.byte? s.pages.pageSize (e.bodyStart + i) ≠ none

theorem Object.KeepsStore.filledFrom {o : Object γ} (h : o.KeepsStore store)
    (hwants : o.wantsWriteBack) : o.FilledFrom store := by
  unfold Object.wantsWriteBack at hwants
  simp only [Bool.and_eq_true, Bool.not_eq_true'] at hwants
  exact h.filled hwants.1

namespace Mirrors

/-- Without objects the bodies are what the stores hold. -/
theorem of_empty (h : Resides s) (hobjects : s.objects = [])
    (hempty : ∀ p, s.pages.table.contains p = false) : Mirrors store (store s.client) s := by
  refine ⟨h, fun p content hp => ?_, ?_, ?_, fun _ _ => .inl rfl⟩
  · have hthere := PageTable.contains_iff.mpr (Option.isSome_of_eq_some hp)
    cases (hempty p).symm.trans hthere
  all_goals
    rw [hobjects]
    exact fun _ he => absurd he List.not_mem_nil

/-- A byte that is not there is in the store. -/
theorem store_eq (h : Mirrors store body s) (he : e ∈ s.objects) {i : Nat}
    (hnone : s.pages.table.byte? s.pages.pageSize (e.bodyStart + i) = none) :
    store s.client e.value.id i = body e.value.id i := by
  rcases h.stored e.value.id i with heq | ⟨e', he', hid, -, -, hthere⟩
  · exact heq
  · rw [h.ids e' he' e he hid] at hthere
    exact absurd hnone hthere

/-- The same pages and the same stores. -/
theorem change (h : Mirrors store body s) (hs' : Resides s') (hobjects : s'.objects = s.objects)
    (htable : s'.pages.table = s.pages.table) (hsize : s'.pages.pageSize = s.pages.pageSize)
    (hstore : store s'.client = store s.client) : Mirrors store body s' := by
  refine ⟨hs', ?_, ?_, ?_, ?_⟩
  all_goals simp only [hobjects, htable, hsize, hstore]
  · exact h.whole
  · exact h.keeps
  · exact h.current
  · exact h.stored

/-- A chunk that is offered leaves in the stores what was there or what is in the body, and
what is in the body if it is wanted. -/
theorem offered (h : Mirrors store body s) (he : e ∈ s.objects)
    (hk : e.value.geometry.HasChunk k) {pages : ScriptedMemory} {client : γ}
    (hoffer : Offered e k s.pages s.client pages client) :
    (∀ id i, store client id i = store s.client id i ∨ store client id i = body id i) ∧
      (e.value.wantsWriteBack → ∀ i, (e.value.geometry.chunk k).offset ≤ i →
        i < (e.value.geometry.chunk k).offset + e.contentLen k →
        store client e.value.id i = body e.value.id i) := by
  rcases hoffer.store_eq (h.keeps e he) h.willing (h.page_pos he) h.whole with
    ⟨hwants, rfl⟩ | ⟨hwants, bytes, hlength, hthere, hstore⟩
  · refine ⟨fun _ _ => .inl rfl, fun h => ?_⟩
    rw [hwants] at h
    cases h
  have hinside : ∀ i, (e.value.geometry.chunk k).offset ≤ i →
      i < (e.value.geometry.chunk k).offset + e.contentLen k →
      store client e.value.id i = body e.value.id i := by
    intro i hle hlt
    have hend : (e.value.geometry.chunk k).offset + e.contentLen k ≤ e.value.geometry.bodyLen :=
      Geometry.Regular.content_end_le hk
    have hbyte := hthere (i - (e.value.geometry.chunk k).offset) (by omega)
    have hplace : e.chunkStart k + (i - (e.value.geometry.chunk k).offset) = e.bodyStart + i := by
      unfold Interval.chunkStart
      omega
    have hwritten : bytes[i - (e.value.geometry.chunk k).offset]? =
        some ((store s.client).write e.value.id _ bytes e.value.id i) :=
      Bodies.write_inside hle (by omega)
    rw [hwritten, ← hstore, hplace] at hbyte
    exact h.current e he ((h.keeps e he).filledFrom hwants) i (by omega) _ hbyte
  refine ⟨fun id i => ?_, fun _ => hinside⟩
  by_cases hin : id = e.value.id ∧ (e.value.geometry.chunk k).offset ≤ i ∧
      i < (e.value.geometry.chunk k).offset + bytes.length
  · obtain ⟨rfl, hle, hlt⟩ := hin
    exact .inr (hinside i hle (by omega))
  · rw [hstore, Bodies.write_outside hin]
    exact .inl rfl

/-- A chunk is offered and stays. -/
theorem offer (h : Mirrors store body s) (he : e ∈ s.objects)
    (hk : e.value.geometry.HasChunk k) {pages : ScriptedMemory} {client : γ}
    (hoffer : Offered e k s.pages s.client pages client) :
    Mirrors store body { s with pages, client } := by
  obtain ⟨hkept, -⟩ := h.offered he hk hoffer
  obtain rfl := hoffer.pages_eq h.willing
  refine ⟨h.toResides.withClient _, h.whole, h.keeps, h.current, fun id i => ?_⟩
  rcases h.stored id i with heq | hthere
  · exact .inl ((hkept id i).elim (·.trans heq) fun heq => heq)
  · exact .inr hthere

/-- The oldest chunk is offered and dropped. -/
theorem evict (h : Mirrors store body s) {rest : List ChunkRecord} (hs : s.records = r :: rest)
    (he : e ∈ s.objects) (hr : r.IsChunkOf e k) {pages : ScriptedMemory} {client : γ}
    (hoffer : Offered e k s.pages s.client pages client) :
    Mirrors store body { s with
      pages := s.pages.withTable (s.pages.table.dropRange r.address r.size)
      client
      records := rest } := by
  obtain ⟨hkept, hwanted⟩ := h.offered he hr.hasChunk hoffer
  refine ⟨(h.toResides.evict hs he hr).withClient client, h.whole.dropRange, h.keeps, ?_, ?_⟩
  · intro e' he' hfrom i hi b hb
    apply h.current e' he' hfrom i hi b
    have hdrop := (PageTable.byte?_dropRange ..).symm.trans hb
    split at hdrop
    · cases hdrop
    · exact hdrop
  · intro id i
    rcases h.stored id i with heq | ⟨e', he', rfl, hwants, hi, hthere⟩
    · exact .inl ((hkept id i).elim (·.trans heq) fun heq => heq)
    · by_cases hpage : r.Covers (pageOf s.pages.pageSize (e'.bodyStart + i))
      · obtain ⟨rfl, hle, hlt⟩ := h.in_content he hr he' hi hthere hpage
        exact .inl (hwanted hwants i hle hlt)
      · have hsame := (PageTable.byte?_dropRange s.pages.table ..).trans (if_neg hpage)
        exact .inr ⟨e', he', rfl, hwants, hi, fun hnone => hthere (hsame.symm.trans hnone)⟩

/-- A chunk is filled, installed and recorded. -/
theorem load (h : Mirrors store body s) {content : Bytes} {client : γ} (he : e ∈ s.objects)
    (hr : r.IsChunkOf e k) (hfill : Filled e k s.client content client)
    (hnew : s.pages.table.contains r.address = false) :
    Mirrors store body { s with
      pages := s.pages.withTable (s.pages.installed r.address content)
      client
      records := s.records ++ [r] } := by
  have hps := h.page_pos he
  have hlength := hfill.length hr (h.regular he)
  have hdvd : s.pages.pageSize ∣ content.length := hlength ▸ h.size_dvd he hr
  have hcount : content.length =
      (content.length + s.pages.pageSize - 1) / s.pages.pageSize * s.pages.pageSize :=
    (ceiling_of_dvd hps hdvd).symm
  refine ⟨h.toResides.load he hr hlength hnew client, ?_, h.keeps, ?_, ?_⟩
  · exact PageTable.Whole.setAll _ h.whole fun page hpage => PageTable.length_of_mem_cutPages hpage
  · intro e' he' hfrom i hi b hb
    set a := e'.bodyStart + i with ha
    by_cases hpage : pageOf s.pages.pageSize a ∈ pagesIn s.pages.pageSize r.address content.length
    · -- the byte is one of the new content, which is that of the store
      obtain ⟨hle, hlt, hmod⟩ := (mem_pagesIn hps hdvd).mp hpage
      have hzero : r.address % s.pages.pageSize = 0 :=
        hmod.symm.trans (Nat.mod_eq_zero_of_dvd (dvd_pageOf ..))
      obtain ⟨hlea, hlta⟩ :=
        (pageOf_mem_range hps (Nat.dvd_of_mod_eq_zero hzero) hdvd a).mp ⟨hle, hlt⟩
      have hcovers : r.Covers a := ⟨hlea, hlength ▸ hlta⟩
      obtain rfl := h.eq_of_holds he' he (h.holds_body he' hi) (h.holds he hr hcovers).2
      have hplace : a - r.address = i - (e'.value.geometry.chunk k).offset := by
        rw [hr.address]
        omega
      have hbounds := hcovers
      unfold ChunkRecord.Covers at hbounds
      rw [hr.address, hr.size] at hbounds
      have hin := (h.regular he).lt_content_end hr.hasChunk (show i < _ by omega) hi
      have hnew' :=
        PageTable.byte?_setAll_cutPages hps (Nat.dvd_of_mod_eq_zero hzero) hcount hlea hlta
        (t := s.pages.table)
      rw [hplace, hfill.getElem?_content hfrom (by unfold Interval.contentLen; omega),
        Nat.add_sub_cancel' (by omega)] at hnew'
      rw [Option.some.inj (hb.symm.trans hnew')]
      exact h.store_eq he (h.absent he hr hnew hcovers)
    · have hsame := PageTable.get?_setAll_of_not_mem _ s.pages.table
        (ScriptedMemory.map_fst_cut s.pages r.address content ▸ hpage)
      exact h.current e' he' hfrom i hi b ((PageTable.byte?_congr hsame).symm.trans hb)
  · intro id i
    rcases h.stored id i with heq | ⟨e', he', hid, hwants, hi, hthere⟩
    · exact .inl ((congrFun₂ (hfill.store_eq (h.keeps e he)) id i).trans heq)
    · refine .inr ⟨e', he', hid, hwants, hi, PageTable.byte?_ne_none.mpr ?_⟩
      exact (ScriptedMemory.contains_installed hps hdvd).mpr
        (.inr (PageTable.byte?_ne_none.mp hthere))

end Mirrors

/-- Chunks that are offered one after the other leave the bodies where they are, and all
that are wanted are in the stores. -/
theorem OfferedAll.mirrors {objects : List (Interval (Object γ))}
    {records all : List ChunkRecord} {pages pages' : ScriptedMemory} {client client' : γ}
    {growable : Bool} (h : OfferedAll objects records pages client pages' client')
    (hs : Mirrors store body ⟨pages, client, objects, all, growable⟩) :
    Mirrors store body ⟨pages', client', objects, all, growable⟩ ∧
      (∀ id i, store client' id i = store client id i ∨ store client' id i = body id i) ∧
      ∀ e ∈ objects, e.value.wantsWriteBack → ∀ r ∈ records, ∀ k, r.IsChunkOf e k →
        ∀ i, (e.value.geometry.chunk k).offset ≤ i →
          i < (e.value.geometry.chunk k).offset + e.contentLen k →
          store client' e.value.id i = body e.value.id i := by
  induction h with
  | nil => exact ⟨hs, fun _ _ => .inl rfl, fun _ _ _ _ hr => (List.not_mem_nil hr).elim⟩
  | @cons r rest e k pages pages₁ pages₂ client client₁ client₂ he hr hoffer hrest ih =>
    obtain ⟨hkept, hwanted⟩ := hs.offered he hr.hasChunk hoffer
    obtain ⟨hs', hkept', hwanted'⟩ := ih (hs.offer he hr.hasChunk hoffer)
    refine ⟨hs', fun id i => ?_, fun e' he' hwants x hx k' hk i hle hlt => ?_⟩
    · rcases hkept' id i with heq | heq
      · rw [heq]
        exact hkept id i
      · exact .inr heq
    · rcases List.mem_cons.mp hx with rfl | hx
      · obtain rfl := hs.ids e' he' e he (hk.owner.symm.trans hr.owner)
        have hfirst : x.Covers x.address := by
          have hpos := hr.size_pos (hs.regular he)
          unfold ChunkRecord.Covers
          omega
        obtain ⟨-, rfl⟩ := hs.chunk_eq he he hk hr hfirst hfirst
        rcases hkept' e'.value.id i with heq | heq
        · rw [heq]
          exact hwanted hwants i hle hlt
        · exact heq
      · exact hwanted' e' he' hwants x hx k' hk i hle hlt

/-- An object goes: its store has its whole body. -/
theorem Mirrors.strike (h : Mirrors store body s) (he : e ∈ s.objects) {client : γ}
    (hoffer : OfferedAll s.objects (e.offerable s.records) s.pages s.client s.pages client) :
    Mirrors store body { s with
      pages := s.pages.withTable (s.pages.table.dropRange e.start e.len)
      client := e.value.finished client
      objects := s.objects.filter (·.start ≠ e.start)
      records := Ring.retired e.value.id s.records } := by
  obtain ⟨-, hkept, hwanted⟩ := hoffer.mirrors h
  have hother : ∀ e' ∈ s.objects.filter (·.start ≠ e.start), e' ∈ s.objects := fun e' he' =>
    ((h.mem_others he).mp he').1
  have hfinished : store (e.value.finished client) = store client :=
    (h.keeps e he).destructor client
  refine ⟨h.toResides.strike he _, h.whole.dropRange, fun e' he' => h.keeps e' (hother e' he'),
    ?_, ?_⟩
  · intro e' he' hfrom i hi b hb
    apply h.current e' (hother e' he') hfrom i hi b
    have hdrop := (PageTable.byte?_dropRange ..).symm.trans hb
    split at hdrop
    · cases hdrop
    · exact hdrop
  · intro id i
    show store (e.value.finished client) id i = body id i ∨ _
    rw [hfinished]
    rcases h.stored id i with heq | ⟨e', he', rfl, hwants, hi, hthere⟩
    · exact .inl ((hkept id i).elim (·.trans heq) fun heq => heq)
    · by_cases hsame : e' = e
      · obtain rfl := hsame
        obtain ⟨r, hr, k, hk, hle, hlt⟩ := h.chunk_of_byte? he hi hthere
        have hoffered : r ∈ e'.offerable s.records := by
          unfold Interval.offerable
          rw [if_pos hwants, List.mem_filter, Bool.and_eq_true, beq_iff_eq, ChunkRecord.isLive_iff]
          exact ⟨hr, hk.owner, hk.size_pos (h.regular he)⟩
        exact .inl (hwanted e' he hwants r hoffered k hk i hle hlt)
      · have hout : ¬(e.start ≤ pageOf s.pages.pageSize (e'.bodyStart + i) ∧
            pageOf s.pages.pageSize (e'.bodyStart + i) < e.start + e.len) := fun hin =>
          hsame (h.eq_of_holds he' he (h.of_byte? he' (h.holds_body he' hi) hthere).2.1 hin)
        have hbyte := (PageTable.byte?_dropRange s.pages.table ..).trans (if_neg hout)
        exact .inr ⟨e', (h.mem_others he).mpr ⟨he', hsame⟩, rfl, hwants, hi,
          fun hnone => hthere (hbyte.symm.trans hnone)⟩

/-- **Every move leaves the bodies where they are.** -/
theorem Move.mirrors (h : Move s s') (hs : Mirrors store body s) : Mirrors store body s' := by
  have hresides := h.resides hs.toResides
  cases h with
  | skip => exact hs.change hresides rfl rfl rfl rfl
  | evict hrecords he hr hoffer hdiscard =>
    have hsame := hoffer.pages_eq hs.willing
    subst hsame
    obtain ⟨-, rfl⟩ := ScriptedMemory.called_discard hs.willing hdiscard
    exact hs.evict hrecords he hr hoffer
  | lose hlose =>
    cases hlose with
    | intro _ _ _ _ hread =>
      obtain ⟨rfl, -⟩ := ScriptedMemory.called_readResident hs.willing hread
      exact hs.change hresides rfl rfl rfl rfl
  | offer _ he hk hoffer => exact hs.offer he hk.hasChunk hoffer
  | unread hread =>
    obtain ⟨rfl, -⟩ := ScriptedMemory.called_readResident hs.willing hread
    exact hs
  | unregister hcall =>
    obtain ⟨-, rfl⟩ := ScriptedMemory.called_unregister hs.willing hcall
    exact hs
  | giveUp he _ hgave =>
    exact hs.change hresides rfl rfl rfl (hgave.store_eq (hs.keeps _ he))
  | load he hr hfill hinstall =>
    rcases ScriptedMemory.called_install hs.willing hinstall with ⟨-, hfalse, -⟩ | ⟨hnew, -, rfl⟩
    · cases hfalse
    · exact hs.load he hr hfill hnew
  | spill _ _ _ _ hgrow =>
    rw [hs.growable] at hgrow
    cases hgrow
  | waste he _ hfill hinstall hresult =>
    rcases ScriptedMemory.called_install hs.willing hinstall with ⟨-, -, rfl⟩ | ⟨-, htrue, -⟩
    · exact hs.change hresides rfl rfl rfl (hfill.store_eq (hs.keeps _ he))
    · exact absurd htrue hresult
  | strike he hoffer hunregister hrelease =>
    have hsame := hoffer.pages_eq hs.willing
    subst hsame
    obtain ⟨-, rfl⟩ := ScriptedMemory.called_unregister hs.willing hunregister
    obtain ⟨-, rfl⟩ := ScriptedMemory.called_release hs.willing hrelease
    exact hs.strike he hoffer

/-- Moves in a row do, too. -/
theorem Moves.mirrors (h : Moves s s') (hs : Mirrors store body s) : Mirrors store body s' := by
  induction h with
  | refl => exact hs
  | tail _ hmove ih => exact hmove.mirrors ih

end DemandPager
