/-
# What an operation enters and counts

The journal grows with each operation by a segment of a fixed form. The handling of a fault first
makes room (`DropLog`) and then loads a chunk or fails to (`LoadLog`); the creation of an object
makes calls about its reservation (`PlaceLog`); a release offers the live chunks of the object
(`OffersLog`), takes the registration back and gives the memory back. With the segment come the
records that were added or taken and the events that were counted.

The one thing that segments do not tell is a chunk that is lost because its read or its drop is
refused (`Worker.Lost`).

Key definitions: `LoadLog`, `PlaceLog`, `OffersLog`, `Worker.Resolved`, `Worker.Established`,
`Worker.Dissolved`, `Worker.ReleaseEnd`, `Worker.Comes`, `Worker.Restored`.
Key theorems: `Worker.handleFault_comes`, `Worker.allocate_comes`, `Worker.free_comes`.
-/
import DemandPager.Proofs.Residency
import DemandPager.Proofs.Room

namespace DemandPager

variable {π γ α : Type}

/-! ### Segments of the journal -/

/-- The entry of a call of the populate callback for chunk `k`. -/
def Interval.populating (e : Interval (Object γ)) (k : Nat) : JournalEntry :=
  .populate e.value.id (e.value.geometry.chunk k).first (e.value.geometry.chunk k).stop
    (e.contentLen k)

/-- A chunk is loaded, or it is not because it cannot be filled or installed or has no place on
record. The flag tells a success. -/
inductive LoadLog (objects : List (Interval (Object γ))) (growable : Bool) (client : γ) :
    Bool → List ChunkRecord → List JournalEntry → γ → Prop
  /-- There is no chunk to load. -/
  | unbegun : LoadLog objects growable client false [] [] client
  | unfilled {e : Interval (Object γ)} {k : Nat} {client' : γ} (he : e ∈ objects)
      (hfill : GaveUp e k client client') :
      LoadLog objects growable client false [] [e.populating k] client'
  | refused {e : Interval (Object γ)} {k : Nat} {content : Bytes} {cause : PagerError} {client' : γ}
      (he : e ∈ objects) (hfill : Filled e k client content client') :
      LoadLog objects growable client false []
        [e.populating k, .install (e.chunkStart k) content (.error cause)] client'
  /-- The chunk was there already. -/
  | present {e : Interval (Object γ)} {k : Nat} {content : Bytes} {client' : γ}
      (he : e ∈ objects) (hfill : Filled e k client content client') :
      LoadLog objects growable client true []
        [e.populating k, .install (e.chunkStart k) content (.ok false)] client'
  | loaded {e : Interval (Object γ)} {k : Nat} {r : ChunkRecord} {content : Bytes} {client' : γ}
      (he : e ∈ objects) (hfill : Filled e k client content client') (hr : r.IsChunkOf e k)
      (hlive : r.isLive = true) (hlen : content.length = r.size) :
      LoadLog objects growable client true [r]
        [e.populating k, .install r.address content (.ok true)] client'
  /-- The chunk is there, and the ring has no place for its record. -/
  | unrecorded {e : Interval (Object γ)} {k : Nat} {content : Bytes} {client' : γ}
      (he : e ∈ objects) (hfill : Filled e k client content client') (hgrow : growable = false) :
      LoadLog objects growable client false []
        [e.populating k, .install (e.chunkStart k) content (.ok true)] client'

/-- The entry is about a reservation that was made. -/
def JournalEntry.IsAbout (start len : Nat) : JournalEntry → Prop
  | .register s l _ | .unregister s l _ | .release s l _ => s = start ∧ l = len
  | .zero s _ _ => s = start
  | _ => False

/-- The memory of an object is reserved, and then all calls are about the reservation. -/
inductive PlaceLog (o : Object γ) : List JournalEntry → Prop
  | unasked : PlaceLog o []
  | unreserved {len headerLen : Nat} {writable : Bool} {cause : PagerError} :
      PlaceLog o [.reserve len headerLen writable (.error cause)]
  | reserved {headerLen start : Nat} {writable : Bool} {es : List JournalEntry}
      (h : ∀ x ∈ es, x.IsAbout start o.geometry.trueSize) :
      PlaceLog o (.reserve o.geometry.trueSize headerLen writable (.ok start) :: es)

/-- Chunks on record are offered to their owners one after the other. -/
inductive OffersLog (objects : List (Interval (Object γ))) :
    List ChunkRecord → γ → List JournalEntry → γ → Prop
  | nil {client : γ} : OffersLog objects [] client [] client
  | cons {r : ChunkRecord} {rest : List ChunkRecord} {e : Interval (Object γ)} {k : Nat}
      {client client₁ client₂ : γ} {offer es : List JournalEntry} (he : e ∈ objects)
      (hr : r.IsChunkOf e k) (hoffer : OfferLog e k client offer client₁)
      (hrest : OffersLog objects rest client₁ es client₂) :
      OffersLog objects (r :: rest) client (offer ++ es) client₂

namespace Worker

variable {w v w' : Worker π γ} {es es' : List JournalEntry}

/-! ### Loading a chunk -/

/-- A chunk was loaded, or was not. -/
structure Loaded (handled : Bool) (w w' : Worker π γ) (records : List ChunkRecord)
    (es : List JournalEntry) : Prop where
  journal : w'.journal = w.journal ++ es
  log : LoadLog w.objects.toList w.ringGrowable w.client handled records es w'.client
  ring : w'.ring.toList = w.ring.toList ++ records
  stats : w.ringGrowable = true →
    w'.exchange.stats = (es.flatMap JournalEntry.events).foldl Stats.record w.exchange.stats

/-- Nothing went on record. -/
theorem Loaded.of_sameBooks {handled : Bool} (h : SameBooks w w' es')
    (hjournal : w'.journal = w.journal ++ es)
    (hlog : LoadLog w.objects.toList w.ringGrowable w.client handled [] es w'.client)
    (hstats : w.ringGrowable = true →
      w'.exchange.stats = (es.flatMap JournalEntry.events).foldl Stats.record w.exchange.stats) :
    Loaded handled w w' [] es where
  journal := hjournal
  log := hlog
  ring := by rw [h.ring, List.append_nil]
  stats := hstats

theorem fillChunk_counts (object : Object γ) (span : Span) :
    Ends (fillChunk object span) w
      (fun _ w' => w'.exchange.stats = w.exchange.stats.record .populate ∧
        w'.journal = w.journal ++
          [.populate object.id span.first span.stop (span.count * object.geometry.stride)])
      (fun f w' => ∀ cause, f = .error cause → w'.exchange.stats = w.exchange.stats ∧
        w'.journal = w.journal ++
          [.populate object.id span.first span.stop (span.count * object.geometry.stride)]) := by
  unfold fillChunk
  simp only [ends_bind, ends_note, ends_get, ends_set]
  split
  · exact fun _ _ => ⟨rfl, rfl⟩
  · exact fun _ h => by cases h
  · exact ⟨rfl, rfl⟩

/-- A chunk that is recorded is counted. -/
theorem recordChunk_counts (r : ChunkRecord) :
    Ends (recordChunk r) w
      (fun _ w' => w'.exchange.stats = w.exchange.stats.record .install) fun _ _ => True := by
  unfold recordChunk checkTotals
  simp only [ends_bind, ends_get, ends_settle, ends_set, ends_checked, ends_modify, ends_count,
    ends_ensure, implies_true, and_self]

variable [Paging π]

section Load

variable {e : Interval (Object γ)} {k : Nat}

omit [Paging π] in
/-- A chunk that was installed goes on record, or the ring has no place for it. -/
theorem recordChunk_loads {u : Worker π γ} {content : Bytes} (hw : w.toDesk.Filed)
    (ho : w.toDesk.Owes 0) (he : e ∈ w.objects.toList) (hr : (e.chunkRecord k).IsChunkOf e k)
    (hfits : Word.isAllocatable (e.chunkRecord k).size)
    (hle : w.used + (e.value.geometry.chunk k).bytes ≤ w.limits.high)
    (hlt : w.used + (e.value.geometry.chunk k).bytes < wordBound)
    (hfill : Filled e k w.client content u.client) (hsame : SameBooks w u es)
    (hjournal : u.journal = w.journal ++
      [e.populating k, .install (e.chunkStart k) content (.ok true)])
    (hstats : u.exchange.stats = w.exchange.stats.record .populate) :
    Ends (recordChunk (e.chunkRecord k)) u
      (fun _ w' => ∃ records es, Loaded true w w' records es)
      (fun f w' => ∀ cause, f = .error cause → ∃ records es, Loaded false w w' records es) := by
  have hg := hw.regular he
  have hmem : e ∈ u.objects.toList := hsame.objects ▸ he
  have hroom : u.used + (e.value.geometry.chunk k).bytes ≤ u.limits.high := by
    rw [hsame.used, hsame.limits]
    exact hle
  refine ((recordChunk_ends (hsame.filed hw) (hsame.owes ho) hmem hr hfits hroom
    (hsame.used ▸ hlt)).and (recordChunk_counts _)).mono ?_ ?_
  · rintro _ w' ⟨⟨hkept, -, -, -, hview⟩, hcounted⟩
    have hclient : w'.client = u.client := congrArg View.client hview
    have hlive : (e.chunkRecord k).isLive = true := ChunkRecord.isLive_iff.mpr (hr.size_pos hg)
    have hlog : LoadLog w.objects.toList w.ringGrowable w.client true [e.chunkRecord k]
        [e.populating k, .install (e.chunkStart k) content (.ok true)] w'.client := by
      rw [hclient]
      exact .loaded he hfill hr hlive (hfill.length hr hg)
    refine ⟨_, _, ?_, hlog, ?_, fun _ => ?_⟩
    · rw [hkept.journal, List.append_nil]
      exact hjournal
    · rw [← hsame.ring]
      exact congrArg View.records hview
    · rw [hcounted, hstats]
      rfl
  · rintro f w' ⟨⟨-, hlost⟩ | ⟨rfl, rfl, hgrow⟩, -⟩
    · exact absurd hlost (Nat.lt_irrefl 0)
    · intro _ _
      rw [hsame.ringGrowable] at hgrow
      refine ⟨[], _, .of_sameBooks hsame hjournal (.unrecorded he hfill hgrow) fun h => ?_⟩
      rw [hgrow] at h
      cases h

theorem loadChunk_loads (hw : w.toDesk.Filed) (ho : w.toDesk.Owes 0) (he : e ∈ w.objects.toList)
    (hr : (e.chunkRecord k).IsChunkOf e k)
    (hsize : (e.value.geometry.chunk k).bytes ≤ w.scratch.size)
    (hle : w.used + (e.value.geometry.chunk k).bytes ≤ w.limits.high)
    (hlt : w.used + (e.value.geometry.chunk k).bytes < wordBound) :
    Ends (loadChunk { object := e.value, bodyStart := e.bodyStart,
                      span := e.value.geometry.chunk k }) w
      (fun _ w' => ∃ records es, Loaded true w w' records es)
      (fun f w' => ∀ cause, f = .error cause → ∃ records es, Loaded false w w' records es) := by
  have hfits : Word.isAllocatable (e.chunkRecord k).size := Word.isAllocatable_mono hsize hw.scratch
  unfold loadChunk
  simp only [ends_bind]
  apply ((fillChunk_ends (hw.regular he) hsize).and (fillChunk_counts ..)).mono
  · rintro content v ⟨⟨⟨x, -, hv⟩, -, hfill⟩, hstats, hjournal⟩
    simp only [ends_checked, Word.add_eq_ok]
    refine ⟨?_, fun f hf cause h => ?_⟩
    · rintro _ ⟨-, rfl⟩
      refine ends_callPages fun result pages _ => ?_
      set u : Worker π γ := { v with
        pages, journal := v.journal ++ [.install (e.chunkStart k) content result] } with hu
      have hinstalled : SameBooks v u [.install (e.chunkStart k) content result] :=
        ⟨⟨rfl, rfl, rfl, rfl, rfl⟩, rfl, rfl, rfl, rfl, rfl⟩
      have hsame := hv.trans hinstalled
      have hjournal : u.journal = w.journal ++
          [e.populating k, .install (e.chunkStart k) content result] := by
        rw [hu, hjournal, List.append_assoc]
        rfl
      rw [ends_settle]
      refine ⟨fun installed hok => ?_, fun cause herr _ _ => ?_⟩
      · subst hok
        cases installed with
        | true =>
          rw [if_pos rfl]
          exact recordChunk_loads hw ho he hr hfits hle hlt hfill hsame hjournal hstats
        | false =>
          rw [if_neg Bool.false_ne_true, ends_count]
          refine ⟨[], _, hjournal, .present he hfill, ?_, fun _ => ?_⟩
          · show v.ring.toList = _
            rw [hv.ring, List.append_nil]
          · show v.exchange.stats.record .duplicateFault = _
            rw [hstats]
            rfl
      · subst herr
        exact ⟨[], _, .of_sameBooks hsame hjournal (.refused he hfill) fun _ => hstats⟩
    · rw [Word.exact_eq_error hf] at h
      cases h
  · rintro f v ⟨hends, hcounted⟩ cause rfl
    rcases hends with h | ⟨-, -, ⟨x, -, hv⟩, -, hfill⟩
    · cases h
    · obtain ⟨hstats, hjournal⟩ := hcounted cause rfl
      exact ⟨[], _, .of_sameBooks hv hjournal (.unfilled he hfill) fun _ => hstats⟩

end Load

/-! ### Handling a fault -/

omit [Paging π] in
/-- A fault was counted, the first `n` records were taken, and a chunk was loaded or was not.
`client` is the callers' state in between. -/
structure Resolved (handled : Bool) (w w' : Worker π γ) (n : Nat) (records : List ChunkRecord)
    (drops loads : List JournalEntry) (client : γ) : Prop where
  journal : w'.journal = w.journal ++ (drops ++ loads)
  dropLog : DropLog w.objects.toList (w.ring.toList.take n) w.client drops client
  loadLog : LoadLog w.objects.toList w.ringGrowable client handled records loads w'.client
  ring : w'.ring.toList = w.ring.toList.drop n ++ records
  stats : w.ringGrowable = true → w'.exchange.stats =
    ((drops ++ loads).flatMap JournalEntry.events).foldl Stats.record
      (w.exchange.stats.record .fault)

omit [Paging π] in
/-- The fault was counted and nothing else happened. -/
theorem Resolved.unbegun (hjournal : w'.journal = w.journal) (hclient : w'.client = w.client)
    (hring : w'.ring = w.ring) (hstats : w'.exchange.stats = w.exchange.stats.record .fault) :
    Resolved false w w' 0 [] [] [] w.client where
  journal := by rw [hjournal, List.append_nil, List.append_nil]
  dropLog := .nil
  loadLog := hclient ▸ .unbegun
  ring := by rw [hring, List.drop_zero, List.append_nil]
  stats := fun _ => hstats

/-- **A fault takes the oldest records to make room, and loads one chunk or none.** -/
theorem handleFault_resolves {address : Nat} (hw : w.toDesk.Filed) (ho : w.toDesk.Owes 0)
    (hmarks : w.limits.low ≤ w.limits.high) :
    Ends (handleFault address) w
      (fun _ w' => ∃ n records drops loads client, Resolved true w w' n records drops loads client)
      (fun f w' => ∀ cause, f = .error cause → Lost w w' ∨
        ∃ n records drops loads client, Resolved false w w' n records drops loads client) := by
  unfold handleFault
  simp only [ends_bind, ends_count, ends_get, ends_checked]
  refine ⟨fun site hsite => ?_,
    fun f _ cause _ => .inr ⟨0, [], [], [], _, .unbegun rfl rfl rfl rfl⟩⟩
  obtain ⟨e, he, -, -, hr, rfl⟩ := locateFault_eq_ok hw hsite
  set k := e.chunkNumber address
  rw [ends_ite]
  refine ⟨fun _ cause _ => .inr ⟨0, [], [], [], _, .unbegun rfl rfl rfl rfl⟩, fun hlarge => ?_⟩
  simp only [ends_bind, ends_checked, ends_set]
  refine ⟨fun scratch hgrow => ?_,
    fun f _ cause _ => .inr ⟨0, [], [], [], _, .unbegun rfl rfl rfl rfl⟩⟩
  obtain ⟨hscratch, hbytes⟩ := Buffer.growTo_size hw.scratch hgrow
  set grown : Worker π γ := { w with
    exchange := { w.exchange with stats := w.exchange.stats.record .fault }, scratch }
  have hfiled : grown.toDesk.Filed :=
    ⟨hw.objects, hw.built, hw.len, hw.ring, hw.chunks, hw.fits, hscratch⟩
  have howes : grown.toDesk.Owes 0 := ho.of_eq rfl rfl rfl
  refine ((evictFor_ends (w := grown) hfiled howes hmarks (Nat.le_of_not_lt hlarge)).and
    (evictFor_takes (w := grown) hfiled howes)).mono ?_ fun f w' h cause hc => .inl ?_
  · rintro _ v ⟨⟨_, hv, hle, hlt⟩, n, drops, htook, -⟩
    have hmem : e ∈ v.objects.toList := by
      rw [hv.objects]
      exact he
    have hresolved : ∀ handled w' records loads, Loaded handled v w' records loads →
        Resolved handled w w' n records drops loads v.client := by
      intro handled w' records loads h
      have hlog := h.log
      rw [hv.objects, hv.ringGrowable] at hlog
      refine ⟨?_, htook.log, hlog, by rw [h.ring, htook.ring], fun hgrowable => ?_⟩
      · rw [h.journal, htook.journal, List.append_assoc]
      · rw [h.stats (hv.ringGrowable.trans hgrowable), htook.stats, List.flatMap_append,
          List.foldl_append]
    refine (loadChunk_loads hv.filed hv.owes hmem hr (hbytes.trans hv.scratch) hle hlt).mono ?_ ?_
    · rintro _ w' ⟨records, loads, h⟩
      exact ⟨n, records, drops, loads, _, hresolved _ _ _ _ h⟩
    · intro f w' h cause hc
      obtain ⟨records, loads, h⟩ := h cause hc
      exact .inr ⟨n, records, drops, loads, _, hresolved _ _ _ _ h⟩
  · exact h.2 cause hc

/-! ### Creating an object -/

omit [Paging π] in
/-- Calls were made about a reservation, and nothing else happened to the books. -/
def Concerned (start len : Nat) (w w' : Worker π γ) : Prop :=
  (∃ es, w'.journal = w.journal ++ es ∧ ∀ x ∈ es, x.IsAbout start len) ∧
    w'.exchange = w.exchange ∧ w'.client = w.client ∧ w'.ring = w.ring ∧ w'.objects = w.objects

omit [Paging π] in
instance (start len : Nat) : IsPreorder (Worker π γ) (Concerned start len) where
  refl w := by
    refine ⟨⟨[], (List.append_nil _).symm, ?_⟩, rfl, rfl, rfl, rfl⟩
    exact fun _ hx => absurd hx List.not_mem_nil
  trans := by
    rintro w v w' ⟨⟨es, hjournal, hes⟩, hexchange, hclient, hring, hobjects⟩
      ⟨⟨es', hjournal', hes'⟩, hexchange', hclient', hring', hobjects'⟩
    refine ⟨⟨es ++ es', by rw [hjournal', hjournal, List.append_assoc], ?_⟩,
      hexchange'.trans hexchange, hclient'.trans hclient, hring'.trans hring,
      hobjects'.trans hobjects⟩
    exact List.forall_mem_append.mpr ⟨hes, hes'⟩

omit [Paging π] in
theorem Concerned.entry {start len : Nat} {x : JournalEntry} (hx : x.IsAbout start len)
    (pages : π) :
    Concerned start len w { w with pages, journal := w.journal ++ [x] } :=
  ⟨⟨[x], rfl, fun _ hy => List.mem_singleton.mp hy ▸ hx⟩, rfl, rfl, rfl, rfl⟩

omit [Paging π] in
theorem concerned_call {start len : Nat} {call : EStateM PagerError π α}
    {entry : Except PagerError α → JournalEntry} (h : ∀ result, (entry result).IsAbout start len) :
    Leads (Concerned start len) (callPages call entry : WorkerM π γ _) w :=
  leads_callPages fun result pages _ => .entry (h result) pages

omit [Paging π] in
theorem concerned_callBreakable {start len : Nat} {call : EStateM Failure π α}
    {entry : Except PagerError α → JournalEntry} (h : ∀ result, (entry result).IsAbout start len) :
    Leads (Concerned start len) (callBreakable call entry : WorkerM π γ _) w :=
  leads_callBreakable fun result pages => .entry (h result) pages

theorem concerned_unwind (start len : Nat) :
    Leads (Concerned start len) (unwind start len : WorkerM π γ Unit) w := by
  unfold unwind
  refine leads_bind (concerned_call fun _ => ⟨rfl, rfl⟩) fun _ v => ?_
  exact leads_bind (concerned_call fun _ => ⟨rfl, rfl⟩) fun _ _ => leads_pure _

theorem concerned_registerOrRelease (start len : Nat) :
    Leads (Concerned start len) (registerOrRelease start len : WorkerM π γ Unit) w := by
  unfold registerOrRelease
  refine leads_bind (concerned_call fun _ => ⟨rfl, rfl⟩) fun result v => ?_
  cases result with
  | ok => exact leads_pure _
  | error cause =>
    exact leads_bind (concerned_call fun _ => ⟨rfl, rfl⟩) fun _ _ => leads_refuse _

theorem concerned_zeroHeader (start len header : Nat) :
    Leads (Concerned start len) (zeroHeader start len header : WorkerM π γ Unit) w := by
  unfold zeroHeader
  split
  · refine leads_bind (concerned_callBreakable fun _ => rfl) fun result v => ?_
    cases result with
    | ok => exact leads_pure _
    | error cause => exact leads_bind (concerned_unwind ..) fun _ _ => leads_refuse _
  · exact leads_pure _

omit [Paging π] in
/-- An object was created if `start` says where, or else nothing came of it. -/
structure Established (o : Object γ) (w w' : Worker π γ) (start : Option Nat)
    (es : List JournalEntry) : Prop where
  journal : w'.journal = w.journal ++ es
  log : PlaceLog o es
  client : w'.client = w.client
  ring : w'.ring = w.ring
  objects : match start with
    | some start => w.objects.insert start o.geometry.trueSize o = .ok w'.objects
    | none => w'.objects = w.objects
  stats : w'.exchange.stats =
    if start.isSome then w.exchange.stats.record .allocate else w.exchange.stats

omit [Paging π] in
theorem Concerned.established {o : Object γ} {headerLen start : Nat} {writable : Bool} {pages : π}
    (h : Concerned start o.geometry.trueSize { w with
      pages
      journal := w.journal ++ [.reserve o.geometry.trueSize headerLen writable (.ok start)] } w') :
    ∃ es, Established o w w' none es := by
  obtain ⟨⟨es, hjournal, hes⟩, hexchange, hclient, hring, hobjects⟩ := h
  refine ⟨_, by rw [hjournal, List.append_assoc]; rfl, .reserved hes, hclient, hring, hobjects, ?_⟩
  rw [hexchange]
  rfl

/-- **To create an object is to make calls about its reservation.** -/
theorem allocate_establishes (o : Object γ) :
    Ends (allocate o) w (fun start w' => ∃ es, Established o w w' (some start) es)
      (fun f w' => ∀ cause, f = .error cause → ∃ es, Established o w w' none es) := by
  have hpermit : Ends (permitObject o) w (fun _ w' => w' = w) fun _ w' => w' = w := by
    unfold permitObject
    refine leads_get_bind (R := fun v v' => v' = v) ?_
    split
    · exact leads_refuse_bind
    · refine leads_checked_bind fun chunk => ?_
      split
      · exact leads_refuse _
      · exact leads_pure _
  unfold allocate
  rw [ends_bind]
  refine hpermit.mono ?_ fun f v hv _ _ => ⟨[], hv ▸ (List.append_nil _).symm, .unasked, hv ▸ rfl,
    hv ▸ rfl, hv ▸ rfl, hv ▸ rfl⟩
  rintro _ _ rfl
  rw [ends_bind]
  refine ends_callBreakable (fun result pages _ => ?_) fun _ _ h => by cases h
  simp only [ends_bind, ends_settle]
  refine ⟨fun start hok => ?_, fun cause herr _ _ => ?_⟩
  · subst hok
    apply Ends.mono (concerned_registerOrRelease start o.geometry.trueSize)
    · intro _ v hv
      apply Ends.mono (concerned_zeroHeader start o.geometry.trueSize o.geometry.paddedHeader)
      · intro _ u hu
        have hconcerned := trans_of (Concerned start o.geometry.trueSize) hv hu
        unfold recordObject
        simp only [ends_bind, ends_get]
        cases hinsert : u.objects.insert start o.geometry.trueSize o with
        | ok objects =>
          simp only [ends_set, ends_count, ends_pure]
          obtain ⟨⟨es, hjournal, hes⟩, hexchange, hclient, hring, hobjects⟩ := hconcerned
          refine ⟨_, by rw [hjournal, List.append_assoc]; rfl, .reserved hes, hclient,
            hring, ?_, ?_⟩
          · rw [hobjects] at hinsert
            exact hinsert
          · show u.exchange.stats.record .allocate = _
            rw [hexchange]
            rfl
        | error cause =>
          simp only [ends_bind, ends_refuse]
          have hunwound : ∀ w', Concerned start o.geometry.trueSize u w' →
              ∃ es, Established o _ w' none es := fun w' hw' =>
            Concerned.established (trans_of (Concerned start o.geometry.trueSize) hconcerned hw')
          exact Ends.mono (concerned_unwind start o.geometry.trueSize)
            (fun _ w' hw' _ _ => hunwound w' hw') fun _ w' hw' _ _ => hunwound w' hw'
      · intro _ w' hw' _ _
        exact Concerned.established (trans_of (Concerned start o.geometry.trueSize) hv hw')
    · intro _ w' hw' _ _
      exact hw'.established
  · subst herr
    exact ⟨_, rfl, .unreserved, rfl, rfl, rfl, rfl⟩

/-! ### Releasing an object -/

/-- Chunks on record are offered one after the other, and the offers are counted. -/
theorem writeBackAll_counts : ∀ (records : List ChunkRecord) (w : Worker π γ), w.toDesk.Filed →
    (∀ r ∈ records, r ∈ w.ring.toList ∧ r.isLive) →
    Ends (writeBackAll (records.map (·.address))) w
      (fun _ w' => ∃ es, Counted w w' es ∧
        OffersLog w.objects.toList records w.client es w'.client)
      (fun f w' => ∀ cause, f = .error cause → Lost w w')
  | [], w, _, _ => ⟨[], .refl w, .nil⟩
  | r :: rest, w, hw, hrecords => by
    obtain ⟨hmem, hlive⟩ := hrecords r (List.mem_cons_self ..)
    obtain ⟨e, he, k, hr⟩ := hw.chunks r hmem hlive
    have hfits := hw.fits r hmem
    rw [List.map_cons]
    unfold writeBackAll
    rw [ends_bind]
    apply ((writeBackChunk_ends hw he hr hfits).and (writeBackChunk_counts hw he hr hfits)).mono
    · rintro _ v ⟨⟨_, hv, -, -⟩, offer, hcounted, hoffer⟩
      have hrest : ∀ x ∈ rest, x ∈ v.ring.toList ∧ x.isLive := by
        intro x hx
        rw [hv.ring]
        exact hrecords x (List.mem_cons_of_mem _ hx)
      apply (writeBackAll_counts rest v (hv.filed hw) hrest).mono
      · rintro _ w' ⟨es, hcounted', hoffers⟩
        rw [hv.objects] at hoffers
        exact ⟨_, hcounted.trans hcounted', .cons he hr hoffer hoffers⟩
      · intro f w' h cause hc
        exact (h cause hc).of_later hcounted.journal
    · rintro f v ⟨-, hlost⟩
      exact hlost

/-- The live chunks of an object are offered, and the offers are counted. -/
theorem handOverAll_counts (e : Interval (Object γ)) (hw : w.toDesk.Filed) :
    Ends (handOverAll e) w
      (fun _ w' => ∃ es, Counted w w' es ∧
        OffersLog w.objects.toList (e.offerable w.ring.toList) w.client es w'.client)
      (fun f w' => ∀ cause, f = .error cause → Lost w w') := by
  unfold handOverAll Interval.offerable
  rw [ends_ite]
  refine ⟨fun hwants => ?_, fun hwants => ?_⟩
  · simp only [ends_bind, ends_get]
    rw [if_pos hwants]
    refine writeBackAll_counts _ w hw fun r hr => ?_
    rw [List.mem_filter, Bool.and_eq_true] at hr
    exact ⟨hr.1, hr.2.2⟩
  · rw [if_neg hwants]
    exact ⟨[], .refl w, .nil⟩

omit [Paging π] in
/-- An object is gone: its chunks were offered, its registration was taken back, and its memory
was given back. -/
structure Dissolved (e : Interval (Object γ)) (w w' : Worker π γ) (client : γ)
    (offers : List JournalEntry) (result : Except PagerError Unit) : Prop where
  offerLog : OffersLog w.objects.toList (e.offerable w.ring.toList) w.client offers client
  journal : w'.journal = w.journal ++ (offers ++ .unregister e.start e.len (.ok ()) ::
    .release e.start e.len result :: e.value.farewell)
  finished : w'.client = e.value.finished client
  objects : w'.objects.toList = w.objects.toList.filter (·.start ≠ e.start)
  records : w'.ring.toList = Ring.retired e.value.id w.ring.toList
  stats : w'.exchange.stats =
    ((offers.flatMap JournalEntry.events).foldl Stats.record w.exchange.stats).record .free

omit [Paging π] in
/-- An object stays: its chunks were offered, and its registration was not given back. -/
structure Stayed (e : Interval (Object γ)) (w w' : Worker π γ) (offers : List JournalEntry)
    (cause : PagerError) : Prop
    extends Counted w w' (offers ++ [.unregister e.start e.len (.error cause)]) where
  offerLog : OffersLog w.objects.toList (e.offerable w.ring.toList) w.client offers w'.client
  objects : w'.objects = w.objects
  ring : w'.ring = w.ring

omit [Paging π] in
/-- What a release came to; the flag tells a success. -/
inductive ReleaseEnd (id start : Nat) (w w' : Worker π γ) : Bool → Prop
  | dissolved {e : Interval (Object γ)} {client : γ} {offers : List JournalEntry}
      {result : Except PagerError Unit} (he : e ∈ w.objects.toList) (hstart : e.start = start)
      (hid : e.value.id = id) (h : Dissolved e w w' client offers result) :
      ReleaseEnd id start w w' true
  /-- There is no such object. -/
  | unknown (hat : w.objectAt id start = none) (h : w' = w) : ReleaseEnd id start w w' false
  | stayed {e : Interval (Object γ)} {offers : List JournalEntry} {cause : PagerError}
      (he : e ∈ w.objects.toList) (h : Stayed e w w' offers cause) : ReleaseEnd id start w w' false

/-- **A release offers the live chunks of the object and then lets it go**, or it is refused. -/
theorem free_releases {id start : Nat} (hw : w.toDesk.Filed) (ho : w.toDesk.Owes 0) :
    Ends (free id start) w (fun _ w' => ReleaseEnd id start w w' true)
      (fun f w' => ∀ cause, f = .error cause → Lost w w' ∨ ReleaseEnd id start w w' false) := by
  unfold free
  simp only [ends_bind, ends_get]
  cases hat : w.objectAt id start with
  | none => exact fun _ _ => .inr (.unknown hat rfl)
  | some e =>
    obtain ⟨he, rfl, rfl⟩ := objectAt_eq_some hw hat
    rw [ends_bind]
    apply ((handOverAll_ends e hw).and (handOverAll_counts e hw)).mono
    · rintro _ v ⟨⟨_, hv, -⟩, offers, hcounted, hoffers⟩
      rw [ends_bind]
      refine unmap_ends (fun gates freed _ => ?_) fun gates pages cause _ => ?_
      · set u : Worker π γ := { v with
          gates, pages := freed, journal := v.journal ++ [.unregister e.start e.len (.ok ())] }
        have heu : e ∈ u.objects.toList := by
          rw [show u.objects = w.objects from hv.objects]
          exact he
        apply (discharge_ends (w := u) (hv.filed hw) (hv.owes ho) heu).mono
        · rintro _ w' ⟨-, es, hd⟩
          obtain ⟨result, rfl⟩ := hd.entries
          have hdissolved : Dissolved e w w' v.client offers result := by
            refine ⟨hoffers, ?_, hd.client, ?_, ?_, ?_⟩
            · rw [hd.journal, show u.journal = v.journal ++ _ from rfl, hcounted.journal]
              simp only [List.append_assoc, List.singleton_append]
            · rw [hd.objects, show u.objects = w.objects from hv.objects]
            · rw [hd.records, show u.ring = w.ring from hv.ring]
            · rw [hd.stats, show u.exchange.stats = v.exchange.stats from rfl, hcounted.stats]
          exact .dissolved he rfl rfl hdissolved
        · rintro f w' ⟨rfl, hlost⟩
          exact absurd hlost (Nat.lt_irrefl 0)
      · intro _ _
        have hstayed : Stayed e w { v with
            gates, pages, journal := v.journal ++ [.unregister e.start e.len (.error cause)] }
            offers cause := by
          refine ⟨⟨?_, ?_⟩, hoffers, hv.objects, hv.ring⟩
          · show v.journal ++ _ = _
            rw [hcounted.journal, List.append_assoc]
          · rw [List.flatMap_append, List.foldl_append, ← hcounted.stats]
            rfl
        exact .inr (.stayed he hstayed)
    · rintro f v ⟨-, hlost⟩ cause hc
      exact .inl (hlost cause hc)

/-! ### Operations on books in order -/

omit [Paging π] in
/-- The step comes back, with an answer or with an error as the flag says. -/
def Comes (act : WorkerM π γ α) (w : Worker π γ) : Bool → Worker π γ → Prop
  | true, w' => ∃ a, act w = .ok a w'
  | false, w' => ∃ cause, act w = .error (.error cause) w'

omit [Paging π] in
/-- What holds of each end of a step holds of the one it comes to. -/
theorem Ends.of_comes {act : WorkerM π γ α} {P : Bool → Worker π γ → Prop}
    (h : Ends act w (fun _ => P true) fun f v => ∀ cause, f = .error cause → P false v) {ok : Bool}
    (hstep : Comes act w ok w') : P ok w' := by
  cases ok with
  | true =>
    obtain ⟨a, hact⟩ := hstep
    exact h.of_ok hact
  | false =>
    obtain ⟨cause, hact⟩ := hstep
    exact h.of_error hact cause rfl

omit [Paging π] in
/-- The books are in order again, and a full ring grows if it did. -/
structure Restored (w w' : Worker π γ) : Prop where
  inOrder : w'.InOrder
  ringGrowable : w'.ringGrowable = w.ringGrowable

omit [Paging π] in
theorem Kept.restored (h : Kept w w' es) (hw : w.InOrder) (hfiled : w'.toDesk.Filed)
    (howes : w'.toDesk.Owes 0) : Restored w w' :=
  ⟨h.inOrder hw hfiled howes, h.ringGrowable⟩

/-- **A fault, handled or not, leaves the books in order, or a chunk is lost.** -/
theorem handleFault_comes {address : Nat} {ok : Bool} (hw : w.InOrder)
    (hstep : Comes (handleFault address) w ok w') :
    Lost w w' ∨ Restored w w' ∧ w'.objects = w.objects ∧
      ∃ n records drops loads client, Resolved ok w w' n records drops loads client := by
  refine Ends.of_comes (P := fun ok w' => Lost w w' ∨ Restored w w' ∧ w'.objects = w.objects ∧
    ∃ n records drops loads client, Resolved ok w w' n records drops loads client) ?_ hstep
  refine ((handleFault_ends hw.filed hw.owes hw.marks.le).and
    (handleFault_resolves hw.filed hw.owes hw.marks.le)).mono ?_ ?_
  · rintro _ v ⟨⟨es, hv⟩, hresolved⟩
    exact .inr ⟨hv.toKept.restored hw hv.filed hv.owes, hv.objects, hresolved⟩
  · rintro f v ⟨⟨breach, rfl, -⟩ | ⟨cause, es, rfl, hv⟩, hresolved⟩ _ hcause
    · cases hcause
    · rcases hresolved cause rfl with hlost | hresolved
      · exact .inl hlost
      rcases hv.owes with ⟨-, howes⟩ | ⟨hloud, -⟩
      · exact .inr ⟨hv.toKept.restored hw hv.filed howes, hv.objects, hresolved⟩
      · -- the last call was a read that was refused
        unfold Calm at hloud
        push Not at hloud
        obtain ⟨x, hx, hrefused⟩ := hloud
        refine .inl ⟨es, hv.journal, x, List.mem_of_getLast? hx, ?_⟩
        unfold JournalEntry.isReadRefused at hrefused
        split at hrefused
        · rfl
        · exact absurd rfl hrefused

theorem allocate_comes {o : Object γ} {ok : Bool} (hw : w.InOrder) (ho : o.geometry.Built)
    (hstep : Comes (allocate o) w ok w') :
    Restored w w' ∧ ∃ start es, start.isSome = ok ∧ Established o w w' start es := by
  refine Ends.of_comes (P := fun ok w' => Restored w w' ∧
    ∃ start es, start.isSome = ok ∧ Established o w w' start es) ?_ hstep
  refine ((allocate_ends hw.filed hw.owes ho).and (allocate_establishes o)).mono ?_ ?_
  · rintro start v ⟨⟨_, hv⟩, es, hestablished⟩
    exact ⟨hv.toKept.restored hw hv.filed hv.owes, some start, es, rfl, hestablished⟩
  · rintro f v ⟨⟨breach, rfl, -⟩ | ⟨cause, _, rfl, hv⟩, hestablished⟩ _ hcause
    · cases hcause
    · obtain ⟨es, hestablished⟩ := hestablished cause rfl
      exact ⟨hv.toKept.restored hw hv.filed hv.owes, none, es, rfl, hestablished⟩

/-- **A release takes an object off the books or leaves them alone**, or a chunk is lost. -/
theorem free_comes {id start : Nat} {ok : Bool} (hw : w.InOrder)
    (hstep : Comes (free id start) w ok w') :
    Lost w w' ∨ Restored w w' ∧ ReleaseEnd id start w w' ok := by
  refine Ends.of_comes
    (P := fun ok w' => Lost w w' ∨ Restored w w' ∧ ReleaseEnd id start w w' ok) ?_ hstep
  refine ((free_ends hw.filed hw.owes).and (free_releases hw.filed hw.owes)).mono ?_ ?_
  · rintro _ v ⟨⟨-, _, -, -, -, _, hv⟩, hreleased⟩
    exact .inr ⟨hv.toKept.restored hw hv.filed hv.owes, hreleased⟩
  · rintro f v ⟨⟨rfl, -⟩ | ⟨rfl, -⟩ | ⟨cause, _, rfl, hv⟩, hreleased⟩ _ hcause
    · cases hcause
    · cases hcause
    · rcases hreleased cause rfl with hlost | hreleased
      · exact .inl hlost
      · exact .inr ⟨hv.toKept.restored hw hv.filed hv.owes, hreleased⟩

end Worker
end DemandPager
