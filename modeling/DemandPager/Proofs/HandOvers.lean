/-
# Chunks are handed over when they go

The bytes of a writable chunk are lost when the chunk goes, unless the owner of the object takes
them. A chunk goes when it is evicted or when its object is released, and these find it on
different ways: the one takes records off the ring, the other looks for the records of the object.
Either way the bytes are read and given to the hook of the object once, before the chunk is dropped
or the registration is taken back, and no hook is called otherwise (`Worker.hand_overs_exact`).
What the callers' state becomes is what these calls of hooks make of it, one after the other
(`Handing.received`).

Objects have numbers of their own, and the memory keeps its word: it does not say that it populated
a range that was populated already (`Honest`). Then no two live records are of one chunk
(`Worker.Charted`), so that to visit each live record is to visit each chunk that is there once.

Key definitions: `JournalEntry.Fits`, `Honest`, `Handing`, `Handing.received`, `Populated`,
`Worker.Obliging`, `Worker.Charted`.
Key theorems: `DropLog.handings`, `OffersLog.handings`, `Worker.Tallied.charted`,
`Worker.hand_overs_exact`.
-/
import DemandPager.Proofs.Counters

namespace DemandPager

variable {π γ α : Type}

/-! ### A memory that keeps its word -/

/-- Where populated ranges begin, after one more entry. -/
def JournalEntry.hold (held : List Nat) : JournalEntry → List Nat
  | .install start _ (.ok true) => start :: held
  | .discard start len (.ok _) | .release start len (.ok _) =>
    held.filter fun a => ¬(start ≤ a ∧ a < start + len)
  | _ => held

/-- An answer agrees with the ranges that are populated: none of them is populated again, none
lies in new memory, and as much is read as was asked for. -/
def JournalEntry.Fits (held : List Nat) : JournalEntry → Prop
  | .install start _ (.ok true) => start ∉ held
  | .reserve len _ _ (.ok start) => ∀ a ∈ held, ¬(start ≤ a ∧ a < start + len)
  | .readResident _ len (.ok bytes) => bytes.length = len
  | _ => True

instance (held : List Nat) (x : JournalEntry) : Decidable (x.Fits held) := by
  unfold JournalEntry.Fits
  split <;> infer_instance

/-- Each answer agrees with the entries before. -/
def Honest : List Nat → List JournalEntry → Prop
  | _, [] => True
  | held, x :: es => x.Fits held ∧ Honest (x.hold held) es

instance decidableHonest : (held : List Nat) → (es : List JournalEntry) → Decidable (Honest held es)
  | _, [] => inferInstanceAs (Decidable True)
  | held, x :: es =>
    have := decidableHonest (x.hold held) es
    inferInstanceAs (Decidable (_ ∧ _))

/-- Where populated ranges begin, after entries. -/
def holding (held : List Nat) (es : List JournalEntry) : List Nat := es.foldl JournalEntry.hold held

section Holding

variable {held : List Nat} {es es' : List JournalEntry} {a : Nat}

theorem holding_append : holding held (es ++ es') = holding (holding held es) es' :=
  List.foldl_append ..

theorem honest_append : ∀ {held : List Nat} {es : List JournalEntry},
    Honest held (es ++ es') ↔ Honest held es ∧ Honest (holding held es) es'
  | _, [] => ⟨fun h => ⟨trivial, h⟩, fun h => h.2⟩
  | held, x :: es => by
    show x.Fits held ∧ Honest _ (es ++ es') ↔ (x.Fits held ∧ Honest _ es) ∧ _
    rw [honest_append, and_assoc]
    rfl

/-- A read that is honest gives as much as it was asked for. -/
theorem Honest.read {start len : Nat} {bytes : Bytes} :
    ∀ {held : List Nat} {es : List JournalEntry},
    Honest held es → .readResident start len (.ok bytes) ∈ es → bytes.length = len
  | _, x :: es, ⟨hx, hes⟩, hmem => by
    rcases List.mem_cons.mp hmem with rfl | hmem
    · exact hx
    · exact hes.read hmem

theorem holding_eq_of_forall : ∀ {held : List Nat} {es : List JournalEntry},
    (∀ x ∈ es, x.hold held = held) → holding held es = held
  | _, [], _ => rfl
  | held, x :: es, h => by
    obtain ⟨hx, hes⟩ := List.forall_mem_cons.mp h
    show holding (x.hold held) es = held
    rw [hx]
    exact holding_eq_of_forall hes

theorem hold_of_isIdle {x : JournalEntry} (h : x.isIdle = true) : x.hold held = held := by
  unfold JournalEntry.isIdle at h
  split at h
  all_goals first | rfl | cases h

/-! ### What segments change -/

theorem OfferLog.holding_eq {e : Interval (Object γ)} {k : Nat} {client client' : γ}
    (h : OfferLog e k client es client') : holding held es = held := by
  cases h with
  | unwanted => rfl
  | taken => rfl

theorem OffersLog.holding_eq {objects : List (Interval (Object γ))} {records : List ChunkRecord}
    {client client' : γ} (h : OffersLog objects records client es client') :
    holding held es = held := by
  induction h with
  | nil => rfl
  | cons _ _ hoffer _ ih => rw [holding_append, hoffer.holding_eq, ih]

/-- What is outside of all chunks that are dropped stays populated. -/
theorem DropLog.mem_holding {objects : List (Interval (Object γ))} {records : List ChunkRecord}
    {client client' : γ} (h : DropLog objects records client es client') (ha : a ∈ held)
    (hout : ∀ r ∈ records, r.isLive = true → ¬r.Covers a) : a ∈ holding held es := by
  induction h generalizing held with
  | nil => exact ha
  | retired _ _ ih => exact ih ha (List.forall_mem_cons.mp hout).2
  | live _ _ hlive hoffer _ ih =>
    obtain ⟨hr, hrest⟩ := List.forall_mem_cons.mp hout
    rw [holding_append, hoffer.holding_eq]
    refine ih (List.mem_filter.mpr ⟨ha, ?_⟩) hrest
    exact decide_eq_true (hr hlive)

/-- Calls about new memory do not touch what is populated. -/
theorem PlaceLog.holding_eq {o : Object γ} (h : PlaceLog o es) (hhonest : Honest held es) :
    holding held es = held := by
  cases h with
  | unasked => rfl
  | unreserved => rfl
  | @reserved _ start _ es hes =>
    have hout : ∀ a ∈ held, ¬(start ≤ a ∧ a < start + o.geometry.trueSize) := hhonest.1
    refine holding_eq_of_forall (List.forall_mem_cons.mpr ⟨rfl, fun x hx => ?_⟩)
    have habout := hes x hx
    cases x with
    | release s l result =>
      obtain ⟨rfl, rfl⟩ := habout
      cases result with
      | error => rfl
      | ok => exact List.filter_eq_self.mpr fun a ha => decide_eq_true (hout a ha)
    | register | unregister | zero => rfl
    | _ => exact habout.elim

/-- A chunk that gets a record is populated then, and was not before. -/
theorem LoadLog.populates {objects : List (Interval (Object γ))} {growable handled : Bool}
    {records : List ChunkRecord} {client client' : γ}
    (h : LoadLog objects growable client handled records es client') (hhonest : Honest held es) :
    (∀ a ∈ held, a ∈ holding held es) ∧
      (records = [] ∨ ∃ r, records = [r] ∧ r.address ∉ held ∧ r.address ∈ holding held es) := by
  cases h with
  | unbegun => exact ⟨fun _ ha => ha, .inl rfl⟩
  | unfilled => exact ⟨fun _ ha => ha, .inl rfl⟩
  | refused => exact ⟨fun _ ha => ha, .inl rfl⟩
  | present => exact ⟨fun _ ha => ha, .inl rfl⟩
  | unrecorded => exact ⟨fun _ ha => List.mem_cons_of_mem _ ha, .inl rfl⟩
  | @loaded _ _ r =>
    exact ⟨fun _ ha => List.mem_cons_of_mem _ ha, .inr ⟨r, rfl, hhonest.2.1, List.mem_cons_self ..⟩⟩

end Holding

/-! ### Handings -/

/-- A chunk of an object, with the bytes that were read from it. -/
structure Handing (γ : Type) where
  entry : Interval (Object γ)
  number : Nat
  bytes : Bytes

namespace Handing

/-- The record of the chunk. -/
def record (c : Handing γ) : ChunkRecord := c.entry.chunkRecord c.number

/-- If the owner wants it, the elements of the chunk are read, and the hook of the object is
called with them. -/
def calls (c : Handing γ) : List JournalEntry :=
  if c.entry.value.wantsWriteBack then
    [.readResident c.record.address
        ((c.entry.value.geometry.chunk c.number).count * c.entry.value.geometry.stride)
          (.ok c.bytes),
      .writeBack c.entry.value.id (c.entry.value.geometry.chunk c.number).first
        ((c.entry.value.geometry.chunk c.number).first +
          (c.entry.value.geometry.chunk c.number).count)
        c.bytes]
  else
    []

/-- The callers' state after these calls. -/
def received (client : γ) (c : Handing γ) : γ :=
  if c.entry.value.wantsWriteBack then
    c.entry.value.callbacks.writeBack.elim client fun hook =>
      (hook (c.entry.value.geometry.chunk c.number).first
        ((c.entry.value.geometry.chunk c.number).first +
          (c.entry.value.geometry.chunk c.number).count)
        c.bytes client).2
  else
    client

/-- The chunk is handed over and dropped. -/
def eviction (c : Handing γ) : List JournalEntry :=
  c.calls ++ [.discard c.record.address c.record.size (.ok ())]

/-- It is a chunk of one of the objects, and all its elements were read if they are wanted. -/
structure Whole (objects : List (Interval (Object γ))) (c : Handing γ) : Prop where
  mem : c.entry ∈ objects
  hasChunk : c.entry.value.geometry.HasChunk c.number
  bytes : c.entry.value.wantsWriteBack = true → c.bytes.length =
    (c.entry.value.geometry.chunk c.number).count * c.entry.value.geometry.stride

end Handing

theorem ChunkRecord.IsChunkOf.eq_chunkRecord {r : ChunkRecord} {e : Interval (Object γ)} {k : Nat}
    (h : r.IsChunkOf e k) : r = e.chunkRecord k := by
  obtain ⟨address, size, owner⟩ := r
  obtain ⟨rfl, -, -, rfl, rfl⟩ := h
  rfl

section Handings

variable {objects : List (Interval (Object γ))} {records : List ChunkRecord} {client client' : γ}
  {es : List JournalEntry}

/-- As many bytes were read as were asked for. -/
def ReadsWhole (es : List JournalEntry) : Prop :=
  ∀ start len bytes, .readResident start len (.ok bytes) ∈ es → bytes.length = len

theorem ReadsWhole.left {es' : List JournalEntry} (h : ReadsWhole (es ++ es')) : ReadsWhole es :=
  fun start len bytes hmem => h start len bytes (List.mem_append_left _ hmem)

theorem ReadsWhole.right {es' : List JournalEntry} (h : ReadsWhole (es ++ es')) : ReadsWhole es' :=
  fun start len bytes hmem => h start len bytes (List.mem_append_right _ hmem)

theorem ReadsWhole.tail {x : JournalEntry} (h : ReadsWhole (x :: es)) : ReadsWhole es :=
  fun start len bytes hmem => h start len bytes (List.mem_cons_of_mem _ hmem)

/-- An offer is one handing. -/
theorem OfferLog.handing {e : Interval (Object γ)} {k : Nat} {r : ChunkRecord} (he : e ∈ objects)
    (hr : r.IsChunkOf e k) (h : OfferLog e k client es client') (hread : ReadsWhole es) :
    ∃ c : Handing γ, c.Whole objects ∧ c.entry = e ∧ c.record = r ∧ es = c.calls ∧
      client' = c.received client := by
  have hrecord := hr.eq_chunkRecord.symm
  cases h with
  | unwanted hwants =>
    have hnot : ¬e.value.wantsWriteBack = true := by
      rw [hwants]
      exact Bool.false_ne_true
    refine ⟨⟨e, k, []⟩, ⟨he, hr.hasChunk, fun h => absurd h hnot⟩, rfl, hrecord, ?_, ?_⟩
    · unfold Handing.calls
      rw [if_neg hnot]
    · unfold Handing.received
      rw [if_neg hnot]
  | @taken bytes given _ _ hwants hhook hlen hgiven hcall =>
    have hbytes : bytes.length = e.contentLen k := hread _ _ _ (List.mem_cons_self ..)
    obtain rfl := hgiven hbytes
    refine ⟨⟨e, k, given⟩, ⟨he, hr.hasChunk, fun _ => hbytes⟩, rfl, hrecord, ?_, ?_⟩
    · unfold Handing.calls
      rw [if_pos hwants]
      rfl
    · unfold Handing.received
      rw [if_pos hwants, hhook]
      exact (congrArg Prod.snd hcall).symm

/-- **Each live record that is taken is one handing and one drop.** -/
theorem DropLog.handings (h : DropLog objects records client es client') (hread : ReadsWhole es) :
    ∃ cs : List (Handing γ), (∀ c ∈ cs, c.Whole objects) ∧
      cs.map (·.record) = records.filter (·.isLive) ∧ es = cs.flatMap (·.eviction) ∧
      client' = cs.foldl Handing.received client := by
  induction h with
  | nil => exact ⟨[], fun _ hc => absurd hc List.not_mem_nil, rfl, rfl, rfl⟩
  | retired hr _ ih =>
    rw [List.filter_cons_of_neg (by rw [hr]; exact Bool.false_ne_true)]
    exact ih hread
  | live he hr hlive hoffer _ ih =>
    obtain ⟨c, hc, -, hrecord, hcalls, hreceived⟩ := hoffer.handing he hr hread.left
    obtain ⟨cs, hcs, hrecords, hes, hrest⟩ := ih hread.right.tail
    refine ⟨c :: cs, List.forall_mem_cons.mpr ⟨hc, hcs⟩, ?_, ?_, ?_⟩
    · rw [List.filter_cons_of_pos hlive, List.map_cons, hrecord, hrecords]
    · rw [List.flatMap_cons, ← hes, hcalls, Handing.eviction, hrecord, List.append_assoc]
      rfl
    · rw [hrest, hreceived, List.foldl_cons]

/-- Each record of an object that is offered is one handing. -/
theorem OffersLog.handings (h : OffersLog objects records client es client')
    (hread : ReadsWhole es) :
    ∃ cs : List (Handing γ), (∀ c ∈ cs, c.Whole objects) ∧ cs.map (·.record) = records ∧
      es = cs.flatMap (·.calls) ∧ client' = cs.foldl Handing.received client := by
  induction h with
  | nil => exact ⟨[], fun _ hc => absurd hc List.not_mem_nil, rfl, rfl, rfl⟩
  | cons he hr hoffer _ ih =>
    obtain ⟨c, hc, -, hrecord, hcalls, hreceived⟩ := hoffer.handing he hr hread.left
    obtain ⟨cs, hcs, hrecords, hes, hrest⟩ := ih hread.right
    refine ⟨c :: cs, List.forall_mem_cons.mpr ⟨hc, hcs⟩, ?_, ?_, ?_⟩
    · rw [List.map_cons, hrecord, hrecords]
    · rw [List.flatMap_cons, ← hes, hcalls]
    · rw [hrest, hreceived, List.foldl_cons]

theorem Interval.owner_of_offerable (e : Interval (Object γ)) {r : ChunkRecord}
    (h : r ∈ e.offerable records) : r.owner = e.value.id := by
  unfold offerable at h
  split at h
  · have hfilter := (List.mem_filter.mp h).2
    rw [Bool.and_eq_true] at hfilter
    exact beq_iff_eq.mp hfilter.1
  · cases h

/-- To create an object neither calls a hook nor drops a chunk. -/
theorem PlaceLog.hands_nothing {o : Object γ} (h : PlaceLog o es) :
    ∀ x ∈ es, x.isHookCall = false ∧ x.discarded? = none := by
  cases h with
  | unasked => exact fun _ hx => absurd hx List.not_mem_nil
  | unreserved => exact List.forall_mem_singleton.mpr ⟨rfl, rfl⟩
  | reserved hes =>
    refine List.forall_mem_cons.mpr ⟨⟨rfl, rfl⟩, fun x hx => ?_⟩
    have habout := hes x hx
    unfold JournalEntry.IsAbout at habout
    split at habout
    all_goals first | exact ⟨rfl, rfl⟩ | exact habout.elim

/-- To load a chunk neither calls a hook nor drops a chunk. -/
theorem LoadLog.hands_nothing {growable handled : Bool}
    (h : LoadLog objects growable client handled records es client') :
    ∀ x ∈ es, x.isHookCall = false ∧ x.discarded? = none := by
  cases h with
  | unbegun => exact fun _ hx => absurd hx List.not_mem_nil
  | unfilled => exact List.forall_mem_singleton.mpr ⟨rfl, rfl⟩
  | _ => exact List.forall_mem_cons.mpr ⟨⟨rfl, rfl⟩, List.forall_mem_singleton.mpr ⟨rfl, rfl⟩⟩

/-- The callers' state is as it was, or a populate callback was called for the elements of a chunk
and left it so. -/
def Populated (objects : List (Interval (Object γ))) (client : γ) (es : List JournalEntry)
    (client' : γ) : Prop :=
  (es = [] ∧ client' = client) ∨ ∃ e ∈ objects, ∃ k target, target.length = e.contentLen k ∧
    es.head? = some (e.populating k) ∧ client' = (e.value.callbacks.populate
      (e.value.geometry.chunk k).first (e.value.geometry.chunk k).stop target client).2.2

/-- To load a chunk calls one populate callback, and no other callback. -/
theorem LoadLog.populated {growable handled : Bool}
    (h : LoadLog objects growable client handled records es client') :
    Populated objects client es client' := by
  have hfilled : ∀ {e : Interval (Object γ)} {k : Nat} {content : Bytes} {x : JournalEntry},
      e ∈ objects → Filled e k client content client' →
      Populated objects client [e.populating k, x] client' := by
    rintro e k content x he ⟨target, filled, htarget, hfill, -⟩
    exact .inr ⟨e, he, k, target, htarget, rfl, (Object.fill_eq hfill).2⟩
  cases h with
  | unbegun => exact .inl ⟨rfl, rfl⟩
  | unfilled he hfill =>
    obtain ⟨target, reason, filled, htarget, hfill⟩ := hfill
    exact .inr ⟨_, he, _, target, htarget, rfl, (Object.fill_eq hfill).2⟩
  | refused he hfill => exact hfilled he hfill
  | present he hfill => exact hfilled he hfill
  | loaded he hfill => exact hfilled he hfill
  | unrecorded he hfill => exact hfilled he hfill

end Handings

/-! ### One record for a chunk -/

/-- Where the chunks of live records begin. -/
def charts (records : List ChunkRecord) : List Nat :=
  (records.filter (·.isLive)).map (·.address)

section Charts

variable {records : List ChunkRecord} {a : Nat}

theorem mem_charts : a ∈ charts records ↔ ∃ r ∈ records, r.isLive = true ∧ r.address = a := by
  simp only [charts, List.mem_map, List.mem_filter, and_assoc]

theorem charts_append {records' : List ChunkRecord} :
    charts (records ++ records') = charts records ++ charts records' := by
  simp only [charts, List.filter_append, List.map_append]

theorem charts_sublist (records : List ChunkRecord) :
    (charts records).Sublist (records.map (·.address)) := List.filter_sublist.map _

theorem mem_charts_singleton {r : ChunkRecord} (h : a ∈ charts [r]) : a = r.address :=
  List.mem_singleton.mp ((charts_sublist [r]).subset h)

theorem charts_retired_sublist (owner : Nat) : ∀ records : List ChunkRecord,
    (charts (Ring.retired owner records)).Sublist (charts records)
  | [] => .slnil
  | r :: rest => by
    have ih := charts_retired_sublist owner rest
    unfold charts Ring.retired at ih ⊢
    rw [List.map_cons]
    by_cases howner : r.owner = owner
    · rw [if_pos howner, List.filter_cons_of_neg (by simp [ChunkRecord.isLive])]
      exact ih.trans (((List.sublist_cons_self ..).filter _).map _)
    · rw [if_neg howner, List.filter_cons, List.filter_cons]
      split
      · exact ih.cons_cons _
      · exact ih

/-- A chunk on record that begins within another one is that one. -/
theorem Desk.Filed.address_eq {d : Desk γ} (h : d.Filed) {r r' : ChunkRecord}
    (hr : r ∈ d.ring.toList) (hlive : r.isLive = true) (hr' : r' ∈ d.ring.toList)
    (hlive' : r'.isLive = true) (hcovers : r.Covers r'.address) : r.address = r'.address := by
  obtain ⟨e, he, k, hk⟩ := h.chunks r hr hlive
  obtain ⟨e', he', k', hk'⟩ := h.chunks r' hr' hlive'
  have hholds : e.Holds r'.address := by
    have hstart := (h.holds_chunk he hk).1
    have hend := (h.chunk_within he hk).2
    exact ⟨hstart.trans hcovers.1, Nat.lt_of_lt_of_le hcovers.2 hend⟩
  obtain rfl := h.objects.eq_of_holds he he' hholds (h.holds_chunk he' hk')
  have hg := h.regular he
  have hpos := h.chunk_pos he hk'
  unfold ChunkRecord.Covers at hcovers
  rw [hk.address, hk.size, hk'.address] at hcovers
  rw [hk.address, hk'.address]
  rcases Nat.lt_trichotomy k k' with hlt | rfl | hlt
  · have := hg.chunk_disjoint hlt
    omega
  · rfl
  · have := hg.chunk_disjoint hlt
    rw [hk'.size] at hpos
    omega

/-- To give memory back leaves the rest as it was. -/
theorem mem_holding_release {e : Interval (Object γ)} {result : Except PagerError Unit}
    {held : List Nat} (ha : a ∈ held) (hout : ¬e.Holds a) :
    a ∈ holding held (.unregister e.start e.len (.ok ()) :: .release e.start e.len result ::
      e.value.farewell) := by
  have hrest : ∀ held, holding held e.value.farewell = held := fun held => by
    unfold Object.farewell
    split <;> rfl
  show a ∈ holding (JournalEntry.hold held (.release e.start e.len result)) e.value.farewell
  rw [hrest]
  cases result with
  | error => exact ha
  | ok => exact List.mem_filter.mpr ⟨ha, decide_eq_true hout⟩

end Charts

namespace Worker

variable {w v w' : Worker π γ} {t : Tally γ} {es : List JournalEntry} {ok : Bool}

/-- The memory refused no call, and its answers were honest. -/
structure Obliging (w : Worker π γ) : Prop where
  granted : ∀ x ∈ w.journal, x.refusal? = none
  honest : Honest [] w.journal

theorem Obliging.intact (h : w.Obliging) : w.Intact := by
  intro x hx
  have hgranted := h.granted x hx
  unfold JournalEntry.isLoss
  split
  all_goals first | rfl | cases hgranted

theorem Obliging.of_later (h : w'.Obliging) (hjournal : w'.journal = w.journal ++ es) :
    w.Obliging := by
  obtain ⟨hgranted, hhonest⟩ := h
  rw [hjournal] at hgranted hhonest
  exact ⟨(List.forall_mem_append.mp hgranted).1, (honest_append.mp hhonest).1⟩

theorem Obliging.before {act : WorkerM π γ α} (h : w'.Obliging) (hact : Leads Discreetly act w)
    (hstep : Comes act w ok w') : w.Obliging := by
  obtain ⟨es, hjournal⟩ := hstep.journal hact
  exact h.of_later hjournal

/-- Where populated ranges begin. -/
def held (w : Worker π γ) : List Nat := holding [] w.journal

theorem held_of_later (hjournal : w'.journal = w.journal ++ es) : w'.held = holding w.held es := by
  unfold held
  rw [hjournal, holding_append]

/-- The later entries are honest too. -/
theorem Obliging.later (h : w'.Obliging) (hjournal : w'.journal = w.journal ++ es) :
    Honest w.held es := by
  have hhonest := h.honest
  rw [hjournal] at hhonest
  exact (honest_append.mp hhonest).2

theorem Obliging.readsWhole (h : w'.Obliging) (hjournal : w'.journal = w.journal ++ es) :
    ReadsWhole es := fun _ _ _ hmem => (h.later hjournal).read hmem

/-- Objects have numbers of their own, and live records are of chunks that are populated, each of
another one. -/
structure Charted (w : Worker π γ) : Prop where
  ids : ∀ e ∈ w.objects.toList, ∀ e' ∈ w.objects.toList, e.value.id = e'.value.id → e = e'
  populated : ∀ a ∈ charts w.ring.toList, a ∈ w.held
  once : (charts w.ring.toList).Nodup

theorem Charted.same (h : w.Charted) (hobjects : w'.objects = w.objects) (hring : w'.ring = w.ring)
    (hheld : w'.held = w.held) : w'.Charted := by
  obtain ⟨hids, hpopulated, honce⟩ := h
  refine ⟨?_, ?_, ?_⟩
  all_goals simp only [hobjects, hring, hheld]
  all_goals assumption

/-- An object with a number of its own is created, or is not. -/
theorem Charted.allocate (hc : w.Charted) (hw : w.InOrder) {o : Object γ} {start : Option Nat}
    (h : Established o w w' start es) (hfresh : ∀ e ∈ w.objects.toList, e.value.id ≠ o.id)
    (hw' : w'.Obliging) : w'.Charted := by
  have hheld : w'.held = w.held := by
    rw [held_of_later h.journal, h.log.holding_eq (hw'.later h.journal)]
  cases start with
  | none => exact hc.same h.objects h.ring hheld
  | some start =>
    have hmem := fun x => IntervalMap.mem_insert (e := x) hw.filed.objects h.objects
    refine ⟨fun e he e' he' heq => ?_, ?_, ?_⟩
    · rcases (hmem e).mp he with rfl | hold
      · rcases (hmem e').mp he' with rfl | hold'
        · rfl
        · exact absurd heq.symm (hfresh e' hold')
      · rcases (hmem e').mp he' with rfl | hold'
        · exact absurd heq (hfresh e hold)
        · exact hc.ids e hold e' hold' heq
    · rw [h.ring, hheld]
      exact hc.populated
    · rw [h.ring]
      exact hc.once

/-- The oldest records are taken with their chunks, and a chunk that was not there is loaded. -/
theorem Charted.fault (hc : w.Charted) (hw : w.InOrder) {n : Nat} {records : List ChunkRecord}
    {drops loads : List JournalEntry} {client : γ}
    (h : Resolved ok w w' n records drops loads client) (hobjects : w'.objects = w.objects)
    (hw' : w'.Obliging) : w'.Charted := by
  obtain ⟨hkept, hnew⟩ := h.loadLog.populates (honest_append.mp (hw'.later h.journal)).2
  have hheld : w'.held = holding (holding w.held drops) loads := by
    rw [held_of_later h.journal, holding_append]
  have hparts : charts w.ring.toList =
      charts (w.ring.toList.take n) ++ charts (w.ring.toList.drop n) := by
    rw [← charts_append, List.take_append_drop]
  have honce := hc.once
  rw [hparts] at honce
  obtain ⟨-, honce, hapart⟩ := List.nodup_append.mp honce
  -- a chunk that stays does not begin within one that goes, as it would be that one
  have hstay : ∀ a ∈ charts (w.ring.toList.drop n), a ∈ holding w.held drops := by
    intro a ha
    have hpopulated : a ∈ w.held := hc.populated a (hparts ▸ List.mem_append_right _ ha)
    refine h.dropLog.mem_holding hpopulated fun r hr hlive hcovers => ?_
    obtain ⟨r', hr', hlive', rfl⟩ := mem_charts.mp ha
    have heq := hw.filed.address_eq (List.mem_of_mem_take hr) hlive (List.mem_of_mem_drop hr')
      hlive' hcovers
    exact hapart _ (mem_charts.mpr ⟨r, hr, hlive, rfl⟩) _ ha heq
  have hring : charts w'.ring.toList = charts (w.ring.toList.drop n) ++ charts records := by
    rw [h.ring, charts_append]
  refine ⟨by rw [hobjects]; exact hc.ids, ?_, ?_⟩
  all_goals rw [hring]
  · rw [hheld]
    refine List.forall_mem_append.mpr ⟨fun a ha => hkept a (hstay a ha), fun a ha => ?_⟩
    rcases hnew with rfl | ⟨r, rfl, -, hmem⟩
    · cases ha
    · rwa [mem_charts_singleton ha]
  · rcases hnew with rfl | ⟨r, rfl, hfresh, -⟩
    · exact (List.append_nil _).symm ▸ honce
    · refine List.nodup_append.mpr ⟨honce, (charts_sublist [r]).nodup (List.nodup_singleton _), ?_⟩
      rintro a ha b hb rfl
      rw [mem_charts_singleton hb] at ha
      exact hfresh (hstay _ ha)

/-- An object is released with its chunks, or is not. -/
theorem Charted.free (hc : w.Charted) (hw : w.InOrder) {id start : Nat}
    (h : ReleaseEnd id start w w' ok) : w'.Charted := by
  cases h with
  | unknown _ heq => exact heq ▸ hc
  | stayed _ h =>
    refine hc.same h.objects h.ring ?_
    rw [held_of_later h.journal, holding_append, h.offerLog.holding_eq]
    rfl
  | @dissolved e _ _ result he _ _ h =>
    have hmem : ∀ x, x ∈ w'.objects.toList → x ∈ w.objects.toList := fun x hx => by
      rw [h.objects] at hx
      exact (List.mem_filter.mp hx).1
    have hheld : w'.held = holding w.held
        (.unregister e.start e.len (.ok ()) :: .release e.start e.len result ::
          e.value.farewell) := by
      rw [held_of_later h.journal, holding_append, h.offerLog.holding_eq]
    refine ⟨fun x hx y hy => hc.ids x (hmem x hx) y (hmem y hy), ?_, ?_⟩
    all_goals rw [h.records]
    · -- a chunk that stays is one of another object, which has a reservation of its own
      intro a ha
      obtain ⟨r, hr, hlive, rfl⟩ := mem_charts.mp ha
      obtain ⟨hr, hother⟩ := Ring.of_mem_retired hr hlive
      rw [hheld]
      have hpopulated := hc.populated _ (mem_charts.mpr ⟨r, hr, hlive, rfl⟩)
      refine mem_holding_release hpopulated fun hholds => ?_
      obtain ⟨e', he', k, hk⟩ := hw.filed.chunks r hr hlive
      obtain rfl := hw.filed.objects.eq_of_holds he he' hholds (hw.filed.holds_chunk he' hk)
      exact hother hk.owner
    · exact (charts_retired_sublist ..).nodup hc.once

variable [Paging π]

/-- **No two live records are of one chunk**, as long as the memory keeps its word. -/
theorem Tallied.charted (h : Tallied w t) (hobliging : w.Obliging) : w.Charted := by
  induction h with
  | @start _ _ _ desk site hdesk =>
    obtain ⟨hobjects, hrecords, -⟩ := Desk.ofOptions_eq_ok hdesk
    refine ⟨fun e he => ?_, fun a ha => ?_, ?_⟩
    · rw [hobjects] at he
      cases he
    all_goals simp only [hrecords] at *
    · cases ha
    · exact List.nodup_nil
  | @meanwhile w _ site es _ _ _ hjournal hidle ih =>
    refine (ih (hobliging.of_later hjournal)).same rfl rfl ?_
    rw [held_of_later (w := w) hjournal]
    exact holding_eq_of_forall fun x hx => hold_of_isIdle (hidle x hx)
  | @allocate _ _ _ o _ h hbuilt hfresh hstep ih =>
    have hbefore := hobliging.before (discreet_allocate o) hstep
    have hw := h.inOrder hbefore.intact
    obtain ⟨-, _, _, -, hestablished⟩ := allocate_comes hw hbuilt hstep
    exact (ih hbefore).allocate hw hestablished hfresh hobliging
  | @free _ _ _ id start _ h hstep ih =>
    have hbefore := hobliging.before (discreet_free id start) hstep
    have hw := h.inOrder hbefore.intact
    obtain ⟨-, hend⟩ := (free_comes hw hstep).resolve_left hobliging.intact.not_lost
    exact (ih hbefore).free hw hend
  | @fault _ _ _ address _ h hstep ih =>
    have hbefore := hobliging.before (still_handleFault address).discreet hstep
    have hw := h.inOrder hbefore.intact
    obtain ⟨-, hobjects, _, _, _, _, _, hresolved⟩ :=
      (handleFault_comes hw hstep).resolve_left hobliging.intact.not_lost
    exact (ih hbefore).fault hw hresolved hobjects hobliging

/-! ### What operations hand over -/

/-- To create an object hands nothing over. -/
theorem allocate_hands {o : Object γ} (hw : w.InOrder) (ho : o.geometry.Built)
    (hstep : Comes (Worker.allocate o) w ok w') :
    ∃ es, w'.journal = w.journal ++ es ∧ w'.client = w.client ∧
      ∀ x ∈ es, x.isHookCall = false ∧ x.discarded? = none := by
  obtain ⟨-, _, es, -, h⟩ := allocate_comes hw ho hstep
  exact ⟨es, h.journal, h.client, h.log.hands_nothing⟩

/-- A fault hands over the chunks that it takes off the ring, each before it is dropped, and then
loads one. -/
theorem handleFault_hands {address : Nat} (hw : w.InOrder) (hw' : w'.Obliging)
    (hstep : Comes (handleFault address) w ok w') :
    ∃ (n : Nat) (cs : List (Handing γ)) (loads : List JournalEntry),
      w'.journal = w.journal ++ (cs.flatMap (·.eviction) ++ loads) ∧
      cs.map (·.record) = (w.ring.toList.take n).filter (·.isLive) ∧
      (∃ records, w'.ring.toList = w.ring.toList.drop n ++ records) ∧
      (∀ c ∈ cs, c.Whole w.objects.toList) ∧
      (∀ x ∈ loads, x.isHookCall = false ∧ x.discarded? = none) ∧
      Populated w.objects.toList (cs.foldl Handing.received w.client) loads w'.client := by
  obtain ⟨-, -, n, records, _, loads, _, h⟩ :=
    (handleFault_comes hw hstep).resolve_left hw'.intact.not_lost
  obtain ⟨cs, hcs, hrecords, rfl, rfl⟩ := h.dropLog.handings (hw'.readsWhole h.journal).left
  exact ⟨n, cs, loads, h.journal, hrecords, ⟨records, h.ring⟩, hcs, h.loadLog.hands_nothing,
    h.loadLog.populated⟩

/-- A release hands over the chunks of the object that are there, before the registration is
taken back. -/
theorem free_hands {id start : Nat} (hw : w.InOrder) (hw' : w'.Obliging)
    (hids : ∀ e ∈ w.objects.toList, ∀ e' ∈ w.objects.toList, e.value.id = e'.value.id → e = e')
    (hstep : Comes (Worker.free id start) w true w') :
    ∃ e ∈ w.objects.toList, ∃ cs : List (Handing γ), e.value.id = id ∧ e.start = start ∧
      w'.journal = w.journal ++ (cs.flatMap (·.calls) ++ .unregister e.start e.len (.ok ()) ::
        .release e.start e.len (.ok ()) :: e.value.farewell) ∧
      cs.map (·.record) = e.offerable w.ring.toList ∧
      (∀ c ∈ cs, c.Whole w.objects.toList ∧ c.entry = e) ∧
      w'.client = e.value.finished (cs.foldl Handing.received w.client) := by
  obtain ⟨-, hend⟩ := (free_comes hw hstep).resolve_left hw'.intact.not_lost
  cases hend with
  | @dissolved e _ _ result he hstart hid h =>
    have hread := (hw'.readsWhole h.journal).left
    obtain ⟨cs, hcs, hrecords, rfl, rfl⟩ := h.offerLog.handings hread
    have hresult : result = .ok () := by
      have hgranted := hw'.granted (.release e.start e.len result) (by rw [h.journal]; simp)
      cases result with
      | error => cases hgranted
      | ok => rfl
    refine ⟨e, he, cs, hid, hstart, hresult ▸ h.journal, hrecords, fun c hc => ⟨hcs c hc, ?_⟩,
      h.finished⟩
    refine hids _ (hcs c hc).mem e he ?_
    exact e.owner_of_offerable (hrecords ▸ List.mem_map_of_mem hc)

/-- A release that is refused changes nothing. -/
theorem free_refused_hands {id start : Nat} (hw : w.InOrder) (hw' : w'.Obliging)
    (hstep : Comes (Worker.free id start) w false w') : w' = w := by
  obtain ⟨-, hend⟩ := (free_comes hw hstep).resolve_left hw'.intact.not_lost
  cases hend with
  | unknown _ h => exact h
  | @stayed e _ cause _ h =>
    have hgranted :=
      hw'.granted (.unregister e.start e.len (.error cause)) (by rw [h.journal]; simp)
    cases hgranted

/-- **Chunks are handed over once each time they go, before they go.** Take any run of
allocations, faults and releases in which objects have numbers of their own, the memory refuses
nothing and its answers are honest. The live records are of different chunks. To create an object
calls no hook and drops no chunk. A fault, handled or not, takes the oldest records; each chunk of
a live one is handed over and then dropped, and to load a chunk after that calls no hook and drops
nothing. A release hands over each chunk of the object that is there, if the object wants it,
before it takes the registration back; one that is refused does nothing. To hand a chunk over is to
read all its elements and to call the hook with their range and with the bytes that were read; a
chunk of an object that is read-only or has no hook is not handed over. The callers' state is what
these calls leave of it, one after the other, with the populate callback of a fault after them or
the destructor of a release, and no other call. -/
theorem hand_overs_exact (h : Tallied w t) (hobliging : w.Obliging) :
    (charts w.ring.toList).Nodup ∧
    (∀ (o : Object γ) (ok : Bool) (w' : Worker π γ), o.geometry.Built →
      Comes (Worker.allocate o) w ok w' → w'.Obliging →
      ∃ es, w'.journal = w.journal ++ es ∧ w'.client = w.client ∧
        ∀ x ∈ es, x.isHookCall = false ∧ x.discarded? = none) ∧
    (∀ (address : Nat) (ok : Bool) (w' : Worker π γ), Comes (handleFault address) w ok w' →
      w'.Obliging → ∃ (n : Nat) (cs : List (Handing γ)) (loads : List JournalEntry),
        w'.journal = w.journal ++ (cs.flatMap (·.eviction) ++ loads) ∧
        cs.map (·.record) = (w.ring.toList.take n).filter (·.isLive) ∧
        (∃ records, w'.ring.toList = w.ring.toList.drop n ++ records) ∧
        (∀ c ∈ cs, c.Whole w.objects.toList) ∧
        (∀ x ∈ loads, x.isHookCall = false ∧ x.discarded? = none) ∧
        Populated w.objects.toList (cs.foldl Handing.received w.client) loads w'.client) ∧
    (∀ (id start : Nat) (w' : Worker π γ), Comes (Worker.free id start) w true w' → w'.Obliging →
      ∃ e ∈ w.objects.toList, ∃ cs : List (Handing γ), e.value.id = id ∧ e.start = start ∧
        w'.journal = w.journal ++ (cs.flatMap (·.calls) ++ .unregister e.start e.len (.ok ()) ::
          .release e.start e.len (.ok ()) :: e.value.farewell) ∧
        cs.map (·.record) = e.offerable w.ring.toList ∧
        (∀ c ∈ cs, c.Whole w.objects.toList ∧ c.entry = e) ∧
        w'.client = e.value.finished (cs.foldl Handing.received w.client)) ∧
    ∀ (id start : Nat) (w' : Worker π γ), Comes (Worker.free id start) w false w' → w'.Obliging →
      w' = w := by
  have hw := h.inOrder hobliging.intact
  have hcharted := h.charted hobliging
  refine ⟨hcharted.once, ?_, ?_, ?_, ?_⟩
  · exact fun o ok w' ho hstep _ => allocate_hands hw ho hstep
  · exact fun address ok w' hstep hw' => handleFault_hands hw hw' hstep
  · exact fun id start w' hstep hw' => free_hands hw hw' hcharted.ids hstep
  · exact fun id start w' hstep hw' => free_refused_hands hw hw' hstep

/-- Two chunks were loaded, and the object was released. -/
def sampleReleased : Worker ScriptedMemory SampleShelf :=
  after (free 1 0x10000000) (sampleKeeping [0x10000010, 0x10000000])

/-- Both chunks are handed over before the registration is taken back, and the owner keeps their
elements. -/
theorem hand_overs_exact_sample :
    ((∃ t, Tallied (sampleKeeping [0x10000010, 0x10000000]) t) ∧
      (sampleKeeping [0x10000010, 0x10000000]).Obliging ∧ sampleReleased.Obliging ∧
      Comes (free 1 0x10000000) (sampleKeeping [0x10000010, 0x10000000]) true sampleReleased) ∧
    (∃ (cs : List (Handing SampleShelf)) (rest : List JournalEntry),
      sampleReleased.journal = (sampleKeeping [0x10000010, 0x10000000]).journal ++
        (cs.flatMap (·.calls) ++ rest) ∧
      cs.map (·.record) = [{ address := 0x10000000, size := 16, owner := 1 },
        { address := 0x10000010, size := 16, owner := 1 }] ∧
      cs.foldl Handing.received [] = sampleReleased.client) ∧
    sampleReleased.client = [sampleElement 0, sampleElement 1] := by
  have hobliging : (sampleKeeping [0x10000010, 0x10000000]).Obliging :=
    ⟨by decide +kernel, by decide +kernel⟩
  have hobliging' : sampleReleased.Obliging := ⟨by decide +kernel, by decide +kernel⟩
  have hstep : Comes (free 1 0x10000000) (sampleKeeping [0x10000010, 0x10000000]) true
      sampleReleased := eq_ok_of_ending (by decide +kernel)
  have hoffered : ∀ e ∈ (sampleKeeping [0x10000010, 0x10000000]).objects.toList,
      e.offerable (sampleKeeping [0x10000010, 0x10000000]).ring.toList =
        [{ address := 0x10000000, size := 16, owner := 1 },
          { address := 0x10000010, size := 16, owner := 1 }] := by
    decide +kernel
  have hclient : (sampleKeeping [0x10000010, 0x10000000]).client = [] := by decide +kernel
  have hkept : sampleReleased.client = [sampleElement 0, sampleElement 1] := by decide +kernel
  have hrun := sampleKeeping_tallied
  generalize sampleReleased = w' at hobliging' hstep hkept ⊢
  generalize sampleKeeping [0x10000010, 0x10000000] = w at hrun hobliging hstep hoffered hclient ⊢
  obtain ⟨-, -, -, hfree, -⟩ := hand_overs_exact hrun hobliging
  obtain ⟨e, he, cs, -, -, hjournal, hrecords, -, hreceived⟩ :=
    hfree 1 0x10000000 w' hstep hobliging'
  have hkeeper : e.value = sampleKeeper :=
    List.mem_singleton.mp ((hrun.gauged hobliging.intact).owned e he)
  rw [hkeeper, hclient] at hreceived
  exact ⟨⟨⟨_, hrun⟩, hobliging, hobliging', hstep⟩,
    ⟨cs, _, hjournal, hrecords.trans (hoffered e he), hreceived.symm⟩, hkept⟩

end Worker
end DemandPager
