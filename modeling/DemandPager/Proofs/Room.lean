/-
# Making room takes the oldest chunks

If a chunk that is to be loaded would cross the high mark, records are taken off the ring, the
oldest first, until nothing is in use any more or the chunk fits under the low mark. A live
record is offered to the owner of its object, and then its chunk is dropped; a retired one goes
without a call. The journal holds the entries of these calls and no others (`DropLog`), what
they tell is counted, and the records that go are the fewest that leave room
(`Worker.room_exact`).

Key definitions: `OfferLog`, `DropLog`, `JournalEntry.events`, `Worker.Counted`, `Worker.Took`,
`Fewest`.
Key theorems: `Worker.writeBackChunk_counts`, `Worker.dropOldest_takes`,
`Worker.dropWhileCrowded_takes`, `Worker.room_exact`.
-/
import DemandPager.Proofs.Outcomes

namespace DemandPager

variable {π γ : Type}

/-! ### Segments of the journal -/

/-- What an entry tells was counted. That a chunk was filled is told by its install. -/
def JournalEntry.events : JournalEntry → List WorkEvent
  | .install _ _ (.ok true) => [.populate, .install]
  | .install _ _ (.ok false) => [.populate, .duplicateFault]
  | .install _ _ (.error _) => [.populate]
  | .discard _ len (.ok _) => [.eviction len]
  | .writeBack .. => [.writeBack]
  | _ => []

/-- The entry is that of a read or of a drop of a chunk that was refused. -/
def JournalEntry.isLoss : JournalEntry → Bool
  | .readResident _ _ (.error _) | .discard _ _ (.error _) => true
  | _ => false

/-- The range that an entry says was to be dropped. -/
def JournalEntry.discarded? : JournalEntry → Option (Nat × Nat)
  | .discard start len _ => some (start, len)
  | _ => none

/-- The ranges that entries say were to be dropped. -/
def discards (es : List JournalEntry) : List (Nat × Nat) := es.filterMap JournalEntry.discarded?

theorem discards_append (es es' : List JournalEntry) :
    discards (es ++ es') = discards es ++ discards es' := List.filterMap_append

/-- A chunk is offered to its owner. One who wants it is handed the bytes that were read just
before, as many as the elements of the chunk have. -/
inductive OfferLog (e : Interval (Object γ)) (k : Nat) (client : γ) : List JournalEntry → γ → Prop
  | unwanted (h : e.value.wantsWriteBack = false) : OfferLog e k client [] client
  | taken {bytes given : Bytes} {client' : γ} {hook : Hook γ} (h : e.value.wantsWriteBack = true)
      (hhook : e.value.callbacks.writeBack = some hook) (hlen : given.length = e.contentLen k)
      (hgiven : bytes.length = e.contentLen k → given = bytes)
      (hcall : hook (e.value.geometry.chunk k).first (e.value.geometry.chunk k).stop given client =
        (.taken, client')) :
      OfferLog e k client
        [.readResident (e.chunkStart k) (e.contentLen k) (.ok bytes),
          .writeBack e.value.id (e.value.geometry.chunk k).first
            (e.value.geometry.chunk k).stop given]
        client'

/-- Records are taken one after the other. The chunk of each live one is offered to its owner
and then dropped. -/
inductive DropLog (objects : List (Interval (Object γ))) :
    List ChunkRecord → γ → List JournalEntry → γ → Prop
  | nil {client : γ} : DropLog objects [] client [] client
  | retired {r : ChunkRecord} {rest : List ChunkRecord} {client client' : γ}
      {es : List JournalEntry} (hr : r.isLive = false)
      (hrest : DropLog objects rest client es client') :
      DropLog objects (r :: rest) client es client'
  | live {r : ChunkRecord} {rest : List ChunkRecord} {e : Interval (Object γ)} {k : Nat}
      {client client₁ client₂ : γ} {offer es : List JournalEntry} (he : e ∈ objects)
      (hr : r.IsChunkOf e k) (hlive : r.isLive = true) (hoffer : OfferLog e k client offer client₁)
      (hrest : DropLog objects rest client₁ es client₂) :
      DropLog objects (r :: rest) client (offer ++ .discard r.address r.size (.ok ()) :: es) client₂

section Segments

variable {objects : List (Interval (Object γ))} {records records' : List ChunkRecord}
  {client client₁ client₂ : γ} {es es' : List JournalEntry}

theorem DropLog.append (h : DropLog objects records client es client₁)
    (h' : DropLog objects records' client₁ es' client₂) :
    DropLog objects (records ++ records') client (es ++ es') client₂ := by
  induction h with
  | nil => exact h'
  | retired hr _ ih => exact .retired hr (ih h')
  | live he hr hlive hoffer _ ih =>
    rw [List.append_assoc]
    exact .live he hr hlive hoffer (ih h')

theorem OfferLog.discards_eq {e : Interval (Object γ)} {k : Nat}
    (h : OfferLog e k client es client₁) :
    discards es = [] := by
  cases h with
  | unwanted => rfl
  | taken => rfl

/-- The chunks that are dropped are those of the live records, in their order. -/
theorem DropLog.discards_eq (h : DropLog objects records client es client₁) :
    discards es = (records.filter (·.isLive)).map fun r => (r.address, r.size) := by
  induction h with
  | nil => rfl
  | retired hr _ ih => rw [List.filter_cons_of_neg (by simp [hr]), ih]
  | live _ _ hlive hoffer _ ih =>
    rw [discards_append, hoffer.discards_eq, List.filter_cons_of_pos hlive, List.map_cons, ← ih]
    rfl

end Segments

/-- Nothing is in use, or `fill` more bytes fit under the low mark. -/
def Roomy (low fill : Nat) (records : List ChunkRecord) : Prop :=
  Ring.bytesOf records = 0 ∨ Ring.bytesOf records + fill ≤ low

/-- The first `n` records are the fewest whose removal leaves room. -/
structure Fewest (low fill : Nat) (records : List ChunkRecord) (n : Nat) : Prop where
  le : n ≤ records.length
  roomy : Roomy low fill (records.drop n)
  fewer : ∀ m < n, ¬Roomy low fill (records.drop m)

theorem Fewest.zero {low fill : Nat} {records : List ChunkRecord} (h : Roomy low fill records) :
    Fewest low fill records 0 := ⟨Nat.zero_le _, h, fun _ hm => (by cases hm)⟩

/-- One record more goes if there is no room before the first goes. -/
theorem Fewest.succ {low fill n : Nat} {r : ChunkRecord} {rest : List ChunkRecord}
    (hcrowded : ¬Roomy low fill (r :: rest)) (h : Fewest low fill rest n) :
    Fewest low fill (r :: rest) (n + 1) where
  le := Nat.succ_le_succ h.le
  roomy := h.roomy
  fewer := by
    intro m hm
    cases m with
    | zero => exact hcrowded
    | succ m => exact h.fewer m (Nat.lt_of_succ_lt_succ hm)

namespace Worker

variable {w v w' : Worker π γ} {es es' : List JournalEntry} {m n : Nat}

/-- The step made the entries, and what they tell was counted. -/
structure Counted (w w' : Worker π γ) (es : List JournalEntry) : Prop where
  journal : w'.journal = w.journal ++ es
  stats : w'.exchange.stats = (es.flatMap JournalEntry.events).foldl Stats.record w.exchange.stats

theorem Counted.refl (w : Worker π γ) : Counted w w [] := ⟨(List.append_nil _).symm, rfl⟩

theorem Counted.trans (h : Counted w v es) (h' : Counted v w' es') : Counted w w' (es ++ es') where
  journal := by rw [h'.journal, h.journal, List.append_assoc]
  stats := by rw [h'.stats, h.stats, List.flatMap_append, List.foldl_append]

/-- A read or a drop of a chunk was refused. -/
def Lost (w w' : Worker π γ) : Prop :=
  ∃ es, w'.journal = w.journal ++ es ∧ ∃ x ∈ es, x.isLoss = true

theorem Lost.of_later (h : Lost v w') (hjournal : v.journal = w.journal ++ es) : Lost w w' := by
  obtain ⟨es', hjournal', x, hx, hloss⟩ := h
  refine ⟨es ++ es', by rw [hjournal', hjournal, List.append_assoc], x, ?_, hloss⟩
  exact List.mem_append_right _ hx

theorem Lost.entry {x : JournalEntry} (hjournal : w'.journal = w.journal ++ [x])
    (hx : x.isLoss = true) : Lost w w' := ⟨[x], hjournal, x, List.mem_singleton.mpr rfl, hx⟩

/-- The first `n` records were taken, the live ones with their chunks. -/
structure Took (n : Nat) (w w' : Worker π γ) (es : List JournalEntry) : Prop
    extends Counted w w' es where
  log : DropLog w.objects.toList (w.ring.toList.take n) w.client es w'.client
  ring : w'.ring.toList = w.ring.toList.drop n
  objects : w'.objects = w.objects

theorem Took.refl (w : Worker π γ) : Took 0 w w [] := ⟨.refl w, .nil, rfl, rfl⟩

theorem Took.trans (h : Took m w v es) (h' : Took n v w' es') : Took (m + n) w w' (es ++ es') where
  toCounted := h.toCounted.trans h'.toCounted
  log := by
    have hlog := h'.log
    rw [h.objects, h.ring] at hlog
    rw [List.take_add]
    exact h.log.append hlog
  ring := by rw [h'.ring, h.ring, List.drop_drop]
  objects := h'.objects.trans h.objects

variable [Paging π]

/-! ### Dropping chunks -/

/-- A chunk on record is offered, and the offer is counted; else its read was refused. -/
theorem writeBackChunk_counts (hw : w.toDesk.Filed) {e : Interval (Object γ)}
    (he : e ∈ w.objects.toList) {r : ChunkRecord} {k : Nat} (hr : r.IsChunkOf e k)
    (hfits : Word.isAllocatable r.size) :
    Ends (writeBackChunk r.address) w
      (fun _ w' => ∃ es, Counted w w' es ∧ OfferLog e k w.client es w'.client)
      (fun f w' => ∀ cause, f = .error cause → Lost w w') := by
  have hlen : Word.isAllocatable (e.contentLen k) := by
    refine Word.isAllocatable_mono ?_ hfits
    rw [hr.size]
    exact (hw.regular he).content_le_bytes
  unfold writeBackChunk
  simp only [ends_bind, ends_get, hw.find?_chunk he hr]
  rw [ends_ite]
  refine ⟨fun hwants => ?_, fun hwants => ?_⟩
  · obtain ⟨-, hook, hhook⟩ := Object.wantsWriteBack_iff.mp hwants
    simp only [ends_bind, locateChunk_eq hw he hr, ends_checked_ok, ends_ensure]
    refine ⟨fun _ => ?_, fun _ cause h => by cases h⟩
    rw [show r.address = e.chunkStart k from hr.address]
    apply (spillResident_ends hlen).mono
    · rintro given v ⟨bytes, hv, -, hclient, hexchange, hlength, hgiven⟩
      apply (handOver_ends (w := v) hhook).mono
      · intro _ u hcalled
        obtain ⟨hook', hhook', hcall⟩ := hcalled.call
        rw [hclient] at hcall
        rw [ends_count]
        refine ⟨_, ⟨(hv.trans hcalled.sameBooks).journal, ?_⟩, ?_⟩
        · show u.exchange.stats.record .writeBack = _
          rw [show u.exchange = v.exchange by rw [hcalled.others], hexchange]
          rfl
        · exact .taken hwants hhook' hlength hgiven hcall
      · rintro f _ ⟨rfl, -⟩ cause h
        cases h
    · rintro f v ⟨cause, rfl, hv, -⟩ _ -
      exact .entry hv.journal rfl
  · rw [ends_pure]
    exact ⟨[], .refl w, .unwanted (Bool.eq_false_iff.mpr hwants)⟩

/-- **The oldest record is taken**, and if it is live its chunk is offered and dropped. -/
theorem dropOldest_takes (hw : w.toDesk.Filed) (ho : w.toDesk.Owes 0) (hused : 0 < w.used) :
    Ends dropOldest w (fun _ w' => ∃ es, Took 1 w w' es)
      (fun f w' => ∀ cause, f = .error cause → Lost w w') := by
  unfold dropOldest
  simp only [ends_bind, ends_get]
  rcases Ring.pop_spec hw.ring with ⟨hnil, -⟩ | ⟨record, ring, hpop, hring, hlist⟩
  · have hsum := ho.used
    unfold Ring.liveSum at hsum
    rw [hnil, Ring.bytesOf_nil] at hsum
    omega
  rw [hpop, ends_settle_ok]
  simp only [ends_modify]
  set popped : Worker π γ := { w with ring } with hpopped
  have hmem : record ∈ w.ring.toList := hlist ▸ List.mem_cons_self ..
  have htake : w.ring.toList.take 1 = [record] := by rw [hlist]; rfl
  have hdrop : w.ring.toList.drop 1 = ring.toList := by rw [hlist]; rfl
  have hfiled : popped.toDesk.Filed := popped_filed hw hring hlist
  rw [ends_ite]
  refine ⟨fun hlive => ?_, fun hdead => ?_⟩
  · obtain ⟨e, he, k, hr⟩ := hw.chunks record hmem hlive
    have hfits := hw.fits record hmem
    rw [ends_bind]
    apply ((writeBackChunk_ends (w := popped) hfiled he hr hfits).and
      (writeBackChunk_counts (w := popped) hfiled he hr hfits)).mono
    · rintro _ v ⟨⟨_, hv, -, -⟩, offer, hcounted, hoffer⟩
      apply (dropChunk_ends (hv.owes (popped_owes ho hlist))).mono
      · rintro _ w' ⟨htook, -⟩
        have hdropped : Counted v w' [.discard record.address record.size (.ok ())] :=
          ⟨htook.journal, htook.stats rfl⟩
        have hoffered : Counted w v offer := ⟨hcounted.journal, hcounted.stats⟩
        refine ⟨_, hoffered.trans hdropped, ?_, ?_, ?_⟩
        · rw [htake, htook.client]
          exact .live he hr hlive hoffer .nil
        · rw [htook.ring, hv.ring, hdrop]
        · rw [htook.objects, hv.objects]
      · rintro f w' (⟨rfl, hlost⟩ | ⟨cause, rfl, htook⟩)
        · exact absurd hlost (Nat.lt_irrefl 0)
        · intro _ _
          exact Lost.of_later (v := v) (.entry htook.journal rfl) hcounted.journal
    · rintro f v ⟨-, hlost⟩
      exact hlost
  · rw [ends_pure]
    refine ⟨[], ⟨(List.append_nil _).symm, rfl⟩, ?_, hdrop.symm, rfl⟩
    rw [htake]
    exact .retired (Bool.eq_false_iff.mpr hdead) .nil

/-! ### Making room -/

omit [Paging π] in
/-- It is crowded as long as the records leave no room. -/
theorem crowded_iff {fill : Nat} (ho : w.toDesk.Owes 0) :
    w.crowded fill = true ↔ ¬Roomy w.limits.low fill w.ring.toList := by
  have hused : w.used = Ring.bytesOf w.ring.toList := ho.used
  rw [← Bool.not_eq_false, crowded_eq_false, hused]
  exact Iff.rfl

/-- **The fewest records are taken that leave room.** -/
theorem dropWhileCrowded_takes (fill : Nat) : ∀ (records : Nat) (w : Worker π γ),
    w.toDesk.Filed → w.toDesk.Owes 0 → w.ring.toList.length ≤ records →
    Ends (dropWhileCrowded fill records) w
      (fun _ w' => ∃ n es, Took n w w' es ∧ Fewest w.limits.low fill w.ring.toList n)
      (fun f w' => ∀ cause, f = .error cause → Lost w w')
  | 0, w, hw, ho, hrecords => by
    have hnil : w.ring.toList = [] := List.length_eq_zero_iff.mp (by omega)
    have hroomy : Roomy w.limits.low fill w.ring.toList := by
      rw [hnil]
      exact .inl rfl
    unfold dropWhileCrowded
    simp only [ends_bind, ends_get]
    rw [ends_ite]
    exact ⟨fun hcrowded => absurd hroomy ((crowded_iff ho).mp hcrowded),
      fun _ => ⟨0, [], .refl w, .zero hroomy⟩⟩
  | records + 1, w, hw, ho, hrecords => by
    unfold dropWhileCrowded
    simp only [ends_bind, ends_get]
    rw [ends_ite]
    refine ⟨fun hcrowded => ?_, fun hfree => ?_⟩
    · have hnone := (crowded_iff ho).mp hcrowded
      have hused : 0 < w.used := by
        rw [show w.used = Ring.bytesOf w.ring.toList from ho.used]
        exact Nat.pos_of_ne_zero fun hzero => hnone (.inl hzero)
      rw [ends_bind]
      refine ((dropOldest_ends hw ho hused).and (dropOldest_takes hw ho hused)).mono ?_
        fun _ _ h => h.2
      rintro _ v ⟨⟨_, hv, hlength⟩, es, htook⟩
      refine (dropWhileCrowded_takes fill records v hv.filed hv.owes (by omega)).mono ?_ ?_
      · rintro _ w' ⟨n, es', htook', hfewest⟩
        refine ⟨1 + n, _, htook.trans htook', ?_⟩
        rw [hv.limits, htook.ring] at hfewest
        cases hlist : w.ring.toList with
        | nil => rw [hlist] at hlength; cases hlength
        | cons r rest =>
          rw [hlist] at hnone hfewest
          rw [Nat.add_comm]
          exact .succ hnone hfewest
      · rintro f w' hlost cause h
        exact (hlost cause h).of_later htook.journal
    · refine ⟨0, [], .refl w, .zero ?_⟩
      exact not_not.mp fun hnone => hfree ((crowded_iff ho).mpr hnone)

/-- To make room either nothing is done, or the fewest records are taken that leave room. -/
theorem evictFor_takes {fill : Nat} (hw : w.toDesk.Filed) (ho : w.toDesk.Owes 0) :
    Ends (evictFor fill) w
      (fun _ w' => ∃ n es, Took n w w' es ∧
        (w.used + fill ≤ w.limits.high ∧ n = 0 ∨ w.limits.high < w.used + fill ∧
          Fewest w.limits.low fill w.ring.toList n))
      (fun f w' => ∀ cause, f = .error cause → Lost w w') := by
  unfold evictFor
  simp only [ends_bind, ends_get, ends_checked, Word.add_eq_ok]
  refine ⟨?_, fun f hf cause h => ?_⟩
  · rintro _ ⟨-, rfl⟩
    rw [ends_ite]
    refine ⟨fun hhigh => ?_, fun hfits => ?_⟩
    · have hlength := Nat.le_of_eq (Ring.length_toList hw.ring)
      refine (dropWhileCrowded_takes fill _ w hw ho hlength).mono ?_ fun _ _ h => h
      rintro _ w' ⟨n, es, htook, hfewest⟩
      exact ⟨n, es, htook, .inr ⟨hhigh, hfewest⟩⟩
    · exact ⟨0, [], .refl w, .inl ⟨Nat.le_of_not_lt hfits, rfl⟩⟩
  · rw [Word.exact_eq_error hf] at h
    cases h

/-- **Making room takes exactly the oldest chunks that have to go.** If the bytes fit under the
high mark nothing happens. Else, unless the memory refuses a call or a hook breaks off, the
records that go are the fewest, from the oldest on, that leave nothing in use or the bytes
under the low mark; the others stay in their order. The chunks that were dropped are those of
the live records among them, each once and the oldest first. -/
theorem room_exact {fill : Nat} (h : Reachable w) (hfill : fill ≤ w.limits.high)
    (hhigh : w.limits.high < 2 ^ 63) :
    (w.used + fill ≤ w.limits.high → evictFor fill w = .ok () w) ∧
    (w.limits.high < w.used + fill → Ends (evictFor fill) w
      (fun _ w' => ∃ n es, Fewest w.limits.low fill w.ring.toList n ∧
        w'.ring.toList = w.ring.toList.drop n ∧ w'.journal = w.journal ++ es ∧
        discards es =
          ((w.ring.toList.take n).filter (·.isLive)).map (fun r => (r.address, r.size)) ∧
        w'.used = Ring.bytesOf (w.ring.toList.drop n) ∧ w'.used + fill ≤ w.limits.high ∧
        w'.objects = w.objects ∧ w'.limits = w.limits)
      (Hindered w)) := by
  have hw := h.inOrder
  have hwords : 2 * w.limits.high < wordBound := by
    unfold wordBound
    omega
  constructor
  · intro hfits
    have hadd : Word.add w.used fill = .ok (w.used + fill) :=
      Word.add_eq_ok.mpr ⟨by omega, rfl⟩
    have hends : Ends (evictFor fill) w (fun _ w' => w' = w) fun _ _ => False := by
      unfold evictFor
      simp only [ends_bind, ends_get, hadd, ends_checked_ok]
      rw [ends_ite]
      exact ⟨fun hcross => absurd hfits (Nat.not_le.mpr hcross), fun _ => rfl⟩
    cases hact : evictFor fill w with
    | ok a w' =>
      rw [hends.of_ok hact]
    | error f w' => exact (hends.of_error hact).elim
  · intro hcross
    refine (((evictFor_ends hw.filed hw.owes hw.marks.le hfill).and
      (evictFor_takes hw.filed hw.owes)).and
      (evictFor_hindered hw.filed hw.owes hfill hwords)).mono ?_ fun _ _ h => h.2
    rintro _ w' ⟨⟨⟨_, hdrops, hroom, -⟩, n, es, htook, hfits | ⟨-, hfewest⟩⟩, -⟩
    · exact absurd hfits.1 (Nat.not_le.mpr hcross)
    have hused : w'.used = Ring.bytesOf w'.ring.toList := hdrops.owes.used
    rw [hdrops.limits] at hroom
    exact ⟨n, es, hfewest, htook.ring, htook.journal, htook.log.discards_eq, htook.ring ▸ hused,
      hroom, hdrops.objects, hdrops.limits⟩

/-- Another object like the sample object. -/
def sampleSecond : Object Unit := { sampleObject with id := 2 }

/-- A chunk of the sample object is loaded, and the second object is created. -/
def samplePair : Worker ScriptedMemory Unit :=
  after (allocate sampleSecond) (sampleRun [0x10000000])

/-- A chunk of the second object is loaded, and the first object is released: the older of two
records is retired. -/
def sampleMixed : Worker ScriptedMemory Unit :=
  after (free 1 0x10000000) (after (handleFault 0x10000090) samplePair)

theorem samplePair_reachable : Reachable samplePair := by
  have hloaded : Reachable (sampleRun [0x10000000]) :=
    sampleRun_fault sampleRun_nil (by decide +kernel)
  have hbuilt : sampleSecond.geometry.Built := sampleObject_built
  have hending : ending (allocate sampleSecond) (sampleRun [0x10000000]) = none := by
    decide +kernel
  exact .allocate hloaded hbuilt (.inl (eq_ok_of_ending hending))

theorem sampleMixed_reachable : Reachable sampleMixed := by
  have hending : ending (handleFault 0x10000090) samplePair = none := by decide +kernel
  obtain ⟨⟨⟩, hfault⟩ := eq_ok_of_ending hending
  have hreleased :
    ending (free 1 0x10000000) (after (handleFault 0x10000090) samplePair) = none := by
    decide +kernel
  exact .free (.fault samplePair_reachable hfault) (.inl (eq_ok_of_ending hreleased))

/-- Both records go to make room for as much as the budget; one chunk is dropped. -/
theorem room_exact_sample :
    (32 ≤ sampleMixed.limits.high ∧ sampleMixed.limits.high < 2 ^ 63 ∧
      sampleMixed.limits.high < sampleMixed.used + 32) ∧
    ∃ w' es, evictFor 32 sampleMixed = .ok () w' ∧ w'.journal = sampleMixed.journal ++ es ∧
      sampleMixed.ring.toList.length = 2 ∧ w'.ring.toList = [] ∧
        discards es = [(0x10000090, 16)] := by
  have hring : sampleMixed.ring.toList =
      [{ address := 0x10000000, size := 0, owner := 1 },
        { address := 0x10000090, size := 16, owner := 2 }] := by
    decide +kernel
  have hbounds : 32 ≤ sampleMixed.limits.high ∧ sampleMixed.limits.high < 2 ^ 63 ∧
      sampleMixed.limits.high < sampleMixed.used + 32 := by decide +kernel
  have hlow : sampleMixed.limits.low = 16 := by decide +kernel
  have hending : ending (evictFor 32) sampleMixed = none := by decide +kernel
  obtain ⟨⟨⟩, hok⟩ := eq_ok_of_ending hending
  have hreachable := sampleMixed_reachable
  generalize sampleMixed = w at hring hbounds hlow hok hreachable ⊢
  obtain ⟨n, es, hfewest, hrest, hjournal, hdiscards, -⟩ :=
    ((room_exact hreachable hbounds.1 hbounds.2.1).2 hbounds.2.2).of_ok hok
  have hle := hfewest.le
  have hroomy := hfewest.roomy
  rw [hring] at hle hroomy hrest hdiscards
  rw [hlow] at hroomy
  have hall : n = 2 := by
    match n, hle, hroomy with
    | 0, _, hroomy => rcases hroomy with h | h <;> exact absurd h (by decide)
    | 1, _, hroomy => rcases hroomy with h | h <;> exact absurd h (by decide)
    | 2, _, _ => rfl
  subst hall
  exact ⟨hbounds, _, es, hok, hjournal, congrArg List.length hring, hrest, hdiscards⟩

end Worker
end DemandPager
