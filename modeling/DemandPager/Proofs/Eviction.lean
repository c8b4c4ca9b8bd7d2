/-
# Making room keeps the books

What each part of making room does to the books, whatever the memory answers and
whatever the callbacks do. Handing a chunk over leaves them alone; dropping the
oldest chunk takes one record away with its bytes (`Worker.dropOldest_ends`); and
making room ends with room (`Worker.evictFor_ends`).

A step that fails does so in one of the ways of `Worker.FaultFails`: it breaks off
for an outer reason, or it reports an error. Then the books owe what they owed
before, unless the last call was a read of a chunk about to be dropped: the record of
that chunk is gone already and its bytes are still counted.

Key definitions: `Breach.isOuter`, `Worker.HookCalled`, `Worker.HookBreaks`, `Worker.Handled`,
`Worker.Drops`, `Worker.FaultError`, `Worker.FaultFails`.
Key theorems: `Worker.writeBackChunk_ends`, `Worker.dropOldest_ends`,
`Worker.evictFor_ends`.
-/
import DemandPager.Proofs.Moves

namespace DemandPager

variable {π γ : Type}

/-- The checks that can fail although the books are in order: a number or a buffer is
too large, or a callback or the memory broke off. -/
def Breach.isOuter : Breach → Bool
  | .overflow | .capacity | .callback | .memory => true
  | _ => false

/-! ### Buffers -/

theorem Word.isAllocatable_mono {m n : Nat} (h : m ≤ n) (hn : Word.isAllocatable n) :
    Word.isAllocatable m := by
  unfold Word.isAllocatable at hn ⊢
  simp only [decide_eq_true_eq] at hn ⊢
  omega

namespace Buffer

variable {b b' : Buffer} {n : Nat}

theorem growTo_ok (hn : Word.isAllocatable n) : ∃ b', b.growTo n = .ok b' := by
  unfold growTo
  split
  · exact ⟨_, rfl⟩
  · exact ⟨_, rfl⟩

/-- A buffer that grew is no larger than can be made, and at least as large as asked
for. -/
theorem growTo_size (hb : Word.isAllocatable b.size) (h : b.growTo n = .ok b') :
    Word.isAllocatable b'.size ∧ n ≤ b'.size := by
  unfold growTo at h
  split at h
  · cases h
    exact ⟨hb, ‹_›⟩
  · split at h
    · cases h
      exact ⟨‹_›, Nat.le_refl _⟩
    · cases h

theorem le_size_of_growTo (h : b.growTo n = .ok b') : n ≤ b'.size := by
  unfold growTo at h
  split at h
  · cases h
    assumption
  · split at h
    · cases h
      exact Nat.le_refl _
    · cases h

theorem size_le_of_growTo (h : b.growTo n = .ok b') : b.size ≤ b'.size := by
  unfold growTo at h
  split at h
  · cases h
    exact Nat.le_refl _
  · rename_i hlt
    split at h
    · cases h
      exact Nat.le_of_not_le hlt
    · cases h

theorem growTo_error {f : Failure} (h : b.growTo n = .error f) : f = .abort .capacity := by
  unfold growTo at h
  split at h
  · cases h
  · split at h
    · cases h
    · cases h
      rfl

theorem length_take (h : n ≤ b.size) : (b.take n).length = n := by
  unfold take Bytes.growTo
  rw [Nat.min_eq_left h]
  split
  · rename_i hle
    exact Nat.le_antisymm (List.length_take_le ..) hle
  · rename_i hle
    rw [List.length_append, Bytes.zeros, List.length_replicate]
    omega

/-- What was written into the front is what the front holds. -/
theorem take_write {bytes : Bytes} (h : bytes.length ≤ b.size) :
    (b.write bytes).take bytes.length = bytes := by
  unfold take write Bytes.growTo
  simp only [List.take_of_length_le h, List.take_left, Nat.min_eq_left h, Nat.le_refl, if_true]

end Buffer

namespace Worker

variable [Paging π] {w v w' : Worker π γ} {es es' : List JournalEntry} {lost : Nat}

/-! ### Handing a chunk over -/

omit [Paging π] in
/-- The hook of an object was called with elements of a chunk and ended in this way. Besides
the callers' state and the entry of the call all is as before. -/
structure HookCalled (object : Object γ) (span : Span) (bytes : Bytes) (result : HandOver)
    (w w' : Worker π γ) : Prop where
  call : ∃ hook, object.callbacks.writeBack = some hook ∧
    hook span.first span.stop bytes w.client = (result, w'.client)
  others : w' = { w with
    client := w'.client
    journal := w.journal ++ [.writeBack object.id span.first span.stop bytes] }

omit [Paging π] in
theorem HookCalled.sameBooks {object : Object γ} {span : Span} {bytes : Bytes} {result : HandOver}
    (h : HookCalled object span bytes result w w') :
    SameBooks w w' [.writeBack object.id span.first span.stop bytes] := by
  rw [h.others]
  exact ⟨⟨rfl, rfl, rfl, rfl, rfl⟩, rfl, rfl, rfl, rfl, rfl⟩

omit [Paging π] in
/-- A hook broke off, in the last call that was made. It had been handed the elements of a
chunk, which were read just before. -/
def HookBreaks (w w' : Worker π γ) : Prop :=
  ∃ e ∈ w.objects.toList, ∃ k bytes given v es,
    e.value.wantsWriteBack ∧
    v.journal = w.journal ++ es ++
      [.readResident (e.chunkStart k) (e.contentLen k) (.ok bytes)] ∧
    (bytes.length = e.contentLen k → given = bytes) ∧
    HookCalled e.value (e.value.geometry.chunk k) given .broke v w'

omit [Paging π] in
/-- A hook that breaks off later breaks the whole off. -/
theorem HookBreaks.of_later (h : HookBreaks v w') (hjournal : v.journal = w.journal ++ es)
    (hobjects : ∀ e ∈ v.objects.toList, e ∈ w.objects.toList) : HookBreaks w w' := by
  obtain ⟨e, he, k, bytes, given, u, es', hwants, hread, hgiven, hcalled⟩ := h
  refine ⟨e, hobjects e he, k, bytes, given, u, es ++ es', hwants, ?_, hgiven, hcalled⟩
  rw [hread, hjournal, List.append_assoc w.journal]

omit [Paging π] in
theorem SameBooks.view (h : SameBooks w w' es) :
    w'.view = { w.view with pages := w'.pages, client := w'.client } := by
  unfold Worker.view
  rw [h.objects, h.ring, h.ringGrowable]

omit [Paging π] in
/-- The chunk that a record names is found again. -/
theorem locateChunk_eq (hw : w.toDesk.Filed) {e : Interval (Object γ)}
    (he : e ∈ w.objects.toList) {r : ChunkRecord} {k : Nat} (hr : r.IsChunkOf e k) :
    locateChunk e r.address =
      .ok { object := e.value, bodyStart := e.bodyStart, span := e.value.geometry.chunk k } := by
  have hsub : Word.sub r.address e.bodyStart = .ok (e.value.geometry.chunk k).offset := by
    rw [hr.address]
    exact Word.sub_eq_ok.mpr ⟨Nat.le_add_right .., (Nat.add_sub_cancel_left ..).symm⟩
  unfold locateChunk
  simp only [hw.bodyStart_eq he]
  show (Word.sub r.address e.bodyStart >>= _) = _
  rw [hsub]
  show (e.value.geometry.locate (e.value.geometry.chunk k).offset >>= _) = _
  rw [Geometry.locate_chunk (hw.regular he) hr.full_lt hr.hasChunk]
  rfl

/-- Reading resident bytes changes nothing but the spill buffer, and answers what
was read. -/
theorem spillResident_ends {address len : Nat} (hlen : Word.isAllocatable len) :
    Ends (spillResident address len) w
      (fun given w' => ∃ bytes, SameBooks w w' [.readResident address len (.ok bytes)] ∧
        Called (Paging.readResident address len) w.pages (.ok bytes) w'.pages ∧
        w'.client = w.client ∧ w'.exchange = w.exchange ∧ given.length = len ∧
        (bytes.length = len → given = bytes))
      (fun f w' => ∃ cause, f = .error cause ∧
        SameBooks w w' [.readResident address len (.error cause)] ∧
        Called (Paging.readResident address len) w.pages (.error cause) w'.pages ∧
        w'.client = w.client) := by
  obtain ⟨spill, hspill⟩ := Buffer.growTo_ok (b := w.spill) hlen
  have hsize := Buffer.le_size_of_growTo hspill
  unfold spillResident
  simp only [ends_bind, ends_get, hspill, ends_checked_ok, ends_modify]
  refine ends_callPages fun result pages hcalled => ?_
  simp only [ends_settle, ends_pure]
  refine ⟨fun bytes h => ⟨bytes, ?_, ?_, trivial, trivial, ?_, fun hlength => ?_⟩,
    fun cause h => ⟨cause, rfl, ?_, ?_, trivial⟩⟩
  · rw [h]
    exact ⟨⟨rfl, rfl, rfl, rfl, rfl⟩, rfl, rfl, rfl, rfl, rfl⟩
  · rw [← h]
    exact hcalled
  · exact Buffer.length_take hsize
  · show (spill.write (bytes.take len)).take len = bytes
    rw [List.take_of_length_le (Nat.le_of_eq hlength), ← hlength]
    exact Buffer.take_write (hlength ▸ hsize)
  · rw [h]
    exact ⟨⟨rfl, rfl, rfl, rfl, rfl⟩, rfl, rfl, rfl, rfl, rfl⟩
  · rw [← h]
    exact hcalled

omit [Paging π] in
/-- Elements are handed to the hook, and this fails only if the hook breaks off. -/
theorem handOver_ends {object : Object γ} {span : Span} {bytes : Bytes} {hook : Hook γ}
    (hhook : object.callbacks.writeBack = some hook) :
    Ends (handOver object span bytes) w
      (fun _ w' => HookCalled object span bytes .taken w w')
      (fun f w' => f = .abort .callback ∧ HookCalled object span bytes .broke w w') := by
  have hcalled : ∀ result, (hook span.first span.stop bytes w.client).1 = result →
      HookCalled object span bytes result w { w with
        client := (hook span.first span.stop bytes w.client).2
        journal := w.journal ++ [.writeBack object.id span.first span.stop bytes] } :=
    fun result hresult => ⟨⟨hook, hhook, Prod.ext hresult rfl⟩, rfl⟩
  unfold handOver
  rw [hhook]
  simp only [ends_bind, ends_note, ends_get, ends_set, ends_ensure]
  cases hend : (hook span.first span.stop bytes w.client).1 with
  | taken => exact ⟨fun _ => hcalled _ hend, fun h => by cases h⟩
  | broke => exact ⟨fun h => (by cases h), fun _ => ⟨trivial, hcalled _ hend⟩⟩

/-- **A chunk on record is handed over with the books left alone.** The only ways to
fail are a hook that breaks off and a read that is refused. -/
theorem writeBackChunk_ends (hw : w.toDesk.Filed) {e : Interval (Object γ)}
    (he : e ∈ w.objects.toList) {r : ChunkRecord} {k : Nat} (hr : r.IsChunkOf e k)
    (hfits : Word.isAllocatable r.size) :
    Ends (writeBackChunk r.address) w
      (fun _ w' => ∃ es, SameBooks w w' es ∧ Calm es ∧
        Offered e k w.pages w.client w'.pages w'.client)
      (fun f w' => (f = .abort .callback ∧ HookBreaks w w') ∨
        ∃ cause, f = .error cause ∧
          SameBooks w w' [.readResident (e.chunkStart k) (e.contentLen k) (.error cause)] ∧
          Called (Paging.readResident (e.chunkStart k) (e.contentLen k)) w.pages (.error cause)
            w'.pages ∧
          w'.client = w.client) := by
  unfold writeBackChunk
  simp only [ends_bind, ends_get, hw.find?_chunk he hr]
  rw [ends_ite]
  refine ⟨fun hwants => ?_, fun hwants => ?_⟩
  · have hplace : (e.bodyStart + (e.value.geometry.chunk k).offset == r.address) = true := by
      rw [hr.address]
      exact beq_self_eq_true _
    have hlen : Word.isAllocatable (e.contentLen k) := by
      refine Word.isAllocatable_mono ?_ hfits
      rw [hr.size]
      exact (hw.regular he).content_le_bytes
    obtain ⟨-, hook, hhook⟩ := Object.wantsWriteBack_iff.mp hwants
    simp only [ends_bind, locateChunk_eq hw he hr, ends_checked_ok, ends_ensure]
    refine ⟨fun _ => ?_, fun h => absurd hplace (by rw [h]; exact Bool.false_ne_true)⟩
    rw [show r.address = e.chunkStart k from hr.address]
    apply (spillResident_ends hlen).mono
    · rintro given v ⟨bytes, hv, hread, hclient, -, -, hgiven⟩
      apply (handOver_ends (w := v) hhook).mono
      · intro _ v' hcalled
        have hv' := hcalled.sameBooks
        rw [ends_count]
        refine ⟨_, hv.trans ⟨⟨hv'.journal, ?_, hv'.limits, hv'.ringGrowable, hv'.phase⟩,
          hv'.objects, hv'.gates, hv'.ring, hv'.used, hv'.scratch⟩, ?_, ?_⟩
        · rw [hv'.exchange]
        · exact (calm_singleton rfl).append (calm_singleton rfl)
        · obtain ⟨hook', hhook', hcall⟩ := hcalled.call
          rw [hclient] at hcall
          show Offered e k w.pages w.client v'.pages v'.client
          rw [show v'.pages = v.pages by rw [hcalled.others]]
          exact .taken hwants hhook' hread hgiven hcall
      · rintro f w' ⟨rfl, hcalled⟩
        refine .inl ⟨rfl, e, he, k, bytes, given, v, [], hwants, ?_, hgiven, hcalled⟩
        rw [hv.journal, List.append_nil]
    · rintro f v ⟨cause, rfl, hv, hread, hclient⟩
      exact .inr ⟨cause, rfl, hv, hread, hclient⟩
  · rw [ends_pure]
    exact ⟨[], SameBooks.refl w, calm_nil, .unwanted (Bool.eq_false_iff.mpr hwants)⟩

/-! ### Dropping chunks -/

/-- The same objects, and books that owe what they owed. -/
structure Handled (lost : Nat) (w w' : Worker π γ) (es : List JournalEntry) : Prop
    extends Kept w w' es where
  objects : w'.objects = w.objects
  filed : w'.toDesk.Filed
  owes : w'.toDesk.Owes lost
  moves : Moves w.view w'.view

/-- Chunks were dropped: there are fewer records and no more bytes in use. -/
structure Drops (lost : Nat) (w w' : Worker π γ) (es : List JournalEntry) : Prop
    extends Handled lost w w' es where
  scratch : w.scratch.size ≤ w'.scratch.size
  ring : w'.ring.toList <:+ w.ring.toList
  used_le : w'.used ≤ w.used
  calm : Calm es

/-- What the handling of a fault leaves when it ends with an error. The books owe what
they owed, unless the last call was a read that was refused; then they owe the bytes
of a record that was live, too. -/
structure FaultError (lost : Nat) (w w' : Worker π γ) (cause : PagerError)
    (es : List JournalEntry) : Prop extends Kept w w' es where
  objects : w'.objects = w.objects
  filed : w'.toDesk.Filed
  ringEmpty : lost = 0 → cause = .ringEmpty → ∃ x ∈ es.getLast?, x.refusal? = some cause
  owes : (Calm es ∧ w'.toDesk.Owes lost) ∨
    (¬Calm es ∧ (∃ r ∈ w.ring.toList, r.isLive ∧ w'.toDesk.Owes (lost + r.size)) ∧
      ∃ s, Moves w.view s ∧ Lose s w'.view)
  moves : Moves w.view w'.view

/-- How the handling of a fault can fail. -/
def FaultFails (lost : Nat) (w : Worker π γ) (f : Failure) (w' : Worker π γ) : Prop :=
  (∃ breach, f = .abort breach ∧ (breach.isOuter ∨ breach = .unbalanced ∧ 0 < lost)) ∨
    ∃ cause es, f = .error cause ∧ FaultError lost w w' cause es

theorem Handled.trans (h : Handled lost w v es) (h' : Handled lost v w' es') :
    Handled lost w w' (es ++ es') where
  toKept := h.toKept.trans h'.toKept
  objects := h'.objects.trans h.objects
  filed := h'.filed
  owes := h'.owes
  moves := h.moves.trans h'.moves

theorem Drops.refl (hw : w.toDesk.Filed) (ho : w.toDesk.Owes lost) : Drops lost w w [] where
  toHandled := ⟨Kept.refl w, rfl, hw, ho, .refl⟩
  scratch := Nat.le_refl _
  ring := List.suffix_refl _
  used_le := Nat.le_refl _
  calm := calm_nil

theorem Drops.trans (h : Drops lost w v es) (h' : Drops lost v w' es') :
    Drops lost w w' (es ++ es') where
  toHandled := h.toHandled.trans h'.toHandled
  scratch := h.scratch.trans h'.scratch
  ring := h'.ring.trans h.ring
  used_le := h'.used_le.trans h.used_le
  calm := h.calm.append h'.calm

/-- A failure after chunks were dropped in order is a failure of the whole. -/
theorem Drops.fails {f : Failure} (h : Drops lost w v es) (hf : FaultFails lost v f w') :
    FaultFails lost w f w' := by
  rcases hf with hf | ⟨cause, es', rfl, he⟩
  · exact .inl hf
  · have hlast : ∀ x ∈ es'.getLast?, x ∈ (es ++ es').getLast? := by
      intro x hx
      rw [Option.mem_def] at hx ⊢
      rw [List.getLast?_append, hx]
      rfl
    refine .inr ⟨cause, es ++ es', rfl, h.toKept.trans he.toKept, he.objects.trans h.objects,
      he.filed, fun hlost hc => ?_, ?_, h.moves.trans he.moves⟩
    · obtain ⟨x, hx, hr⟩ := he.ringEmpty hlost hc
      exact ⟨x, hlast x hx, hr⟩
    · rcases he.owes with ⟨hcalm, ho⟩ | ⟨hcalm, ⟨r, hr, hl, ho⟩, s, hs, hlose⟩
      · exact .inl ⟨h.calm.append hcalm, ho⟩
      · exact .inr ⟨fun hc => hcalm fun x hx => hc x (hlast x hx), ⟨r, h.ring.subset hr, hl, ho⟩,
          s, h.moves.trans hs, hlose⟩

/-- An error that leaves the books as they were. -/
theorem SameBooks.fails {cause : PagerError} (h : SameBooks w w' es) (hcalm : Calm es)
    (hw : w.toDesk.Filed) (ho : w.toDesk.Owes lost)
    (hempty : cause = .ringEmpty → ∃ x ∈ es.getLast?, x.refusal? = some cause)
    (hmoves : Moves w.view w'.view) : FaultFails lost w (.error cause) w' :=
  .inr ⟨cause, es, rfl, h.toKept, h.objects, h.filed hw, fun _ => hempty,
    .inl ⟨hcalm, h.owes ho⟩, hmoves⟩

omit [Paging π] in
/-- The totals agree exactly if the books owe nothing. -/
theorem checkTotals_ends (ho : w.toDesk.Owes lost) :
    Ends checkTotals w (fun _ w' => w' = w ∧ lost = 0)
      (fun f w' => f = .abort .unbalanced ∧ w' = w ∧ 0 < lost) := by
  have hlive : w.ring.liveBytes = .ok w.ring.liveSum := by
    refine Ring.liveBytes_eq_ok.mpr ⟨?_, rfl⟩
    have hused := ho.used
    have hlt := ho.used_lt
    omega
  unfold checkTotals
  simp only [ends_bind, ends_get, hlive, ends_checked_ok, ends_ensure]
  have hused := ho.used
  refine ⟨fun heq => ?_, fun hne => ?_⟩
  · rw [beq_iff_eq] at heq
    exact ⟨fun _ => ⟨trivial, by omega⟩, fun hc => by simp [ho.used_le] at hc⟩
  · rw [beq_eq_false_iff_ne] at hne
    exact ⟨trivial, trivial, by omega⟩

omit [Paging π] in
/-- The books after a record was popped. -/
theorem popped_filed {d : Desk γ} {record : ChunkRecord} {ring : Ring} (hw : d.Filed)
    (hring : ring.Sound) (hlist : d.ring.toList = record :: ring.toList) :
    { d with ring }.Filed := by
  have hsub : ∀ r ∈ ring.toList, r ∈ d.ring.toList := by
    intro r hr
    rw [hlist]
    exact List.mem_cons_of_mem _ hr
  exact ⟨hw.objects, hw.built, hw.len, hring, fun r hr => hw.chunks r (hsub r hr),
    fun r hr => hw.fits r (hsub r hr), hw.scratch⟩

omit [Paging π] in
/-- A popped record is owed until its bytes are taken off. -/
theorem popped_owes {d : Desk γ} {record : ChunkRecord} {ring : Ring} (ho : d.Owes lost)
    (hlist : d.ring.toList = record :: ring.toList) :
    { d with ring }.Owes (lost + record.size) := by
  refine ⟨?_, ho.used_le, ho.used_lt⟩
  have hused := ho.used
  unfold Ring.liveSum at hused ⊢
  rw [hlist, Ring.bytesOf_cons] at hused
  show d.used = Ring.bytesOf ring.toList + (lost + record.size)
  omega

/-- The bytes of a record were taken off and its chunk was to be dropped. -/
structure TookOff (lost : Nat) (record : ChunkRecord) (w w' : Worker π γ)
    (result : Except PagerError Unit) : Prop
    extends Kept w w' [.discard record.address record.size result] where
  objects : w'.objects = w.objects
  ring : w'.ring = w.ring
  scratch : w'.scratch.size = w.scratch.size
  client : w'.client = w.client
  used_le : w'.used ≤ w.used
  owes : w'.toDesk.Owes lost
  called : Called (Paging.discard record.address record.size) w.pages result w'.pages
  stats : result = .ok () →
    w'.exchange.stats = w.exchange.stats.record (.eviction record.size)

theorem dropChunk_ends {record : ChunkRecord} (ho : w.toDesk.Owes (lost + record.size)) :
    Ends (dropChunk record) w
      (fun _ w' => TookOff lost record w w' (.ok ()) ∧ lost = 0)
      (fun f w' => (f = .abort .unbalanced ∧ 0 < lost) ∨
        ∃ cause, f = .error cause ∧ TookOff lost record w w' (.error cause)) := by
  have hused := ho.used
  have hsub : Word.sub w.used record.size = .ok (w.used - record.size) :=
    Word.sub_eq_ok.mpr ⟨by omega, rfl⟩
  unfold dropChunk
  simp only [ends_bind, ends_get, hsub, ends_checked_ok, ends_modify]
  refine ends_callPages fun result pages hcalled => ?_
  have htook : ∀ stats, (result = .ok () →
      stats = w.exchange.stats.record (.eviction record.size)) → TookOff lost record w { w with
      used := w.used - record.size
      pages
      journal := w.journal ++ [.discard record.address record.size result]
      exchange := { w.exchange with stats } } result := by
    intro stats hstats
    refine ⟨⟨rfl, rfl, rfl, rfl, rfl⟩, rfl, rfl, rfl, rfl, Nat.sub_le .., ⟨?_, ?_, ?_⟩, hcalled,
      hstats⟩
    · show w.used - record.size = w.ring.liveSum + lost
      omega
    · exact (Nat.sub_le ..).trans ho.used_le
    · exact Nat.lt_of_le_of_lt (Nat.sub_le ..) ho.used_lt
  simp only [ends_settle, ends_count]
  refine ⟨fun _ hok => ?_, fun cause herr => ?_⟩
  · have ht := htook (w.exchange.stats.record (.eviction record.size)) fun _ => rfl
    apply (checkTotals_ends ht.owes).mono
    · rintro _ v ⟨rfl, hlost⟩
      subst hok
      exact ⟨ht, hlost⟩
    · rintro f v ⟨rfl, -, hlost⟩
      exact .inl ⟨rfl, hlost⟩
  · subst herr
    exact .inr ⟨cause, rfl, htook w.exchange.stats fun h => by cases h⟩

/-- A record that was popped, handed over and taken off is a record dropped. -/
theorem TookOff.drops {record : ChunkRecord} {ring : Ring} {e : Interval (Object γ)} {k : Nat}
    {result : Except PagerError Unit} (hw : w.toDesk.Filed) (hring : ring.Sound)
    (hlist : w.ring.toList = record :: ring.toList) (he : e ∈ w.objects.toList)
    (hr : record.IsChunkOf e k) (hv : SameBooks { w with ring } v es)
    (hoffer : Offered e k w.pages w.client v.pages v.client)
    (h : TookOff lost record v w' result) :
    Drops lost w w' (es ++ [.discard record.address record.size result]) where
  toKept := by
    have hkept : Kept w v es :=
      ⟨hv.journal, hv.exchange, hv.limits, hv.ringGrowable, hv.phase⟩
    exact hkept.trans h.toKept
  objects := h.objects.trans hv.objects
  scratch := Nat.le_of_eq (h.scratch.trans hv.scratch).symm
  ring := by
    rw [h.ring, hv.ring, hlist]
    exact List.suffix_cons ..
  used_le := h.used_le.trans (Nat.le_of_eq hv.used)
  filed := (hv.filed (popped_filed hw hring hlist)).of_eq h.objects h.ring h.scratch
  owes := h.owes
  calm := calm_append_singleton rfl
  moves := by
    have hview : w'.view =
        { w.view with pages := w'.pages, client := v.client, records := ring.toList } := by
      unfold Worker.view
      rw [h.objects, hv.objects, h.ring, hv.ring, h.ringGrowable, hv.ringGrowable, h.client]
    rw [hview]
    exact .single (.evict hlist he hr hoffer h.called)

/-- **The oldest record goes with its bytes.** While the books balance and bytes are in
use there is one. -/
theorem dropOldest_ends (hw : w.toDesk.Filed) (ho : w.toDesk.Owes lost) (hused : 0 < w.used) :
    Ends dropOldest w
      (fun _ w' => ∃ es, Drops lost w w' es ∧
        w'.ring.toList.length + 1 = w.ring.toList.length)
      (FaultFails lost w) := by
  unfold dropOldest
  simp only [ends_bind, ends_get]
  rcases Ring.pop_spec hw.ring with ⟨hnil, hpop⟩ | ⟨record, ring, hpop, hring, hlist⟩
  · -- there is no record, so what is in use is owed
    rw [hpop, ends_settle_error]
    refine .inr ⟨_, [], rfl, Kept.refl w, rfl, hw, fun hlost => ?_, .inl ⟨calm_nil, ho⟩, .refl⟩
    have hsum := ho.used
    unfold Ring.liveSum at hsum
    rw [hnil, Ring.bytesOf_nil] at hsum
    omega
  have hlength : ring.toList.length + 1 = w.ring.toList.length := by
    rw [hlist, List.length_cons]
  have hmem : record ∈ w.ring.toList := by
    rw [hlist]
    exact List.mem_cons_self ..
  rw [hpop, ends_settle_ok]
  simp only [ends_modify]
  set popped : Worker π γ := { w with ring } with hpopped
  have hfiled : popped.toDesk.Filed := popped_filed hw hring hlist
  have howes : popped.toDesk.Owes (lost + record.size) := popped_owes ho hlist
  rw [ends_ite]
  refine ⟨fun hlive => ?_, fun hdead => ?_⟩
  · obtain ⟨e, he, k, hr⟩ := hw.chunks record hmem hlive
    rw [ends_bind]
    apply (writeBackChunk_ends (w := popped) hfiled he hr (hw.fits record hmem)).mono
    · rintro _ v ⟨es, hv, -, hoffer⟩
      apply (dropChunk_ends (hv.owes howes)).mono
      · rintro _ w' ⟨htook, -⟩
        refine ⟨_, htook.drops hw hring hlist he hr hv hoffer, ?_⟩
        rw [htook.ring, hv.ring]
        exact hlength
      · rintro f w' (⟨rfl, hlost⟩ | ⟨cause, rfl, htook⟩)
        · exact .inl ⟨.unbalanced, rfl, .inr ⟨rfl, hlost⟩⟩
        · have hd := htook.drops hw hring hlist he hr hv hoffer
          refine .inr ⟨cause, _, rfl, hd.toKept, hd.objects, hd.filed, fun _ _ => ?_,
            .inl ⟨hd.calm, hd.owes⟩, hd.moves⟩
          exact ⟨_, List.getLast?_concat .., rfl⟩
    · rintro f v (⟨rfl, -⟩ | ⟨cause, rfl, hv, hread, hclient⟩)
      · exact .inl ⟨.callback, rfl, .inl rfl⟩
      · have hlose : Lose w.view v.view := by
          rw [hv.view, hclient]
          exact .intro hlist he hr hlive hread
        refine .inr ⟨cause, _, rfl,
          ⟨hv.journal, hv.exchange, hv.limits, hv.ringGrowable, hv.phase⟩,
          hv.objects, hv.filed hfiled, fun _ _ => ⟨_, rfl, rfl⟩, .inr ⟨?_, ?_, ?_⟩,
          .single (.lose hlose)⟩
        · intro hcalm
          cases hcalm _ rfl
        · exact ⟨record, hmem, hlive, hv.owes howes⟩
        · exact ⟨_, .refl, hlose⟩
  · have hsize : record.size = 0 := by
      simpa [ChunkRecord.isLive] using hdead
    rw [ends_pure]
    refine ⟨[], ⟨⟨⟨(List.append_nil _).symm, rfl, rfl, rfl, rfl⟩, rfl, hfiled, ?_,
      .single (.skip hlist hsize)⟩, Nat.le_refl _, ?_, Nat.le_refl _, calm_nil⟩, hlength⟩
    · rwa [hsize] at howes
    · rw [hlist]
      exact List.suffix_cons ..

/-! ### Making room -/

omit [Paging π] in
/-- It is not crowded if nothing is in use or the bytes fit under the low mark. -/
theorem crowded_eq_false {fill : Nat} :
    w.crowded fill = false ↔ w.used = 0 ∨ w.used + fill ≤ w.limits.low := by
  unfold crowded
  simp only [Bool.and_eq_false_iff, decide_eq_false_iff_not]
  omega

/-- Chunks are dropped until it is not crowded; there are as many turns as records. -/
theorem dropWhileCrowded_ends (fill : Nat) : ∀ (records : Nat) (w : Worker π γ),
    w.toDesk.Filed → w.toDesk.Owes lost → w.ring.toList.length ≤ records →
    Ends (dropWhileCrowded fill records) w
      (fun _ w' => ∃ es, Drops lost w w' es ∧ w'.crowded fill = false)
      (FaultFails lost w)
  | 0, w, hw, ho, hrecords => by
    unfold dropWhileCrowded
    simp only [ends_bind, ends_get]
    rw [ends_ite]
    refine ⟨fun hcrowded => ?_, fun hfree => ?_⟩
    · rw [ends_refuse]
      refine .inr ⟨_, [], rfl, Kept.refl w, rfl, hw, fun hlost => ?_,
        .inl ⟨calm_nil, ho⟩, .refl⟩
      have hnil : w.ring.toList = [] := List.length_eq_zero_iff.mp (by omega)
      have hsum := ho.used
      unfold Ring.liveSum at hsum
      rw [hnil, Ring.bytesOf_nil] at hsum
      unfold crowded at hcrowded
      simp only [Bool.and_eq_true, decide_eq_true_eq] at hcrowded
      omega
    · exact ⟨[], Drops.refl hw ho, Bool.eq_false_iff.mpr hfree⟩
  | records + 1, w, hw, ho, hrecords => by
    unfold dropWhileCrowded
    simp only [ends_bind, ends_get]
    rw [ends_ite]
    refine ⟨fun hcrowded => ?_, fun hfree => ?_⟩
    · have hused : 0 < w.used := by
        unfold crowded at hcrowded
        simp only [Bool.and_eq_true, decide_eq_true_eq] at hcrowded
        exact hcrowded.1
      rw [ends_bind]
      refine (dropOldest_ends hw ho hused).mono ?_ fun _ _ h => h
      rintro _ v ⟨es, hv, hlength⟩
      have hrest := dropWhileCrowded_ends fill records v hv.filed hv.owes (by omega)
      refine hrest.mono ?_ fun _ _ h => hv.fails h
      rintro _ w' ⟨es', hw', hfree⟩
      exact ⟨_, hv.trans hw', hfree⟩
    · exact ⟨[], Drops.refl hw ho, Bool.eq_false_iff.mpr hfree⟩

/-- **Making room ends with room.** -/
theorem evictFor_ends {fill : Nat} (hw : w.toDesk.Filed) (ho : w.toDesk.Owes lost)
    (hmarks : w.limits.low ≤ w.limits.high) (hfill : fill ≤ w.limits.high) :
    Ends (evictFor fill) w
      (fun _ w' => ∃ es, Drops lost w w' es ∧ w'.used + fill ≤ w'.limits.high ∧
        w'.used + fill < wordBound)
      (FaultFails lost w) := by
  unfold evictFor
  simp only [ends_bind, ends_get, ends_checked, Word.add_eq_ok]
  refine ⟨?_, fun f hf => .inl ⟨.overflow, Word.exact_eq_error hf, .inl rfl⟩⟩
  rintro _ ⟨hlt, rfl⟩
  rw [ends_ite]
  refine ⟨fun _ => ?_, fun hfits => ?_⟩
  · have hlength : w.ring.toList.length ≤ w.ring.length := Nat.le_of_eq (Ring.length_toList hw.ring)
    refine (dropWhileCrowded_ends fill _ w hw ho hlength).mono ?_ fun _ _ h => h
    rintro _ w' ⟨es, hw', hfree⟩
    have hle := hw'.used_le
    have hlimits := hw'.limits
    rw [crowded_eq_false] at hfree
    refine ⟨es, hw', ?_, by omega⟩
    rw [hlimits] at hfree ⊢
    omega
  · exact ⟨[], Drops.refl hw ho, Nat.le_of_not_lt hfits, hlt⟩

end Worker
end DemandPager
