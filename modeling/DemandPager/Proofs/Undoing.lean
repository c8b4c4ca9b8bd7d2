/-
# Creating an object is all or nothing

To create an object its memory is reserved and registered, its padded header is filled with
zeros, and it is recorded. Each of these can be refused. Then what was done before is undone: the
registration is taken back if there is one, and the reservation is given back. Nobody looks at the
answers to that. So an attempt that fails leaves the worker as it was, but for the memory and for
the journal, and one that succeeds adds the object and counts it
(`Worker.allocate_all_or_nothing`).

The memory is the one to which these very calls lead, with the answers that were entered
(`Replays`). This holds of every worker, every object and every memory; a reservation may even
meet another.

Key definitions: `Object.Permitted`, `Object.placeCalls`, `Undone`, `GivenBack`, `Worker.entered`.
Key theorems: `Undone.givenBack`, `Worker.allocate_undoes`, `Worker.allocate_all_or_nothing`.
-/
import DemandPager.Proofs.Creation

namespace DemandPager

variable {π γ : Type}

/-- An interval that is recorded stands where its start belongs, and the others stay. -/
theorem IntervalMap.toList_insert {α : Type} {m m' : IntervalMap α} {start len : Nat} {value : α}
    (h : m.insert start len value = .ok m') :
    m'.toList = m.upTo start ++ { start, len, value } :: m.beyond start := by
  unfold insert at h
  split at h
  · cases h
  split at h
  · cases h
  split at h
  · cases h
  split at h
  · cases h
  · cases h
    rfl

/-! ### Calls -/

/-- The memory of an object is reserved. -/
def Object.reserveCall (o : Object γ) (result : Except PagerError Nat) : JournalEntry :=
  .reserve o.geometry.trueSize o.geometry.paddedHeader (!o.geometry.readOnly) result

/-- The header is filled with zeros, if there is one. -/
def Object.headerCalls (o : Object γ) (start : Nat) : List JournalEntry :=
  if 0 < o.geometry.paddedHeader then [.zero start o.geometry.paddedHeader (.ok ())] else []

/-- The memory of an object is laid out at an address. -/
def Object.placeCalls (o : Object γ) (start : Nat) : List JournalEntry :=
  o.reserveCall (.ok start) :: .register start o.geometry.trueSize (.ok ()) :: o.headerCalls start

/-- The object fits the memory and the budget. -/
def Object.Permitted [Paging π] (o : Object γ) (w : Worker π γ) : Prop :=
  o.geometry.pageSize = Paging.pageSize w.pages ∧
    ∃ chunk, o.geometry.chunkBytes = .ok chunk ∧ chunk ≤ w.limits.high

/-- The calls of an attempt that came to nothing, and why it did. -/
inductive Undone [Paging π] (o : Object γ) (w : Worker π γ) : PagerError → List JournalEntry → Prop
  | misfit (h : o.geometry.pageSize ≠ Paging.pageSize w.pages) :
      Undone o w (.invalidConfig "object page size differs from host") []
  | large {chunk : Nat} (hchunk : o.geometry.chunkBytes = .ok chunk) (h : w.limits.high < chunk) :
      Undone o w (.chunkTooLarge chunk w.limits.high) []
  | unreserved {cause : PagerError} (h : o.Permitted w) :
      Undone o w cause [o.reserveCall (.error cause)]
  | unregistered {start : Nat} {cause : PagerError} {released : Except PagerError Unit}
      (h : o.Permitted w) :
      Undone o w cause [o.reserveCall (.ok start),
        .register start o.geometry.trueSize (.error cause),
        .release start o.geometry.trueSize released]
  | unzeroed {start : Nat} {cause : PagerError} {unregistered released : Except PagerError Unit}
      (h : o.Permitted w) (hheader : 0 < o.geometry.paddedHeader) :
      Undone o w cause [o.reserveCall (.ok start), .register start o.geometry.trueSize (.ok ()),
        .zero start o.geometry.paddedHeader (.error cause),
        .unregister start o.geometry.trueSize unregistered,
        .release start o.geometry.trueSize released]
  | unrecorded {start : Nat} {cause : PagerError} {unregistered released : Except PagerError Unit}
      (h : o.Permitted w) (hinsert : w.objects.insert start o.geometry.trueSize o = .error cause) :
      Undone o w cause (o.placeCalls start ++
        [.unregister start o.geometry.trueSize unregistered,
          .release start o.geometry.trueSize released])

/-- Whether an entry is that of a call that lays memory out. -/
def JournalEntry.isLayout : JournalEntry → Bool
  | .reserve .. | .register .. | .zero .. => true
  | _ => false

/-- After the calls `asked`, a reservation is given back by one release. One call takes its
registration back before, if and only if it was registered. -/
def GivenBack (start len : Nat) (es : List JournalEntry) : Prop :=
  ∃ (asked : List JournalEntry) (released : Except PagerError Unit),
    (∀ x ∈ asked, x.isLayout = true) ∧
      (.register start len (.ok ()) ∈ asked ∧
          (∃ unregistered, es = asked ++ [.unregister start len unregistered,
            .release start len released]) ∨
        .register start len (.ok ()) ∉ asked ∧ es = asked ++ [.release start len released])

section Undone

variable [Paging π] {o : Object γ} {w : Worker π γ} {cause : PagerError} {es : List JournalEntry}

theorem Object.isLayout_of_mem_placeCalls {start : Nat} :
    ∀ x ∈ o.placeCalls start, x.isLayout = true := by
  refine List.forall_mem_cons.mpr ⟨rfl, List.forall_mem_cons.mpr ⟨rfl, fun x hx => ?_⟩⟩
  unfold headerCalls at hx
  split at hx
  · rw [List.mem_singleton.mp hx]
    rfl
  · cases hx

/-- Nothing is called exactly if the object does not fit. -/
theorem Undone.eq_nil_iff (h : Undone o w cause es) : es = [] ↔ ¬o.Permitted w := by
  cases h with
  | misfit h => exact ⟨fun _ hfits => h hfits.1, fun _ => rfl⟩
  | large hchunk h =>
    refine ⟨?_, fun _ => rfl⟩
    rintro - ⟨-, chunk, hchunk', hle⟩
    rw [hchunk] at hchunk'
    cases hchunk'
    exact absurd h (Nat.not_lt.mpr hle)
  | unreserved h | unregistered h | unzeroed h | unrecorded h =>
    exact ⟨fun heq => (by cases heq), fun hnot => absurd h hnot⟩

/-- **A reservation that was made is given back.** -/
theorem Undone.givenBack (h : Undone o w cause es) {start : Nat}
    (hmem : o.reserveCall (.ok start) ∈ es) : GivenBack start o.geometry.trueSize es := by
  unfold Object.reserveCall at hmem
  cases h with
  | misfit | large => cases hmem
  | unreserved =>
    rcases List.mem_singleton.mp hmem with h
    cases h
  | @unregistered s _ released =>
    obtain rfl : start = s := by simpa [Object.reserveCall] using hmem
    refine ⟨[o.reserveCall (.ok start), .register start o.geometry.trueSize (.error cause)],
      released, List.forall_mem_cons.mpr ⟨rfl, List.forall_mem_singleton.mpr rfl⟩, .inr ⟨?_, rfl⟩⟩
    simp [Object.reserveCall]
  | @unzeroed s _ unregistered released =>
    obtain rfl : start = s := by simpa [Object.reserveCall] using hmem
    refine ⟨[o.reserveCall (.ok start), .register start o.geometry.trueSize (.ok ()),
      .zero start o.geometry.paddedHeader (.error cause)], released,
      List.forall_mem_cons.mpr ⟨rfl, List.forall_mem_cons.mpr ⟨rfl,
        List.forall_mem_singleton.mpr rfl⟩⟩, .inl ⟨?_, unregistered, rfl⟩⟩
    simp
  | @unrecorded s _ unregistered released =>
    obtain rfl : start = s := by
      have hheader : .reserve o.geometry.trueSize o.geometry.paddedHeader (!o.geometry.readOnly)
          (.ok start) ∉ o.headerCalls s := by
        unfold Object.headerCalls
        split <;> simp
      simpa [Object.placeCalls, Object.reserveCall, hheader] using hmem
    refine ⟨o.placeCalls start, released, Object.isLayout_of_mem_placeCalls,
      .inl ⟨?_, unregistered, rfl⟩⟩
    exact List.mem_cons_of_mem _ (List.mem_cons_self ..)

/-- No destructor runs. -/
theorem Undone.not_destructor (h : Undone o w cause es) (id : Nat) : .destructor id ∉ es := by
  have hplace : ∀ start, .destructor id ∉ o.placeCalls start := fun start hmem => by
    cases Object.isLayout_of_mem_placeCalls _ hmem
  cases h with
  | unrecorded => simp [hplace]
  | _ => simp [Object.reserveCall]

end Undone

namespace Worker

variable {w : Worker π γ}

/-- The worker after calls of the memory, of which it only keeps the journal. -/
def entered (w : Worker π γ) (pages : π) (es : List JournalEntry) : Worker π γ :=
  { w with pages, journal := w.journal ++ es }

@[simp] theorem entered_entered (pages pages' : π) (es es' : List JournalEntry) :
    (w.entered pages es).entered pages' es' = w.entered pages' (es ++ es') := by
  unfold entered
  simp only [List.append_assoc]

@[simp] theorem objects_entered (pages : π) (es : List JournalEntry) :
    (w.entered pages es).objects = w.objects := rfl

variable [Paging π]

/-! ### Parts of a creation -/

/-- An object that does not fit is refused. -/
theorem permitObject_decides (o : Object γ) :
    Ends (permitObject o) w (fun _ w' => w' = w ∧ o.Permitted w)
      (fun f w' => ∀ cause, f = .error cause → w' = w ∧ Undone o w cause []) := by
  unfold permitObject
  rw [ends_bind, ends_get, ends_ite]
  refine ⟨?_, fun hpage => ?_⟩
  · rintro hpage _ ⟨⟩
    exact ⟨rfl, .misfit hpage⟩
  rw [ends_bind, ends_checked]
  refine ⟨fun chunk hchunk => ?_, fun f hf cause hcause => ?_⟩
  · rw [ends_ite]
    refine ⟨?_, fun hfits => ⟨rfl, not_not.mp hpage, chunk, hchunk, Nat.le_of_not_lt hfits⟩⟩
    rintro hlarge _ ⟨⟩
    exact ⟨rfl, .large hchunk hlarge⟩
  · -- arithmetic on words breaks off or succeeds
    subst hcause
    have hword : ∀ a b, Word.mul a b ≠ .error (.error cause) := fun a b h => by
      cases Word.exact_eq_error h
    have hdiv : ∀ a b, Word.ceilDiv a b ≠ .error (.error cause) := fun a b h => by
      unfold Word.ceilDiv at h
      split at h <;> cases h
    unfold Geometry.chunkBytes Word.roundUp at hf
    rcases Checked.bind_eq_error.mp hf with h | ⟨_, -, h⟩
    · exact absurd h (hword _ _)
    · rcases Checked.bind_eq_error.mp h with h | ⟨_, -, h⟩
      · exact absurd h (hdiv _ _)
      · exact absurd h (hword _ _)

/-- To unwind is to make two calls, whatever comes of them. -/
theorem unwind_enters {start len : Nat} {post : PUnit → Worker π γ → Prop}
    {fail : Failure → Worker π γ → Prop}
    (h : ∀ pages unregistered released,
      Replays w.pages [.unregister start len unregistered, .release start len released] pages →
        post ⟨⟩ (w.entered pages
          [.unregister start len unregistered, .release start len released])) :
    Ends (unwind start len) w post fail := by
  unfold unwind
  rw [ends_bind]
  refine ends_callPages fun unregistered asked hunregister => ?_
  rw [ends_bind]
  refine ends_callPages fun released pages hrelease => ?_
  have hpost := h pages unregistered released (.cons hunregister (.single hrelease))
  rw [show [JournalEntry.unregister start len unregistered, .release start len released] =
    [.unregister start len unregistered] ++ [.release start len released] from rfl,
    ← entered_entered asked] at hpost
  exact hpost

/-- A reservation that cannot be registered is given back. -/
theorem registerOrRelease_enters (start len : Nat) :
    Ends (registerOrRelease start len) w
      (fun _ w' => ∃ pages, Replays w.pages [.register start len (.ok ())] pages ∧
        w' = w.entered pages [.register start len (.ok ())])
      (fun f w' => ∀ cause, f = .error cause → ∃ pages released,
        Replays w.pages [.register start len (.error cause), .release start len released] pages ∧
        w' = w.entered pages
          [.register start len (.error cause), .release start len released]) := by
  unfold registerOrRelease
  rw [ends_bind]
  refine ends_callPages fun result asked hregister => ?_
  cases result with
  | ok => exact ⟨asked, .single hregister, rfl⟩
  | error cause =>
    rw [ends_bind]
    refine ends_callPages fun released pages hrelease => ?_
    rintro _ ⟨⟩
    refine ⟨pages, released, .cons hregister (.single hrelease), ?_⟩
    exact entered_entered asked pages [.register start len (.error cause)] _

/-- A reservation whose header cannot be filled is unwound. -/
theorem zeroHeader_enters (o : Object γ) (start : Nat) :
    Ends (zeroHeader start o.geometry.trueSize o.geometry.paddedHeader) w
      (fun _ w' => ∃ pages, Replays w.pages (o.headerCalls start) pages ∧
        w' = w.entered pages (o.headerCalls start))
      (fun f w' => ∀ cause, f = .error cause → 0 < o.geometry.paddedHeader ∧
        ∃ pages unregistered released,
          Replays w.pages [.zero start o.geometry.paddedHeader (.error cause),
            .unregister start o.geometry.trueSize unregistered,
            .release start o.geometry.trueSize released] pages ∧
          w' = w.entered pages [.zero start o.geometry.paddedHeader (.error cause),
            .unregister start o.geometry.trueSize unregistered,
            .release start o.geometry.trueSize released]) := by
  unfold zeroHeader Object.headerCalls
  rw [ends_ite]
  refine ⟨fun hheader => ?_, fun hnone => ?_⟩
  · rw [if_pos hheader, ends_bind]
    refine ends_callBreakable (fun result zeroed hzero => ?_) fun _ _ h => by cases h
    cases result with
    | ok => exact ⟨zeroed, .single hzero, rfl⟩
    | error cause =>
      rw [ends_bind]
      refine unwind_enters fun pages unregistered released hunwound => ?_
      rintro _ ⟨⟩
      refine ⟨hheader, pages, unregistered, released, .cons hzero hunwound, ?_⟩
      exact entered_entered zeroed pages [.zero start o.geometry.paddedHeader (.error cause)] _
  · rw [if_neg hnone]
    refine ⟨w.pages, .nil, ?_⟩
    unfold entered
    rw [List.append_nil]

/-- A reservation that cannot be recorded is unwound. -/
theorem recordObject_enters (o : Object γ) (start : Nat) :
    Ends (recordObject start o.geometry.trueSize o) w
      (fun _ w' => ∃ objects, w.objects.insert start o.geometry.trueSize o = .ok objects ∧
        w' = { w with objects })
      (fun f w' => ∀ cause, f = .error cause →
        w.objects.insert start o.geometry.trueSize o = .error cause ∧
        ∃ pages unregistered released,
          Replays w.pages [.unregister start o.geometry.trueSize unregistered,
            .release start o.geometry.trueSize released] pages ∧
          w' = w.entered pages [.unregister start o.geometry.trueSize unregistered,
            .release start o.geometry.trueSize released]) := by
  unfold recordObject
  rw [ends_bind, ends_get]
  cases hinsert : w.objects.insert start o.geometry.trueSize o with
  | ok objects => exact ⟨objects, rfl, rfl⟩
  | error cause =>
    simp only [ends_bind]
    refine unwind_enters fun pages unregistered released hunwound => ?_
    rintro _ ⟨⟩
    exact ⟨rfl, pages, unregistered, released, hunwound, rfl⟩

/-! ### A creation -/

/-- The worker with one more object. -/
def placed (w : Worker π γ) (o : Object γ) (start : Nat) (pages : π)
    (objects : IntervalMap (Object γ)) : Worker π γ :=
  { w.entered pages (o.placeCalls start) with
    objects
    exchange := { w.exchange with stats := w.exchange.stats.record .allocate } }

/-- **What was done before a failure is undone.** -/
theorem allocate_undoes (o : Object γ) :
    Ends (allocate o) w
      (fun start w' => o.Permitted w ∧ ∃ pages objects,
        w.objects.insert start o.geometry.trueSize o = .ok objects ∧
          Replays w.pages (o.placeCalls start) pages ∧ w' = w.placed o start pages objects)
      (fun f w' => ∀ cause, f = .error cause → ∃ pages es, Undone o w cause es ∧
        Replays w.pages es pages ∧ w' = w.entered pages es) := by
  unfold allocate
  rw [ends_bind]
  refine (permitObject_decides o).mono ?_ ?_
  · rintro _ v ⟨hv, hfits⟩
    rw [hv, ends_bind]
    refine ends_callBreakable (fun result reserved hreserve => ?_) fun _ _ h => by cases h
    rw [ends_bind, ends_settle]
    refine ⟨?_, ?_⟩
    · rintro start rfl
      rw [ends_bind]
      refine (registerOrRelease_enters (w := w.entered reserved [o.reserveCall (.ok start)]) start
        o.geometry.trueSize).mono ?_ ?_
      · rintro _ _ ⟨registered, hregister, rfl⟩
        rw [ends_bind, entered_entered]
        refine (zeroHeader_enters o start).mono ?_ ?_
        · rintro _ _ ⟨zeroed, hzero, rfl⟩
          have hplaced : Replays w.pages (o.placeCalls start) zeroed :=
            .cons hreserve (hregister.append hzero)
          rw [ends_bind, entered_entered]
          refine (recordObject_enters o start).mono ?_ ?_
          · rintro _ _ ⟨objects, hinsert, rfl⟩
            exact ⟨hfits, zeroed, objects, hinsert, hplaced, rfl⟩
          · rintro _ _ h cause rfl
            obtain ⟨hinsert, pages, unregistered, released, hunwound, rfl⟩ := h cause rfl
            rw [entered_entered]
            exact ⟨pages, _, .unrecorded hfits hinsert, hplaced.append hunwound, rfl⟩
        · rintro _ _ h cause rfl
          obtain ⟨hheader, pages, unregistered, released, hunwound, rfl⟩ := h cause rfl
          rw [entered_entered]
          exact ⟨pages, _, .unzeroed hfits hheader, .cons hreserve (hregister.append hunwound), rfl⟩
      · rintro _ _ h cause rfl
        obtain ⟨pages, released, hreleased, rfl⟩ := h cause rfl
        rw [entered_entered]
        exact ⟨pages, _, .unregistered hfits, .cons hreserve hreleased, rfl⟩
    · rintro cause rfl _ ⟨⟩
      exact ⟨reserved, _, .unreserved hfits, .single hreserve, rfl⟩
  · rintro _ _ h cause rfl
    obtain ⟨hv, hundone⟩ := h cause rfl
    refine ⟨w.pages, [], hundone, .nil, ?_⟩
    unfold entered
    rw [hv, List.append_nil]

/-- **To create an object is all or nothing.** If it fails, the worker is as it was, but for the
memory and the journal: no object, no record, no byte in use, no buffer and no counter changed. The
memory was called if and only if the object fits it and the budget. A reservation that was made was
given back by one release of the same range, after one call that took its registration back if and
only if it was registered; no destructor ran. If it succeeds, the object is recorded under its
reservation and counted, and nothing else changed. Either way the memory is what exactly the calls
that were entered made of it. -/
theorem allocate_all_or_nothing (o : Object γ) :
    Ends (allocate o) w
      (fun start w' => o.Permitted w ∧
        (∃ below above, w.objects.toList = below ++ above ∧ w'.objects.toList =
          below ++ { start, len := o.geometry.trueSize, value := o } :: above) ∧
        Replays w.pages (o.placeCalls start) w'.pages ∧
        w' = { w with
          pages := w'.pages
          objects := w'.objects
          journal := w.journal ++ o.placeCalls start
          exchange := { w.exchange with stats := w.exchange.stats.record .allocate } })
      (fun f w' => ∀ cause, f = .error cause → ∃ es,
        w' = { w with pages := w'.pages, journal := w.journal ++ es } ∧
        Replays w.pages es w'.pages ∧ Undone o w cause es ∧
        (es = [] ↔ ¬o.Permitted w) ∧ (∀ id, .destructor id ∉ es) ∧
        ∀ start, o.reserveCall (.ok start) ∈ es → GivenBack start o.geometry.trueSize es) := by
  refine (allocate_undoes o).mono ?_ ?_
  · rintro start _ ⟨hfits, pages, objects, hinsert, hplaced, rfl⟩
    refine ⟨hfits, ⟨w.objects.upTo start, w.objects.beyond start, ?_, ?_⟩, hplaced, rfl⟩
    · exact (IntervalMap.upTo_append_beyond _ _).symm
    · exact IntervalMap.toList_insert hinsert
  · rintro _ _ h cause rfl
    obtain ⟨pages, es, hundone, hpages, rfl⟩ := h cause rfl
    exact ⟨es, rfl, hpages, hundone, hundone.eq_nil_iff, hundone.not_destructor,
      fun _ hmem => hundone.givenBack hmem⟩

end Worker
end DemandPager
