/-
# The conduct of errands

What the errands of the worker do, whatever other threads do between their parts. An
eviction makes only mute deeds (`Worker.evictErrand_ensures`). A release takes its object
through a whole try and off the books, or it leaves the object mapped
(`Worker.freeErrand_ensures`). All deeds are lawful all the while.

Key definitions: `Within`, `Lull`, `Standing`, `Gone`, `Declined`.
Key theorems: `Worker.evictErrand_ensures`, `Worker.unmapErrand_ensures`,
`Worker.dischargeErrand_ensures`, `Worker.freeErrand_ensures`.
-/
import DemandPager.Proofs.Courses

namespace DemandPager

variable {π γ α : Type} {O : List (Interval (Object γ))} {S : Nat → Prop}

theorem IntervalMap.mem_of_find? {m : IntervalMap α} {address : Nat} {e : Interval α}
    (h : m.find? address = some e) : e ∈ m.toList :=
  (mem_upTo (List.mem_of_getLast? (Option.filter_eq_some_iff.mp h).1)).1

/-- From one moment to the other the deeds are lawful, and only objects that lie at `S`
moved on; nothing was answered. -/
structure Within (O : List (Interval (Object γ))) (S : Nat → Prop) (m₀ m : Moment γ) : Prop where
  lawful : Lawful O m.deeds
  course : ∀ start, ¬S start → course start m.deeds = course start m₀.deeds
  answers : m.deeds.filterMap Deed.answer? = m₀.deeds.filterMap Deed.answer?

/-- From one moment to the other the deeds were mute, and the objects stay. -/
structure Lull (O : List (Interval (Object γ))) (m m' : Moment γ) : Prop where
  objects : m'.desk.objects = m.desk.objects
  lawful : Lawful O m'.deeds
  handedOver : HandedOver m'.deeds
  mute : ∃ new, m'.deeds = m.deeds ++ new ∧ ∀ d ∈ new, d.isMute

theorem Lull.refl {m : Moment γ} (hm : Lawful O m.deeds) (hs : HandedOver m.deeds) : Lull O m m :=
  ⟨rfl, hm, hs, [], (List.append_nil _).symm, fun _ h => by cases h⟩

theorem Lull.trans {m m' m'' : Moment γ} (h : Lull O m m') (h' : Lull O m' m'') : Lull O m m'' where
  objects := h'.objects.trans h.objects
  lawful := h'.lawful
  handedOver := h'.handedOver
  mute := by
    obtain ⟨new, hnew, hmute⟩ := h.mute
    obtain ⟨new', hnew', hmute'⟩ := h'.mute
    refine ⟨new ++ new', by rw [hnew', hnew, List.append_assoc], fun d hd => ?_⟩
    exact (List.mem_append.mp hd).elim (hmute d) (hmute' d)

theorem Lull.course {m m' : Moment γ} (h : Lull O m m') (start : Nat) :
    course start m'.deeds = course start m.deeds := by
  obtain ⟨new, hnew, hmute⟩ := h.mute
  rw [hnew, course_append, course_mute hmute, List.append_nil]

theorem Lull.answers {m m' : Moment γ} (h : Lull O m m') :
    m'.deeds.filterMap Deed.answer? = m.deeds.filterMap Deed.answer? := by
  obtain ⟨new, hnew, hmute⟩ := h.mute
  rw [hnew, List.filterMap_append, answers_mute hmute, List.append_nil]

/-- Nothing was entered in the journal. -/
theorem Lull.silent {m : Moment γ} {desk : Desk γ} (hm : Lawful O m.deeds) (hs : HandedOver m.deeds)
    (hobjects : desk.objects = m.desk.objects) : Lull O m (m.noted desk []) := by
  refine ⟨hobjects, ?_, ?_, [], rfl, fun _ h => by cases h⟩
  all_goals
    rw [Moment.deeds_noted, List.map_nil, List.append_nil]
    assumption

/-- Something mute was entered that is not a chunk that was read or handed over. -/
theorem Lull.entry {m : Moment γ} {desk : Desk γ} {e : JournalEntry} (hm : Lawful O m.deeds)
    (hs : HandedOver m.deeds) (hobjects : desk.objects = m.desk.objects)
    (hmute : (Deed.entry e).isMute) (hread : (Deed.entry e).isRead = false)
    (hhand : (Deed.entry e).isHandOver = false) : Lull O m (m.noted desk [e]) where
  objects := hobjects
  lawful := hm.snoc_entry (Deed.unseen_of_isMute hmute).1 (.other hs hhand)
  handedOver := handedOver_snoc hread
  mute := ⟨_, rfl, fun _ hd => List.mem_singleton.mp hd ▸ hmute⟩

theorem Within.lull {m₀ m m' : Moment γ} (h : Within O S m₀ m) (h' : Lull O m m') :
    Within O S m₀ m' :=
  ⟨h'.lawful, fun start hs => (h'.course start).trans (h.course start hs),
    h'.answers.trans h.answers⟩

theorem Within.of_deeds {m₀ m m' : Moment γ} (h : Within O S m₀ m) (hdeeds : m'.deeds = m.deeds) :
    Within O S m₀ m' := by
  obtain ⟨hlawful, hcourse, hanswers⟩ := h
  refine ⟨?_, ?_, ?_⟩
  all_goals
    rw [hdeeds]
    assumption

/-- A deed that is no answer moves its object on, if any. -/
theorem Within.snoc {m₀ m m' : Moment γ} {d : Deed} (h : Within O S m₀ m)
    (hlawful : Lawful O m'.deeds) (hdeeds : m'.deeds = m.deeds ++ [d])
    (hmark : ∀ start ms, d.mark? = some (start, ms) → S start) (hanswer : d.answer? = none) :
    Within O S m₀ m' := by
  refine ⟨hlawful, fun start hs => ?_, ?_⟩
  · rw [hdeeds, course_append, h.course start hs]
    cases hm : d.mark? with
    | none =>
      rw [course_of_unmarked fun x hx => List.mem_singleton.mp hx ▸ hm, List.append_nil]
    | some mark =>
      have hne : mark.1 ≠ start := fun heq => hs (heq ▸ hmark mark.1 mark.2 hm)
      rw [course_of_mark hm, if_neg hne, List.append_nil]
  · rw [hdeeds, List.filterMap_append, List.filterMap_cons_none hanswer, List.filterMap_nil,
      List.append_nil, h.answers]

theorem stage_turned (m : Moment γ) (start number : Nat) (t : GateTurn) :
    stage start (m.turned start number t).deeds = some t.milestone := stage_snoc rfl

theorem stage_noted {m : Moment γ} {desk : Desk γ} {e : JournalEntry} {start : Nat}
    {ms : Milestone} (h : (Deed.entry e).mark? = some (start, ms)) :
    stage start (m.noted desk [e]).deeds = some ms := stage_snoc h

/-- The gate of an object is turned. -/
theorem Within.turned {m₀ m : Moment γ} {e : Interval (Object γ)} {t : GateTurn}
    (h : Within O S m₀ m) (he : e ∈ O) (hS : S e.start) (hs : HandedOver m.deeds)
    (hfollows : Milestone.Follows (stage e.start m.deeds) t.milestone) :
    Within O S m₀ (m.turned e.start e.value.gate t) :=
  h.snoc (h.lawful.snoc_turn hs he hfollows) rfl (fun _ _ h => by cases h; exact hS) rfl

/-- An entry moves an object on. -/
theorem Within.marked {m₀ m : Moment γ} {desk : Desk γ} {e : JournalEntry} {start : Nat}
    {ms : Milestone} (h : Within O S m₀ m) (hmark : (Deed.entry e).mark? = some (start, ms))
    (hS : S start) (hs : HandedOver m.deeds) (hfollows : Milestone.Follows (stage start m.deeds) ms)
    (hhand : (Deed.entry e).isHandOver = false) (hanswer : (Deed.entry e).answer? = none) :
    Within O S m₀ (m.noted desk [e]) := by
  refine h.snoc (h.lawful.snoc_mark hs hmark hfollows hhand) rfl (fun start' ms' hm => ?_) hanswer
  rw [hmark] at hm
  cases hm
  exact hS

/-- The destructor of an object moves none on. -/
theorem Within.farewell {m₀ m : Moment γ} (h : Within O S m₀ m) (hs : HandedOver m.deeds)
    (o : Object γ) (desk : Desk γ) : Within O S m₀ (m.noted desk o.farewell) := by
  unfold Object.farewell
  split
  · refine h.snoc ?_ rfl (fun _ _ h => by cases h) rfl
    exact h.lawful.snoc_entry rfl (.other hs rfl)
  · exact h.of_deeds (List.append_nil _)

/-- Between two releases: what was read was handed over, and all objects on the books are
mapped. -/
structure Standing (O : List (Interval (Object γ))) (m : Moment γ) : Prop where
  sound : m.desk.objects.Sound
  known : ∀ e ∈ m.desk.objects.toList, e ∈ O
  lawful : Lawful O m.deeds
  handedOver : HandedOver m.deeds
  mapped : ∀ e ∈ m.desk.objects.toList, Mapped e.start m.deeds

theorem Standing.lull {m m' : Moment γ} (h : Standing O m) (h' : Lull O m m') : Standing O m' where
  sound := h'.objects ▸ h.sound
  known := h'.objects ▸ h.known
  lawful := h'.lawful
  handedOver := h'.handedOver
  mapped := fun e he => by
    have hmapped := h.mapped e (h'.objects ▸ he)
    unfold Mapped stage at hmapped ⊢
    rw [h'.course]
    exact hmapped

/-- What is done to let the accesses to an object go. -/
def Interval.lettingGo (e : Interval (Object γ)) : List Deed :=
  [.turn e.start e.value.gate .beginUnmap, .entry (.unregister e.start e.len (.ok ())),
    .turn e.start e.value.gate .retire]

/-- What is done when the registration is not taken back. -/
def Interval.refusal (e : Interval (Object γ)) (cause : PagerError) : List Deed :=
  [.turn e.start e.value.gate .beginUnmap, .entry (.unregister e.start e.len (.error cause)),
    .turn e.start e.value.gate .abortUnmap]

/-- What is done when the memory of an object is given back. -/
def Interval.givingBack (e : Interval (Object γ)) (result : Except PagerError Unit) : List Deed :=
  .entry (.release e.start e.len result) :: e.value.farewell.map .entry

theorem course_lettingGo (e : Interval (Object γ)) (start : Nat) :
    course start e.lettingGo = if e.start = start then [.begun, .letGo, .retired] else [] := by
  unfold Interval.lettingGo course
  by_cases h : e.start = start <;> simp [Deed.mark?, GateTurn.milestone, h]

theorem course_refusal (e : Interval (Object γ)) (cause : PagerError) (start : Nat) :
    course start (e.refusal cause) =
      if e.start = start then [.begun, .refused, .withdrawn] else [] := by
  unfold Interval.refusal course
  by_cases h : e.start = start <;> simp [Deed.mark?, GateTurn.milestone, h]

theorem course_givingBack (e : Interval (Object γ)) (result : Except PagerError Unit)
    (start : Nat) : course start (e.givingBack result) =
      if e.start = start then [.released] else [] := by
  unfold Interval.givingBack Object.farewell course
  by_cases h : e.start = start <;> split <;> simp [Deed.mark?, h]

theorem handedOver_givingBack (e : Interval (Object γ)) (result : Except PagerError Unit)
    (deeds : List Deed) : HandedOver (deeds ++ e.givingBack result) := by
  unfold Interval.givingBack Object.farewell
  split
  · exact handedOver_append rfl rfl
  · exact handedOver_append rfl rfl

/-- A release took an object through a whole try and off the books. -/
structure Gone (e : Interval (Object γ)) (m m' : Moment γ) : Prop where
  objects : m'.desk.objects.toList = m.desk.objects.toList.filter (·.start ≠ e.start)
  deeds : ∃ quiet result, (∀ d ∈ quiet, d.isMute) ∧
    m'.deeds = m.deeds ++ quiet ++ e.lettingGo ++ e.givingBack result

/-- A release was refused; the objects stay. -/
structure Declined (start : Nat) (m m' : Moment γ) : Prop where
  objects : m'.desk.objects = m.desk.objects
  deeds : ∃ quiet, (∀ d ∈ quiet, d.isMute) ∧ (m'.deeds = m.deeds ++ quiet ∨
    ∃ e ∈ m.desk.objects.toList, e.start = start ∧ ∃ cause,
      m'.deeds = m.deeds ++ quiet ++ e.refusal cause)

theorem Lull.declined {m m' : Moment γ} {start : Nat} (h : Lull O m m') : Declined start m m' := by
  obtain ⟨new, hnew, hmute⟩ := h.mute
  exact ⟨h.objects, new, hmute, .inl hnew⟩

theorem Gone.course {e : Interval (Object γ)} {m m' : Moment γ} (h : Gone e m m') (start : Nat) :
    course start m'.deeds = course start m.deeds ++
      if e.start = start then [.begun, .letGo, .retired, .released] else [] := by
  obtain ⟨quiet, result, hquiet, hdeeds⟩ := h.deeds
  rw [hdeeds, course_append, course_append, course_append, course_mute hquiet, course_lettingGo,
    course_givingBack]
  split <;> simp

/-- The other objects stand as before. -/
theorem Gone.standing {e : Interval (Object γ)} {m m' : Moment γ} (h : Gone e m m')
    (hm : Standing O m) (hlawful : Lawful O m'.deeds) (hsound : m'.desk.objects.Sound) :
    Standing O m' := by
  have hleft : ∀ x ∈ m'.desk.objects.toList, x ∈ m.desk.objects.toList ∧ e.start ≠ x.start := by
    intro x hx
    rw [h.objects, List.mem_filter] at hx
    exact ⟨hx.1, fun heq => of_decide_eq_true hx.2 heq.symm⟩
  refine ⟨hsound, fun x hx => hm.known x (hleft x hx).1, hlawful, ?_, fun x hx => ?_⟩
  · obtain ⟨quiet, result, -, hdeeds⟩ := h.deeds
    rw [hdeeds]
    exact handedOver_givingBack e result _
  · have hmapped := hm.mapped x (hleft x hx).1
    unfold Mapped stage at hmapped ⊢
    rw [h.course, if_neg (hleft x hx).2, List.append_nil]
    exact hmapped

theorem Declined.course {start : Nat} {m m' : Moment γ} (h : Declined start m m') (s : Nat) :
    course s m'.deeds = course s m.deeds ∨
      (∃ e ∈ m.desk.objects.toList, e.start = s) ∧ s = start ∧
        course s m'.deeds = course s m.deeds ++ [.begun, .refused, .withdrawn] := by
  obtain ⟨quiet, hquiet, hdeeds | ⟨e, he, rfl, cause, hdeeds⟩⟩ := h.deeds
  · rw [hdeeds, course_append, course_mute hquiet, List.append_nil]
    exact .inl rfl
  · rw [hdeeds, course_append, course_append, course_mute hquiet, List.append_nil, course_refusal]
    split
    · rename_i heq
      exact .inr ⟨⟨e, he, heq⟩, heq.symm, rfl⟩
    · rw [List.append_nil]
      exact .inl rfl

/-- All objects stand as before, or their release was withdrawn. -/
theorem Declined.standing {start : Nat} {m m' : Moment γ} (h : Declined start m m')
    (hm : Standing O m) (hlawful : Lawful O m'.deeds) (hs : HandedOver m'.deeds) :
    Standing O m' := by
  refine ⟨h.objects ▸ hm.sound, h.objects ▸ hm.known, hlawful, hs, fun x hx => ?_⟩
  rcases h.course x.start with heq | ⟨-, -, heq⟩
  · have hmapped := hm.mapped x (h.objects ▸ hx)
    unfold Mapped stage at hmapped ⊢
    rw [heq]
    exact hmapped
  · refine .inr ?_
    unfold stage
    rw [heq]
    simp

namespace Worker

variable [Paging π] {w : Worker π γ} {m₀ m : Moment γ}

/-! ### Handing chunks over -/

omit [Paging π] in
theorem locateChunk_eq_ok {e : Interval (Object γ)} {address : Nat} {chunk : FaultSite γ}
    (h : locateChunk e address = .ok chunk) : chunk.object = e.value ∧
      chunk.bodyStart = e.bodyStart ∧
      e.value.geometry.locate (address - e.bodyStart) = .ok (some chunk.span) := by
  unfold locateChunk at h
  obtain ⟨bodyStart, hbody, h⟩ := Checked.bind_eq_ok.mp h
  obtain ⟨offset, hoffset, h⟩ := Checked.bind_eq_ok.mp h
  obtain ⟨-, rfl⟩ := Word.add_eq_ok.mp hbody
  obtain ⟨-, rfl⟩ := Word.sub_eq_ok.mp hoffset
  obtain ⟨found, hfound, h⟩ := Checked.bind_eq_ok.mp h
  cases found with
  | none => cases h
  | some span =>
    cases h
    exact ⟨rfl, rfl, hfound⟩

/-- Whatever the size of the buffer, what was read is answered. -/
theorem spillResident_reads {address len : Nat} :
    Ends (spillResident address len) w
      (fun given w' => w'.objects = w.objects ∧ ∃ bytes,
        w'.journal = w.journal ++ [.readResident address len (.ok bytes)] ∧
          (bytes.length = len → given = bytes))
      (fun _ w' => w'.objects = w.objects ∧ (w'.journal = w.journal ∨
        ∃ cause, w'.journal = w.journal ++ [.readResident address len (.error cause)])) := by
  unfold spillResident
  simp only [ends_bind, ends_get, ends_checked, ends_modify]
  refine ⟨fun spill hspill => ?_, fun _ _ => ⟨trivial, .inl trivial⟩⟩
  refine ends_callPages fun result pages _ => ?_
  cases result with
  | error cause => exact ⟨rfl, .inr ⟨cause, rfl⟩⟩
  | ok bytes =>
    refine ⟨rfl, bytes, rfl, fun hlength => ?_⟩
    show (spill.write (bytes.take len)).take len = bytes
    rw [List.take_of_length_le (Nat.le_of_eq hlength), ← hlength]
    exact Buffer.take_write (hlength ▸ Buffer.le_size_of_growTo hspill)

/-- A chunk is read, or none that is wanted. -/
theorem snapshot_reads {address : Nat} :
    Ends (snapshot address) w
      (fun read w' => w'.objects = w.objects ∧ ((read = none ∧ w'.journal = w.journal) ∨
        ∃ e ∈ w.objects.toList, ∃ span bytes given,
          read = some (⟨e.value, e.bodyStart, span⟩, given) ∧ e.value.wantsWriteBack ∧
          e.value.geometry.locate span.offset = .ok (some span) ∧
          w'.journal = w.journal ++ [.readResident (e.bodyStart + span.offset)
            (span.count * e.value.geometry.stride) (.ok bytes)] ∧
          (bytes.length = span.count * e.value.geometry.stride → given = bytes)))
      (fun _ w' => w'.objects = w.objects ∧ (w'.journal = w.journal ∨
        ∃ start len cause,
          w'.journal = w.journal ++ [.readResident start len (.error cause)])) := by
  unfold snapshot
  simp only [ends_bind, ends_get]
  cases hfind : w.objects.find? address with
  | none => exact ⟨rfl, .inl rfl⟩
  | some e =>
    have he := IntervalMap.mem_of_find? hfind
    dsimp only
    rw [ends_ite]
    refine ⟨fun hwants => ?_, fun _ => ⟨rfl, .inl ⟨rfl, rfl⟩⟩⟩
    simp only [ends_bind, ends_checked, ends_ensure, ends_pure]
    refine ⟨fun chunk hchunk => ⟨fun hplace => ?_, fun _ => ⟨trivial, .inl trivial⟩⟩,
      fun _ _ => ⟨trivial, .inl trivial⟩⟩
    obtain ⟨object, bodyStart, span⟩ := chunk
    obtain ⟨rfl, rfl, hspan⟩ := locateChunk_eq_ok hchunk
    have haddress : address = e.bodyStart + span.offset := (beq_iff_eq.mp hplace).symm
    rw [haddress, Nat.add_sub_cancel_left] at hspan
    refine (spillResident_reads (w := w)).mono ?_ ?_
    · rintro given w' ⟨hobjects, bytes, hjournal, hgiven⟩
      rw [haddress] at hjournal
      exact ⟨hobjects, .inr ⟨e, he, span, bytes, given, rfl, hwants, hspan, hjournal, hgiven⟩⟩
    · rintro _ w' ⟨hobjects, hjournal | ⟨cause, hjournal⟩⟩
      · exact ⟨hobjects, .inl hjournal⟩
      · exact ⟨hobjects, .inr ⟨_, _, cause, hjournal⟩⟩

omit [Paging π] in
theorem deliver_hands {chunk : FaultSite γ} (hwants : chunk.object.wantsWriteBack)
    (bytes : Bytes) :
    Ends (deliver chunk bytes) w
      (fun _ w' => w'.objects = w.objects ∧ w'.journal = w.journal ++
        [.writeBack chunk.object.id chunk.span.first chunk.span.stop bytes])
      (fun _ w' => w'.objects = w.objects ∧ w'.journal = w.journal ++
        [.writeBack chunk.object.id chunk.span.first chunk.span.stop bytes]) := by
  obtain ⟨-, hook, hhook⟩ := Object.wantsWriteBack_iff.mp hwants
  unfold deliver handOver
  rw [hhook]
  simp only [ends_bind, ends_note, ends_get, ends_set, ends_ensure, ends_count]
  exact ⟨fun _ => ⟨trivial, trivial⟩, fun _ => ⟨trivial, trivial⟩⟩

/-- What is read of a chunk is handed over next. -/
theorem writeBackErrand_ensures {address : Nat} (hm : Within O S m₀ m) (hs : HandedOver m.deeds)
    (hobjects : ∀ e ∈ m.desk.objects.toList, e ∈ O) :
    (writeBackErrand address : Errand π γ Unit).Ensures (Within O S m₀)
      (fun _ m' => Lull O m m') (fun _ m' => Lull O m m') m := by
  unfold writeBackErrand
  rw [Errand.ensures_bind, Errand.ensures_lift]
  refine ⟨hm, fun s => (snapshot_reads (w := ⟨s, m.desk⟩)).mono ?_ ?_⟩
  · rintro read v ⟨hv, ⟨rfl, hjournal⟩ |
      ⟨e, he, span, bytes, given, rfl, hwants, hspan, hjournal, hgiven⟩⟩
    · exact ⟨[], by rw [hjournal, List.append_nil], .silent hm.lawful hs hv⟩
    · obtain ⟨entry, hentry⟩ : ∃ entry, entry = JournalEntry.readResident
          (e.bodyStart + span.offset) (span.count * e.value.geometry.stride) (.ok bytes) :=
        ⟨_, rfl⟩
      rw [← hentry] at hjournal
      refine ⟨[entry], hjournal, ?_⟩
      have hlawful : Lawful O (m.noted v.toDesk [entry]).deeds := by
        rw [hentry]
        exact hm.lawful.snoc_entry rfl (.other hs rfl)
      have hhanded : HandsOn O (m.noted v.toDesk [entry]).deeds.getLast?
          (.entry (.writeBack e.value.id span.first span.stop given)) := by
        rw [hentry]
        show HandsOn O (m.deeds ++ [_]).getLast? _
        rw [List.getLast?_concat]
        exact .handOver (hobjects e he) hspan hgiven
      refine Errand.ensures_lift.mpr ⟨?_, fun s' => ?_⟩
      · refine hm.snoc hlawful rfl (fun _ _ h => ?_) (hentry ▸ rfl)
        rw [hentry] at h
        cases h
      · refine (deliver_hands (w := ⟨s', v.toDesk⟩) hwants given).mono ?_ ?_
        all_goals
          rintro _ u ⟨hu, hjournal'⟩
          refine ⟨_, hjournal', hu.trans hv, hlawful.snoc_entry rfl hhanded,
            handedOver_snoc rfl, _, List.append_assoc .., ?_⟩
          rw [hentry]
          simp [Deed.isMute]
  · rintro f v ⟨hv, hjournal | ⟨start, len, cause, hjournal⟩⟩
    · exact ⟨[], by rw [hjournal, List.append_nil], .silent hm.lawful hs hv⟩
    · exact ⟨_, hjournal, .entry hm.lawful hs hv rfl rfl rfl⟩

/-- A chunk that is dropped may be entered as such. -/
theorem dropChunk_drops {record : ChunkRecord} :
    Ends (dropChunk record) w
      (fun _ w' => w'.objects = w.objects ∧ ∃ result,
        w'.journal = w.journal ++ [.discard record.address record.size result])
      (fun _ w' => w'.objects = w.objects ∧ (w'.journal = w.journal ∨ ∃ result,
        w'.journal = w.journal ++ [.discard record.address record.size result])) := by
  unfold dropChunk checkTotals
  simp only [ends_bind, ends_get, ends_checked, ends_modify]
  refine ⟨fun used _ => ?_, fun _ _ => ⟨trivial, .inl trivial⟩⟩
  refine ends_callPages fun result pages _ => ?_
  simp only [ends_settle, ends_ensure, ends_count]
  refine ⟨fun _ _ => ⟨fun _ _ => ⟨fun _ => ⟨fun _ => ?_, fun _ => ?_⟩, fun _ => ?_⟩, fun _ _ => ?_⟩,
    fun _ _ => ?_⟩
  · exact ⟨trivial, result, rfl⟩
  all_goals exact ⟨trivial, .inr ⟨result, rfl⟩⟩

/-- **An eviction is a lull.** -/
theorem evictErrand_ensures (hm : Within O S m₀ m) (hs : HandedOver m.deeds)
    (hobjects : ∀ e ∈ m.desk.objects.toList, e ∈ O) :
    (evictErrand : Errand π γ Unit).Ensures (Within O S m₀)
      (fun _ m' => Lull O m m') (fun _ m' => Lull O m m') m := by
  unfold evictErrand
  rw [Errand.ensures_bind, Errand.ensures_lift]
  refine ⟨hm, fun s => ?_⟩
  simp only [ends_bind, ends_get, ends_settle, ends_modify, ends_pure]
  refine ⟨fun popped _ => ⟨[], (List.append_nil _).symm, ?_⟩,
    fun _ _ => ⟨[], (List.append_nil _).symm, .silent hm.lawful hs rfl⟩⟩
  have hpop : Lull O m (m.noted { m.desk with ring := popped.2 } []) :=
    .silent hm.lawful hs rfl
  show ((if popped.1.isLive then _ else _ : Errand π γ Unit)).Ensures _ _ _
    (m.noted { m.desk with ring := popped.2 } [])
  split
  · rw [Errand.ensures_bind]
    refine (writeBackErrand_ensures (hm.lull hpop) hpop.handedOver hobjects).mono
      (fun _ h => h) (fun _ m₂ h₂ => ?_) fun _ _ h => hpop.trans h
    rw [Errand.ensures_lift]
    refine ⟨(hm.lull hpop).lull h₂, fun s => (dropChunk_drops (w := ⟨s, m₂.desk⟩)).mono ?_ ?_⟩
    · rintro _ v ⟨hv, result, hjournal⟩
      exact ⟨_, hjournal, (hpop.trans h₂).trans (.entry h₂.lawful h₂.handedOver hv rfl rfl rfl)⟩
    · rintro _ v ⟨hv, hjournal | ⟨result, hjournal⟩⟩
      · exact ⟨[], by rw [hjournal, List.append_nil],
          (hpop.trans h₂).trans (.silent h₂.lawful h₂.handedOver hv)⟩
      · exact ⟨_, hjournal, (hpop.trans h₂).trans (.entry h₂.lawful h₂.handedOver hv rfl rfl rfl)⟩
  · exact hpop

theorem writeBackAllErrand_ensures : ∀ (addresses : List Nat) (m : Moment γ),
    Within O S m₀ m → HandedOver m.deeds → (∀ e ∈ m.desk.objects.toList, e ∈ O) →
    (writeBackAllErrand addresses : Errand π γ Unit).Ensures (Within O S m₀)
      (fun _ m' => Lull O m m') (fun _ m' => Lull O m m') m
  | [], _, hm, hs, _ => .refl hm.lawful hs
  | address :: rest, m, hm, hs, hobjects => by
    unfold writeBackAllErrand
    rw [Errand.ensures_bind]
    refine (writeBackErrand_ensures hm hs hobjects).mono (fun _ h => h) (fun _ m' h => ?_)
      fun _ _ h => h
    exact (writeBackAllErrand_ensures rest m' (hm.lull h) h.handedOver (h.objects ▸ hobjects)).mono
      (fun _ h' => h') (fun _ _ h' => h.trans h') fun _ _ h' => h.trans h'

theorem handOverAllErrand_ensures (e : Interval (Object γ)) (hm : Within O S m₀ m)
    (hs : HandedOver m.deeds) (hobjects : ∀ e ∈ m.desk.objects.toList, e ∈ O) :
    (handOverAllErrand e : Errand π γ Unit).Ensures (Within O S m₀)
      (fun _ m' => Lull O m m') (fun _ m' => Lull O m m') m := by
  unfold handOverAllErrand
  split
  · rw [Errand.ensures_bind, Errand.ensures_lift]
    refine ⟨hm, fun s => ⟨[], (List.append_nil _).symm, ?_⟩⟩
    have hask : Lull O m (m.noted m.desk []) := .silent hm.lawful hs rfl
    exact (writeBackAllErrand_ensures _ _ (hm.lull hask) hask.handedOver hobjects).mono
      (fun _ h => h) (fun _ _ h => hask.trans h) fun _ _ h => hask.trans h
  · exact .refl hm.lawful hs

/-! ### Releasing -/

/-- The registration of an object is taken back and its gate is retired, or its release is
withdrawn. -/
theorem unmapErrand_ensures {e : Interval (Object γ)} (he : e ∈ O) (hS : S e.start)
    (hm : Within O S m₀ m) (hs : HandedOver m.deeds) (hmapped : Mapped e.start m.deeds) :
    (unmapErrand e : Errand π γ Unit).Ensures (Within O S m₀)
      (fun _ m' => Within O S m₀ m' ∧ m'.desk = m.desk ∧ m'.deeds = m.deeds ++ e.lettingGo)
      (fun f m' => Within O S m₀ m' ∧ ∃ cause, f = .error cause ∧ m'.desk = m.desk ∧
        m'.deeds = m.deeds ++ e.refusal cause) m := by
  have hbegun := hm.turned (t := .beginUnmap) he hS hs hmapped.follows
  have hstage := stage_turned m e.start e.value.gate .beginUnmap
  unfold unmapErrand
  rw [Errand.ensures_bind, Errand.ensures_gate]
  refine ⟨hm, ?_⟩
  rw [Errand.ensures_bind, Errand.ensures_lift]
  refine ⟨hbegun, fun s => ends_callPages fun result pages _ => ⟨_, rfl, ?_⟩⟩
  cases result with
  | ok =>
    have hgone : Within O S m₀ ((m.turned e.start e.value.gate .beginUnmap).noted m.desk
        [.unregister e.start e.len (.ok ())]) :=
      hbegun.marked rfl hS (handedOver_snoc rfl) (hstage ▸ .letGo) rfl rfl
    refine ⟨hgone, hgone.turned he hS (handedOver_snoc rfl) ?_, rfl, ?_⟩
    · rw [stage_noted rfl]
      exact .retire
    · simp [Interval.lettingGo]
  | error cause =>
    have hrefused : Within O S m₀ ((m.turned e.start e.value.gate .beginUnmap).noted m.desk
        [.unregister e.start e.len (.error cause)]) :=
      hbegun.marked rfl hS (handedOver_snoc rfl) (hstage ▸ .refuse) rfl rfl
    have hwithdrawn := hrefused.turned (t := .abortUnmap) he hS (handedOver_snoc rfl) (by
      rw [stage_noted rfl]
      exact .withdraw)
    refine ⟨hrefused, hwithdrawn, fun s => ⟨[], (List.append_nil _).symm, ?_, cause, rfl, rfl, ?_⟩⟩
    · exact hwithdrawn.of_deeds (List.append_nil _)
    · simp [Interval.refusal]

/-- What is read off a ring can only be too much. -/
theorem retireOwner_error {ring : Ring} {owner : Nat} {f : Failure}
    (h : (ring.retireOwner owner).1 = .error f) : ∃ breach, f = .abort breach := by
  have hall : ∀ (places : List Nat) (acc : Nat) (slots : Array (Option ChunkRecord)),
      (Ring.visitSlots (Ring.retireRecord owner) places acc slots).1 = .error f →
        ∃ breach, f = .abort breach := by
    intro places
    induction places with
    | nil => exact fun _ _ h => by cases h
    | cons p ps ih =>
      intro acc slots h
      unfold Ring.visitSlots at h
      split at h
      · exact ih _ _ h
      · rename_i record _
        cases hstep : Ring.retireRecord owner acc record with
        | ok next =>
          rw [hstep] at h
          exact ih _ _ h
        | error g =>
          rw [hstep] at h
          cases h
          unfold Ring.retireRecord at hstep
          split at hstep
          · rcases Checked.bind_eq_error.mp hstep with hstep | ⟨_, _, hstep⟩
            · exact ⟨_, Word.exact_eq_error hstep⟩
            · cases hstep
          · cases hstep
  exact hall _ _ _ h

omit [Paging π] in
/-- An object on the books goes off them, unless the step breaks off. -/
theorem strike_strikes {e : Interval (Object γ)} (hsound : w.objects.Sound)
    (he : e ∈ w.objects.toList) :
    Ends (strike e.value.id e.start) w
      (fun object w' => object = e.value ∧ w'.journal = w.journal ∧ w'.objects.Sound ∧
        w'.objects.toList = w.objects.toList.filter (·.start ≠ e.start))
      (fun f w' => (∃ breach, f = .abort breach) ∧ w'.journal = w.journal) := by
  obtain ⟨objects, hremove⟩ := IntervalMap.remove_of_mem hsound he
  unfold strike
  simp only [ends_bind, ends_get, hremove, ends_settle_ok, ends_modify, ends_set, ends_checked,
    ends_pure]
  refine ⟨fun released _ => ⟨fun used _ => ?_, fun f hf => ?_⟩, fun f hf => ?_⟩
  · exact ⟨trivial, trivial, IntervalMap.sound_remove hsound hremove,
      IntervalMap.toList_remove hremove⟩
  · unfold Word.sub at hf
    split at hf
    · cases hf
    · cases hf
      exact ⟨⟨_, rfl⟩, trivial⟩
  · exact ⟨retireOwner_error hf, trivial⟩

omit [Paging π] in
/-- The destructor of an object runs, and the totals may not agree. -/
theorem finish_checks (o : Object γ) :
    Ends (do finish o; count .free; checkTotals) w
      (fun _ w' => w'.objects = w.objects ∧ w'.journal = w.journal ++ o.farewell)
      (fun f w' => (∃ breach, f = .abort breach) ∧ w'.journal = w.journal ++ o.farewell) := by
  unfold checkTotals
  rw [ends_bind]
  apply finish_ends
  simp only [ends_bind, ends_count, ends_get, ends_checked, ends_ensure]
  refine ⟨fun _ _ => ⟨fun _ => ⟨fun _ => ?_, fun _ => ?_⟩, fun _ => ?_⟩, fun f hf => ?_⟩
  · exact ⟨trivial, trivial⟩
  · exact ⟨⟨_, rfl⟩, trivial⟩
  · exact ⟨⟨_, rfl⟩, trivial⟩
  · rw [Ring.liveBytes_eq] at hf
    exact ⟨⟨_, Word.exact_eq_error hf⟩, trivial⟩

theorem dischargeErrand_ensures {e : Interval (Object γ)} (hS : S e.start)
    (hm : Within O S m₀ m) (hs : HandedOver m.deeds) (hsound : m.desk.objects.Sound)
    (he : e ∈ m.desk.objects.toList) (hretired : stage e.start m.deeds = some .retired) :
    (dischargeErrand e : Errand π γ Unit).Ensures (Within O S m₀)
      (fun _ m' => Within O S m₀ m' ∧ m'.desk.objects.Sound ∧
        m'.desk.objects.toList = m.desk.objects.toList.filter (·.start ≠ e.start) ∧
        ∃ result, m'.deeds = m.deeds ++ e.givingBack result)
      (fun f m' => Within O S m₀ m' ∧ ∃ breach, f = .abort breach) m := by
  unfold dischargeErrand
  rw [Errand.ensures_bind, Errand.ensures_lift]
  refine ⟨hm, fun s => (strike_strikes (w := ⟨s, m.desk⟩) hsound he).mono ?_ ?_⟩
  · rintro _ v ⟨rfl, hjournal, hvsound, hobjects⟩
    refine ⟨[], by rw [hjournal, List.append_nil], ?_⟩
    set m₁ := m.noted v.toDesk []
    have hdeeds : m₁.deeds = m.deeds := List.append_nil _
    have hm₁ : Within O S m₀ m₁ := hm.of_deeds hdeeds
    refine ⟨hm₁, fun s => ends_callPages fun result pages _ => ⟨_, rfl, ?_⟩⟩
    set m₂ := m₁.noted v.toDesk [.release e.start e.len result]
    have hreleased : Within O S m₀ m₂ :=
      hm₁.marked rfl hS (hdeeds.symm ▸ hs) (by rw [hdeeds, hretired]; exact .release) rfl rfl
    have hfarewell : ∀ desk, Within O S m₀ (m₂.noted desk e.value.farewell) :=
      fun desk => hreleased.farewell (handedOver_snoc rfl) e.value desk
    refine ⟨hreleased, fun s => (finish_checks (w := ⟨s, m₂.desk⟩) e.value).mono ?_ ?_⟩
    · rintro _ u ⟨hu, hjournal'⟩
      refine ⟨_, hjournal', hfarewell u.toDesk, ?_, ?_, result, ?_⟩
      · show u.objects.Sound
        rw [hu]
        exact hvsound
      · show u.objects.toList = _
        rw [hu]
        exact hobjects
      · show m₁.deeds ++ [_] ++ _ = _
        rw [hdeeds, List.append_assoc]
        rfl
    · rintro f u ⟨hf, hjournal'⟩
      exact ⟨_, hjournal', hfarewell u.toDesk, hf⟩
  · rintro f v ⟨hf, hjournal⟩
    exact ⟨[], by rw [hjournal, List.append_nil], hm.of_deeds (List.append_nil _), hf⟩

/-! ### A release -/

omit [Paging π] in
theorem mem_of_objectAt {id start : Nat} {e : Interval (Object γ)}
    (h : w.objectAt id start = some e) :
    e ∈ w.objects.toList ∧ e.start = start ∧ e.value.id = id := by
  unfold objectAt at h
  obtain ⟨hfind, heq⟩ := Option.filter_eq_some_iff.mp h
  rw [Bool.and_eq_true, beq_iff_eq, beq_iff_eq] at heq
  exact ⟨IntervalMap.mem_of_find? hfind, heq⟩

/-- **A release takes its object through a whole try and off the books, or the object stays
mapped.** -/
theorem freeErrand_ensures {id start : Nat} (hS : S start) (hm : Within O S m₀ m)
    (hstanding : Standing O m) :
    (freeErrand id start : Errand π γ Unit).Ensures (Within O S m₀)
      (fun _ m' => Within O S m₀ m' ∧ Standing O m' ∧
        ∃ e ∈ m.desk.objects.toList, e.start = start ∧ e.value.id = id ∧ Gone e m m')
      (fun f m' => Within O S m₀ m' ∧
        ∀ cause, f = .error cause → Standing O m' ∧ Declined start m m') m := by
  have hs := hstanding.handedOver
  have hask : Lull O m (m.noted m.desk []) := .silent hm.lawful hs rfl
  unfold freeErrand
  rw [Errand.ensures_bind, Errand.ensures_lift]
  refine ⟨hm, fun s => ⟨[], (List.append_nil _).symm, ?_⟩⟩
  cases hat : Worker.objectAt ⟨s, m.desk⟩ id start with
  | none =>
    have hlull : Lull O m ((m.noted m.desk []).noted m.desk []) :=
      hask.trans (.silent hask.lawful hask.handedOver rfl)
    refine ⟨hm.lull hask, fun s => ⟨[], (List.append_nil _).symm, hm.lull hlull, ?_⟩⟩
    exact fun _ _ => ⟨hstanding.lull hlull, hlull.declined⟩
  | some e =>
    obtain ⟨he, rfl, rfl⟩ := mem_of_objectAt hat
    dsimp only
    rw [Errand.ensures_bind]
    refine (handOverAllErrand_ensures e (hm.lull hask) hask.handedOver hstanding.known).mono
      (fun _ h => h) (fun _ m₁ h₁ => ?_) fun _ m₁ h₁ => ?_
    · have hlull := hask.trans h₁
      have hstanding₁ := hstanding.lull hlull
      have he₁ : e ∈ m₁.desk.objects.toList := hlull.objects ▸ he
      rw [Errand.ensures_bind]
      refine (unmapErrand_ensures (hstanding.known e he) hS (hm.lull hlull) hlull.handedOver
        (hstanding₁.mapped e he₁)).mono (fun _ h => h) ?_ ?_
      · rintro _ m₂ ⟨hm₂, hdesk, hdeeds⟩
        have hretired : stage e.start m₂.deeds = some .retired := by
          rw [hdeeds]
          unfold stage
          rw [course_append, course_lettingGo, if_pos rfl]
          simp
        have hs₂ : HandedOver m₂.deeds := hdeeds ▸ handedOver_append rfl rfl
        refine (dischargeErrand_ensures hS hm₂ hs₂ (hdesk ▸ hstanding₁.sound) (hdesk ▸ he₁)
          hretired).mono (fun _ h => h) ?_ ?_
        · rintro _ m₃ ⟨hm₃, hsound, hobjects, result, hdeeds'⟩
          have hgone : Gone e m m₃ := by
            obtain ⟨quiet, hquiet, hmute⟩ := hlull.mute
            refine ⟨?_, quiet, result, hmute, ?_⟩
            · rw [hobjects, hdesk, hlull.objects]
            · rw [hdeeds', hdeeds, hquiet]
          exact ⟨hm₃, hgone.standing hstanding hm₃.lawful hsound, e, he, rfl, rfl, hgone⟩
        · rintro f m₃ ⟨hm₃, breach, rfl⟩
          exact ⟨hm₃, fun _ h => by cases h⟩
      · rintro f m₂ ⟨hm₂, cause, rfl, hdesk, hdeeds⟩
        have hdeclined : Declined e.start m m₂ := by
          obtain ⟨quiet, hquiet, hmute⟩ := hlull.mute
          refine ⟨by rw [hdesk, hlull.objects], quiet, hmute, .inr ⟨e, he, rfl, cause, ?_⟩⟩
          rw [hdeeds, hquiet]
        refine ⟨hm₂, fun _ _ => ⟨hdeclined.standing hstanding hm₂.lawful ?_, hdeclined⟩⟩
        exact hdeeds ▸ handedOver_append rfl rfl
    · have hlull := hask.trans h₁
      exact ⟨hm.lull hlull, fun _ _ => ⟨hstanding.lull hlull, hlull.declined⟩⟩

end Worker
end DemandPager
