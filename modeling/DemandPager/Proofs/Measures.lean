/-
# Sizes that are words

A geometry is accepted only if its body and its reservation are words, so to measure them is always
exact. Two other numbers are made of a geometry later, and nothing has bounded them. The bytes of a
full chunk are the load count times the stride, whatever the number of elements, and the chunk of an
offset is found by that number; if it is no word, no chunk of the body can be found
(`Geometry.Overloaded`). The bytes of the largest chunk are those of at least one element in whole
pages, even if there is none; they can be no word only for a body without elements
(`Geometry.Overstretched`).

So a fault in the body of an object breaks off with an overflow exactly if the geometry is
overloaded, and the creation of an object exactly if it is overstretched (`Worker.overflow_exact`).

Key definitions: `Geometry.bodyWord`, `Geometry.sizeWord`, `Geometry.Overloaded`,
`Geometry.Overstretched`.
Key theorems: `Geometry.Regular.sizeWord_eq`, `Geometry.Regular.chunkBytes_cases`,
`Geometry.Regular.locate_cases`, `Worker.allocate_overflow`, `Worker.overflow_exact`.
-/
import DemandPager.Proofs.Outcomes
import DemandPager.Proofs.Tiling

namespace DemandPager

variable {π γ : Type}

namespace Geometry

/-- The bytes of the body, measured in words. -/
def bodyWord (g : Geometry) : Checked Nat := Word.mul g.count g.stride

/-- The bytes of the reservation, measured in words. -/
def sizeWord (g : Geometry) : Checked Nat := do
  Word.add g.paddedHeader (← Word.roundUp (← g.bodyWord) g.pageSize)

/-- The bytes of a full chunk are no word. -/
def Overloaded (g : Geometry) : Prop := wordBound ≤ g.loadCount * g.stride

/-- There are no elements, and the pages of one would be no word. -/
def Overstretched (g : Geometry) : Prop := g.count = 0 ∧ wordBound ≤ ceiling g.stride g.pageSize

namespace Regular

variable {g : Geometry}

/-- The body is measured exactly. -/
theorem bodyWord_eq (hg : g.Regular) : g.bodyWord = .ok g.bodyLen :=
  Word.mul_eq_ok.mpr ⟨hg.body_le.trans_lt hg.pagedBody_lt, rfl⟩

/-- The reservation is measured exactly. -/
theorem sizeWord_eq (hg : g.Regular) : g.sizeWord = .ok g.trueSize := by
  have hpaged : Word.roundUp g.bodyLen g.pageSize = .ok g.pagedBody :=
    Word.roundUp_eq_ok.mpr ⟨hg.page_pos, hg.pagedBody_lt, rfl⟩
  refine Checked.bind_eq_ok.mpr ⟨_, hg.bodyWord_eq, Checked.bind_eq_ok.mpr ⟨_, hpaged, ?_⟩⟩
  exact Word.add_eq_ok.mpr ⟨hg.size_lt, rfl⟩

/-- The largest chunk is measured unless the geometry is overstretched. -/
theorem chunkBytes_cases (hg : g.Regular) :
    (g.Overstretched → g.chunkBytes = .error (.abort .overflow)) ∧
      (¬g.Overstretched → ∃ most, g.chunkBytes = .ok most) := by
  by_cases hcount : g.count = 0
  · -- A body without elements is measured as if it had one.
    have hone : min g.loadCount (max g.count 1) = 1 := by
      have := hg.load_pos
      omega
    have hbytes : g.chunkBytes = Word.exact (ceiling g.stride g.pageSize) := by
      rw [chunkBytes_eq hg, hone, Nat.one_mul]
    refine ⟨fun h => hbytes.trans (if_neg (Nat.not_lt.mpr h.2)), fun h => ?_⟩
    have hlt : ceiling g.stride g.pageSize < wordBound := Nat.not_le.mp fun hle => h ⟨hcount, hle⟩
    exact ⟨_, hbytes.trans (if_pos hlt)⟩
  · exact ⟨fun h => absurd h.1 hcount, fun _ => hg.chunkBytes_ok (Nat.pos_of_ne_zero hcount)⟩

/-- At every offset it is told whether there is a chunk, unless the geometry is overloaded. -/
theorem locate_cases (hg : g.Regular) (offset : Nat) :
    (g.Overloaded → g.locate offset = .error (.abort .overflow)) ∧
      (¬g.Overloaded →
        ∃ found, g.locate offset = .ok found ∧ (offset < g.pagedBody → found.isSome)) := by
  rw [locate_eq hg]
  refine ⟨fun h => if_pos h, fun h => ?_⟩
  rw [if_neg (show ¬wordBound ≤ g.loadCount * g.stride from h)]
  by_cases hk : g.HasChunk (offset / (g.loadCount * g.stride))
  · exact ⟨_, if_pos hk, fun _ => rfl⟩
  · exact ⟨none, if_neg hk, fun hlt => absurd (hg.hasChunk_of_lt hlt) hk⟩

end Regular
end Geometry

namespace Worker

variable [Paging π] {w : Worker π γ} {o : Object γ} {e : Interval (Object γ)} {address : Nat}

/-! ### Creating objects -/

/-- An object of an overstretched geometry is not created, and nothing is changed. -/
theorem allocate_overstretched (hg : o.geometry.Regular) (h : o.geometry.Overstretched)
    (hpage : o.geometry.pageSize = Paging.pageSize w.pages) :
    allocate o w = .error (.abort .overflow) w := by
  show ((if o.geometry.pageSize ≠ Paging.pageSize w.pages then _ else _ : WorkerM π γ Unit) >>=
    _ : WorkerM π γ Nat) w = _
  rw [if_neg (not_not.mpr hpage), hg.chunkBytes_cases.1 h]
  rfl

/-- **To create an object breaks off with an overflow only if its geometry is overstretched.** -/
theorem allocate_overflow (hg : o.geometry.Regular) :
    Ends (allocate o) w (fun _ _ => True)
      fun f _ => f = .abort .overflow → o.geometry.Overstretched := by
  have hpermit : Ends (permitObject o) w (fun _ _ => True) fun f _ =>
      f = .abort .overflow → o.geometry.Overstretched := by
    unfold permitObject
    simp only [ends_bind, ends_get, ends_ite, ends_refuse, ends_checked]
    refine ⟨fun _ hf => (by cases hf), fun _ => ⟨fun _ _ => ⟨fun _ hf => (by cases hf), ?_⟩, ?_⟩⟩
    · exact fun _ => trivial
    · intro f hf _
      by_contra hfits
      obtain ⟨most, hmost⟩ := hg.chunkBytes_cases.2 hfits
      rw [hmost] at hf
      cases hf
  -- Only the permission measures the geometry. What comes later fails for the memory or the index.
  unfold allocate
  rw [ends_bind]
  refine hpermit.mono (fun _ v _ => ?_) fun _ _ h => h
  rw [ends_bind]
  refine ends_callBreakable (fun result pages _ => ?_) fun _ hf => by cases hf
  simp only [ends_bind, ends_settle]
  refine ⟨fun start _ => ?_, fun _ _ hf => by cases hf⟩
  refine registerOrRelease_ends.mono (fun _ u _ => ?_) ?_
  · refine zeroHeader_ends.mono (fun _ t _ => ?_) ?_
    · refine recordObject_ends.mono (fun _ _ _ => trivial) ?_
      rintro _ _ ⟨_, _, _, _, _, rfl, -⟩ hf
      cases hf
    · rintro _ _ (rfl | ⟨_, _, _, _, _, _, rfl, -⟩) hf
      · cases hf
      · cases hf
  · rintro _ _ ⟨_, _, _, _, rfl, -⟩ hf
    cases hf

/-! ### Faults -/

/-- A fault in the body of an object of an overloaded geometry is counted, and then it breaks off.
-/
theorem handleFault_overloaded (hw : w.toDesk.Filed) (he : e ∈ w.objects.toList)
    (hbody : e.InBody address) (h : e.value.geometry.Overloaded) :
    handleFault address w = .error (.abort .overflow) (faulted w) := by
  have hsite : locateFault w.objects address = .error (.abort .overflow) := by
    unfold locateFault
    simp only [(IntervalMap.find?_eq_some hw.objects).mpr ⟨he, hbody.holds (hw.len e he)⟩,
      hw.bodyStart_eq he]
    refine Checked.bind_eq_error.mpr (.inr ⟨_, rfl, ?_⟩)
    rw [if_neg (Nat.not_lt.mpr hbody.1), ((hw.regular he).locate_cases _).1 h]
    rfl
  show (checked (locateFault w.objects address) >>= _ : WorkerM π γ Unit) (faulted w) = _
  rw [hsite]
  rfl

/-- A fault in the body of another object does not break off with an overflow, as long as twice the
budget is a word. -/
theorem handleFault_searchable (h : Reachable w) (hhigh : w.limits.high < 2 ^ 63)
    (he : e ∈ w.objects.toList) (hbody : e.InBody address) (hfull : ¬e.value.geometry.Overloaded)
    (w' : Worker π γ) : handleFault address w ≠ .error (.abort .overflow) w' := by
  intro herr
  -- A fault that ends badly is excused by its surroundings, and no excuse is an overflow.
  rcases (fault_excused h hhigh address).1 e he hbody (Nat.not_le.mp hfull) |>.1 with
    ⟨v, hok⟩ | ⟨f, v, hfail, hexcused⟩
  · rw [hok] at herr
    cases herr
  · rw [hfail] at herr
    cases herr
    cases hexcused with
    | hindered h => cases h

/-- **Where the arithmetic of a geometry leaves the words.** To measure the body and the
reservation is always exact. The largest chunk has a size unless there are no elements and the
pages of one would be no word. At every offset it is told whether there is a chunk, and there is
one below the body in whole pages, unless the bytes of a full chunk are no word; then it is told
nowhere.

So an object for the pages of the memory is not created for an overflow exactly in the first case.
In every state that is reached, a fault in the body of an object breaks off with an overflow exactly
in the second. -/
theorem overflow_exact {g : Geometry} (hg : g.Built) :
    g.bodyWord = .ok g.bodyLen ∧ g.sizeWord = .ok g.trueSize ∧
      (g.Overstretched → g.chunkBytes = .error (.abort .overflow)) ∧
      (¬g.Overstretched → ∃ most, g.chunkBytes = .ok most) ∧
      (∀ offset, (g.Overloaded → g.locate offset = .error (.abort .overflow)) ∧
        (¬g.Overloaded →
          ∃ found, g.locate offset = .ok found ∧ (offset < g.pagedBody → found.isSome))) ∧
      (∀ (w : Worker π γ) (o : Object γ), o.geometry = g → g.pageSize = Paging.pageSize w.pages →
        ((∃ w', allocate o w = .error (.abort .overflow) w') ↔ g.Overstretched)) ∧
      ∀ w : Worker π γ, Reachable w → w.limits.high < 2 ^ 63 →
        ∀ e ∈ w.objects.toList, e.value.geometry = g → ∀ address, e.InBody address →
          ((∃ w', handleFault address w = .error (.abort .overflow) w') ↔ g.Overloaded) := by
  have hr := hg.regular
  refine ⟨hr.bodyWord_eq, hr.sizeWord_eq, hr.chunkBytes_cases.1, hr.chunkBytes_cases.2,
    hr.locate_cases, ?_, ?_⟩
  · rintro w o rfl hpage
    constructor
    · rintro ⟨w', hfail⟩
      exact (allocate_overflow hr).of_error hfail rfl
    · exact fun h => ⟨w, allocate_overstretched hr h hpage⟩
  · rintro w hw hhigh e he rfl address hbody
    constructor
    · rintro ⟨w', hfail⟩
      by_contra hfull
      exact handleFault_searchable hw hhigh he hbody hfull w' hfail
    · exact fun h => ⟨_, handleFault_overloaded hw.inOrder.filed he hbody h⟩

/-- An object of two elements, which asks for two to the power of sixty of them at a time. -/
def sampleGreedy : Object Unit where
  id := 1
  geometry := .ofSizes 16 0 2 16 (some (2 ^ 60))
  callbacks := { populate := fun _ _ target client => (.filled, target, client) }
  gate := 0

theorem sampleGreedy_built : sampleGreedy.geometry.Built :=
  ⟨16, 0, 2, 16, some (2 ^ 60), _, false, rfl, rfl⟩

/-- The object is created within a budget of two pages, and the first fault in it breaks off. The
largest chunk of a header without elements has no size if an element has nearly as many bytes as
there are words. -/
theorem overflow_exact_sample :
    (Geometry.ofSizes 4096 16 0 18446744073709551615 (some 1)).chunkBytes =
        .error (.abort .overflow) ∧
      Reachable (after (allocate sampleGreedy) sampleStart) ∧
      sampleGreedy.geometry.chunkBytes = .ok 32 ∧
      sampleGreedy.geometry.locate 0 = .error (.abort .overflow) ∧
      (∃ e ∈ (after (allocate sampleGreedy) sampleStart).objects.toList,
        e.value.geometry = sampleGreedy.geometry ∧ e.InBody 0x10000000) ∧
      ∃ w', handleFault 0x10000000 (after (allocate sampleGreedy) sampleStart) =
        .error (.abort .overflow) w' := by
  have hvast : (Geometry.ofSizes 4096 16 0 18446744073709551615 (some 1)).Built :=
    ⟨4096, 16, 0, 18446744073709551615, some 1, _, false, rfl, rfl⟩
  have hstretched :
      (Geometry.ofSizes 4096 16 0 18446744073709551615 (some 1)).Overstretched := ⟨rfl, by decide⟩
  have hending : ending (allocate sampleGreedy) sampleStart = none := by decide +kernel
  have hreached : Reachable (after (allocate sampleGreedy) sampleStart) :=
    .allocate sampleStart_reachable sampleGreedy_built (.inl (eq_ok_of_ending hending))
  have hobjects : ((after (allocate sampleGreedy) sampleStart).objects.toList.map fun e =>
      (e.start, e.value.geometry)) = [(0x10000000, sampleGreedy.geometry)] := by decide +kernel
  have hhigh : (after (allocate sampleGreedy) sampleStart).limits.high < 2 ^ 63 := by
    decide +kernel
  have hfull : sampleGreedy.geometry.Overloaded := by
    unfold Geometry.Overloaded
    decide
  generalize after (allocate sampleGreedy) sampleStart = w at hreached hobjects hhigh ⊢
  obtain ⟨e, he, hfields⟩ := List.map_eq_singleton_iff.mp hobjects
  obtain ⟨hstart, hgeometry⟩ := Prod.mk.inj hfields
  have hmem : e ∈ w.objects.toList := he ▸ List.mem_singleton_self e
  have hbody : e.InBody 0x10000000 := by
    unfold Interval.InBody Interval.bodyStart
    rw [hstart, hgeometry]
    decide
  obtain ⟨-, -, hlargest, -⟩ := overflow_exact (π := ScriptedMemory) (γ := Unit) hvast
  obtain ⟨-, -, -, -, hlocate, -, hfault⟩ :=
    overflow_exact (π := ScriptedMemory) (γ := Unit) sampleGreedy_built
  exact ⟨hlargest hstretched, hreached, by decide, (hlocate 0).1 hfull, ⟨e, hmem, hgeometry, hbody⟩,
    (hfault w hreached hhigh e hmem hgeometry 0x10000000 hbody).mpr hfull⟩

end Worker
end DemandPager
