/-
# What an errand does

The deeds of the worker are the entries of its journal and the turns of gates.
`Errand.Ensures inv post fail` follows an errand from a `Moment`, the books and the deeds
so far, to its end. Nobody but the worker changes the books, but the site may be anything
at all whenever a part begins. The predicate `inv` holds at every moment in between, `post`
at a success and `fail` at a failure.

The rules take an errand apart into its parts, as those of `Worker.Ends` do with a step.
What an errand ensures holds in particular when nobody comes in between
(`Errand.Ensures.ends`).

Key definitions: `Deed`, `Moment`, `Errand.Ensures`, `Errand.trace`.
Key theorems: `Errand.ensures_bind`, `Errand.ensures_attempt`, `Errand.Ensures.ends`.
-/
import DemandPager.Proofs.Ends
import DemandPager.Proofs.Errands

namespace DemandPager

variable {π γ α β : Type}

/-- A deed of the worker. -/
inductive Deed
  /-- An entry into the journal. -/
  | entry (entry : JournalEntry)
  /-- A turn of the gate of the object at `start`. -/
  | turn (start number : Nat) (turn : GateTurn)

/-- The entry that a deed is, unless it is a turn. -/
def Deed.entered? : Deed → Option JournalEntry
  | .entry e => some e
  | .turn .. => none

@[simp] theorem Deed.filterMap_entered? (es : List JournalEntry) :
    (es.map Deed.entry).filterMap Deed.entered? = es := by
  rw [List.filterMap_map]
  exact List.filterMap_some

/-- A moment between two parts: the books, and what was done so far. -/
structure Moment (γ : Type) where
  desk : Desk γ
  deeds : List Deed

/-- The moment after a part. -/
def Moment.noted (m : Moment γ) (desk : Desk γ) (es : List JournalEntry) : Moment γ :=
  ⟨desk, m.deeds ++ es.map .entry⟩

/-- The moment after a turn. -/
def Moment.turned (m : Moment γ) (start number : Nat) (t : GateTurn) : Moment γ :=
  ⟨m.desk, m.deeds ++ [.turn start number t]⟩

@[simp] theorem Moment.desk_noted (m : Moment γ) (desk : Desk γ) (es : List JournalEntry) :
    (m.noted desk es).desk = desk := rfl

@[simp] theorem Moment.deeds_noted (m : Moment γ) (desk : Desk γ) (es : List JournalEntry) :
    (m.noted desk es).deeds = m.deeds ++ es.map .entry := rfl

@[simp] theorem Moment.desk_turned (m : Moment γ) (start number : Nat) (t : GateTurn) :
    (m.turned start number t).desk = m.desk := rfl

@[simp] theorem Moment.deeds_turned (m : Moment γ) (start number : Nat) (t : GateTurn) :
    (m.turned start number t).deeds = m.deeds ++ [.turn start number t] := rfl

theorem Moment.noted_nil (m : Moment γ) (desk : Desk γ) : m.noted desk [] = ⟨desk, m.deeds⟩ := by
  rw [noted, List.map_nil, List.append_nil]

namespace Errand

open Worker (Ends)

/-! ### What holds from a moment on -/

/-- From a moment on, whatever the site is when a part begins: `inv` holds in between,
`post` at a success and `fail` at a failure. -/
def Ensures (inv : Moment γ → Prop) (post : α → Moment γ → Prop)
    (fail : Failure → Moment γ → Prop) : Errand π γ α → Moment γ → Prop
  | .ret a, m => post a m
  | .part step next, m => inv m ∧ ∀ s : Site π γ, Ends step ⟨s, m.desk⟩
      (fun b w => ∃ es, w.journal = s.journal ++ es ∧
        (next b).Ensures inv post fail (m.noted w.toDesk es))
      (fun f w => ∃ es, w.journal = s.journal ++ es ∧ fail f (m.noted w.toDesk es))
  | .turn start number t next, m => inv m ∧ next.Ensures inv post fail (m.turned start number t)

variable {inv inv' : Moment γ → Prop} {post post' : α → Moment γ → Prop}
  {fail fail' : Failure → Moment γ → Prop} {m : Moment γ}

theorem Ensures.mono {p : Errand π γ α} (h : p.Ensures inv post fail m)
    (hinv : ∀ m, inv m → inv' m) (hpost : ∀ a m, post a m → post' a m)
    (hfail : ∀ f m, fail f m → fail' f m) : p.Ensures inv' post' fail' m := by
  induction p generalizing m with
  | ret a => exact hpost a m h
  | part step next ih =>
    refine ⟨hinv m h.1, fun s => (h.2 s).mono ?_ ?_⟩
    · rintro b w ⟨es, hes, hnext⟩
      exact ⟨es, hes, ih b hnext⟩
    · rintro f w ⟨es, hes, hf⟩
      exact ⟨es, hes, hfail f _ hf⟩
  | turn start number t next ih => exact ⟨hinv m h.1, ih h.2⟩

/-- What holds in between and at the end holds now. -/
theorem Ensures.now {p : Errand π γ α} (h : p.Ensures inv post fail m)
    (hpost : ∀ a, post a m → inv m) : inv m := by
  cases p with
  | ret a => exact hpost a h
  | part step next => exact h.1
  | turn start number t next => exact h.1

@[simp] theorem ensures_pure {a : α} :
    (pure a : Errand π γ α).Ensures inv post fail m ↔ post a m := Iff.rfl

theorem ensures_lift {step : WorkerM π γ α} :
    (lift step).Ensures inv post fail m ↔ inv m ∧ ∀ s : Site π γ, Ends step ⟨s, m.desk⟩
      (fun a w => ∃ es, w.journal = s.journal ++ es ∧ post a (m.noted w.toDesk es))
      (fun f w => ∃ es, w.journal = s.journal ++ es ∧ fail f (m.noted w.toDesk es)) := Iff.rfl

theorem ensures_gate {start number : Nat} {t : GateTurn} {post : Unit → Moment γ → Prop} :
    (gate start number t : Errand π γ Unit).Ensures inv post fail m ↔
      inv m ∧ post () (m.turned start number t) := Iff.rfl

/-- **An errand put together ensures what its second half does after the first.** -/
theorem ensures_bind {p : Errand π γ α} {next : α → Errand π γ β}
    {post : β → Moment γ → Prop} :
    (p >>= next).Ensures inv post fail m ↔
      p.Ensures inv (fun a m => (next a).Ensures inv post fail m) fail m := by
  show (p.bind next).Ensures inv post fail m ↔ _
  induction p generalizing m with
  | ret a => rfl
  | part step rest ih => simp only [bind, Ensures, ih]
  | turn start number t rest ih => simp only [bind, Ensures, ih]

/-- A tried errand goes on after an error; only what breaks off fails. -/
theorem ensures_attempt {p : Errand π γ α} {post : Except PagerError α → Moment γ → Prop} :
    p.attempt.Ensures inv post fail m ↔
      p.Ensures inv (fun a m => post (.ok a) m) (fun f m =>
        (∀ cause, f = .error cause → post (.error cause) m) ∧
          ∀ breach, f = .abort breach → fail f m) m := by
  induction p generalizing m with
  | ret a => rfl
  | part step next ih =>
    simp only [attempt, Ensures, Worker.ends_attempt, ih]
    refine and_congr_right fun _ => forall_congr' fun s => ?_
    unfold Ends
    cases step ⟨s, m.desk⟩ with
    | ok b w => rfl
    | error f w => cases f <;> simp
  | turn start number t next ih => simp only [attempt, Ensures, ih]

/-! ### With nobody in between -/

/-- What is done when nobody comes in between. -/
def trace : Errand π γ α → Worker π γ → List Deed
  | .ret _, _ => []
  | .part step next, w =>
    match step w with
    | .ok b w' => (w'.journal.drop w.journal.length).map .entry ++ (next b).trace w'
    | .error _ w' => (w'.journal.drop w.journal.length).map .entry
  | .turn start number t next, w =>
    .turn start number t :: next.trace (w.onSite (·.modifyGate number t.apply))

/-- **What an errand ensures holds when nobody comes in between**, and the journal has the
entries that were made. -/
theorem Ensures.ends {p : Errand π γ α} (h : p.Ensures inv post fail m) {w : Worker π γ}
    (hw : w.toDesk = m.desk) :
    Ends p.run w
      (fun a w' => post a ⟨w'.toDesk, m.deeds ++ p.trace w⟩ ∧
        w'.journal = w.journal ++ (p.trace w).filterMap Deed.entered?)
      (fun f w' => fail f ⟨w'.toDesk, m.deeds ++ p.trace w⟩ ∧
        w'.journal = w.journal ++ (p.trace w).filterMap Deed.entered?) := by
  induction p generalizing m w with
  | ret a =>
    refine ⟨?_, (List.append_nil _).symm⟩
    rw [trace, List.append_nil]
    show post a ⟨w.toDesk, m.deeds⟩
    rw [hw]
    exact h
  | part step next ih =>
    have hstep := h.2 w.toSite
    rw [← hw] at hstep
    unfold Ends at hstep
    rw [run, Worker.ends_bind]
    unfold Ends
    cases hact : step w with
    | ok b v =>
      rw [show step ⟨w.toSite, w.toDesk⟩ = .ok b v from hact] at hstep
      obtain ⟨es, hes, hnext⟩ := hstep
      have htrace : (part step next).trace w = es.map .entry ++ (next b).trace v := by
        simp only [trace, hact, hes, List.drop_left]
      refine (ih b hnext rfl).mono ?_ ?_
      all_goals
        rintro _ w' ⟨hend, hjournal⟩
        rw [htrace, List.filterMap_append, Deed.filterMap_entered?, ← List.append_assoc,
          ← List.append_assoc, ← hes]
        exact ⟨hend, hjournal⟩
    | error f v =>
      rw [show step ⟨w.toSite, w.toDesk⟩ = .error f v from hact] at hstep
      obtain ⟨es, hes, hfail⟩ := hstep
      have htrace : (part step next).trace w = es.map .entry := by
        simp only [trace, hact, hes, List.drop_left]
      rw [htrace, Deed.filterMap_entered?]
      exact ⟨hfail, hes⟩
  | turn start number t next ih =>
    rw [run, Worker.ends_bind, Worker.ends_changeGate]
    have hnext := ih h.2 (w := w.onSite (·.modifyGate number t.apply)) hw
    refine hnext.mono ?_ ?_
    all_goals
      rintro _ w' ⟨hend, hjournal⟩
      rw [trace, List.append_cons]
      exact ⟨hend, hjournal⟩

end Errand

end DemandPager
