/-
# How a step of the worker ends

A step succeeds with an answer or ends in a failure, and reaches a state either
way. `Worker.Ends act w post fail` says of the step `act`, begun in `w`, that a
success satisfies `post` and a failure satisfies `fail`, each with the state that
was reached. The rules below take a step apart into its parts: one rule for each
way in which steps are put together (`ends_bind`, `ends_ite`, ...), and one for
each small step (`ends_note`, `ends_checked`, ...). What a larger step does is then
stated once, by an `Ends` of its own, and used through `Ends.mono`.

A relation that every worker has to itself, and that can be chained, holds across a step
if it holds across its parts (`Worker.Leads`); then it does not matter how the step ends.

Each call of the memory has an entry of the journal, with its result. What the entries tell
of, one after the other, leads from one memory to another (`Replays`).

Key definitions: `Worker.Ends`, `Worker.Returns`, `Worker.Called`, `Worker.Leads`,
`JournalEntry.Effect`, `Replays`.
Key theorems: `Worker.ends_bind`, `Worker.Ends.mono`, `Worker.ends_attempt`,
`Worker.leads_bind`.
-/
import Mathlib.Order.Defs.Unbundled
import DemandPager.Worker.Control

namespace DemandPager
namespace Worker

variable {π γ α β : Type}

/-- A success of the step satisfies `post`, a failure satisfies `fail`. -/
def Ends (act : WorkerM π γ α) (w : Worker π γ) (post : α → Worker π γ → Prop)
    (fail : Failure → Worker π γ → Prop) : Prop :=
  match act w with
  | .ok a w' => post a w'
  | .error f w' => fail f w'

/-- The step comes back, with an answer or with an error, and reaches a state. One
that breaks off does not come back. -/
def Returns (act : WorkerM π γ α) (w w' : Worker π γ) : Prop :=
  (∃ a, act w = .ok a w') ∨ ∃ cause, act w = .error (.error cause) w'

variable {w w' : Worker π γ} {post post' : α → Worker π γ → Prop}
  {fail fail' : Failure → Worker π γ → Prop}

/-- The state that a step reaches. -/
def after (act : WorkerM π γ α) (w : Worker π γ) : Worker π γ :=
  match act w with
  | .ok _ w' | .error _ w' => w'

/-- The failure that a step ends in, if it does. -/
def ending (act : WorkerM π γ α) (w : Worker π γ) : Option Failure :=
  match act w with
  | .ok _ _ => none
  | .error f _ => some f

theorem eq_ok_of_ending {act : WorkerM π γ α} {w : Worker π γ} (h : ending act w = none) :
    ∃ a, act w = .ok a (after act w) := by
  unfold ending at h
  unfold after
  cases hact : act w with
  | ok a w' => exact ⟨a, rfl⟩
  | error f w' => rw [hact] at h; cases h

theorem eq_error_of_ending {act : WorkerM π γ α} {w : Worker π γ} {f : Failure}
    (h : ending act w = some f) : act w = .error f (after act w) := by
  unfold ending at h
  unfold after
  cases hact : act w with
  | ok a w' => rw [hact] at h; cases h
  | error g w' => rw [hact] at h; cases h; rfl

theorem Ends.of_ok {act : WorkerM π γ α} {a : α} (h : Ends act w post fail)
    (hok : act w = .ok a w') : post a w' := by
  unfold Ends at h
  rw [hok] at h
  exact h

theorem Ends.of_error {act : WorkerM π γ α} {f : Failure} (h : Ends act w post fail)
    (herr : act w = .error f w') : fail f w' := by
  unfold Ends at h
  rw [herr] at h
  exact h

theorem Ends.of_returns {act : WorkerM π γ α} {P : Worker π γ → Prop}
    (h : Ends act w (fun _ => P) fun f v => ∀ cause, f = .error cause → P v)
    (hr : Returns act w w') : P w' := by
  rcases hr with ⟨a, ha⟩ | ⟨cause, hc⟩
  · exact h.of_ok ha
  · exact h.of_error hc cause rfl

/-- A step that is known to succeed. -/
theorem ends_of_ok {act : WorkerM π γ α} {a : α} (hact : act w = .ok a w') (hpost : post a w') :
    Ends act w post fail := by
  unfold Ends
  rw [hact]
  exact hpost

/-- A step that does what another does ends as that does. -/
theorem Ends.of_run_eq {act act' : WorkerM π γ α} (h : Ends act' w' post fail)
    (hact : act w = act' w') : Ends act w post fail := by
  unfold Ends at h ⊢
  rw [hact]
  exact h

theorem Ends.mono {act : WorkerM π γ α} (h : Ends act w post fail)
    (hpost : ∀ a v, post a v → post' a v) (hfail : ∀ f v, fail f v → fail' f v) :
    Ends act w post' fail' := by
  unfold Ends at h ⊢
  cases hact : act w with
  | ok a v => rw [hact] at h; exact hpost a v h
  | error f v => rw [hact] at h; exact hfail f v h

/-- How a step ends, together with the equation that says so. -/
theorem Ends.exactly {act : WorkerM π γ α} (h : Ends act w post fail) :
    Ends act w (fun a v => act w = .ok a v ∧ post a v)
      fun f v => act w = .error f v ∧ fail f v := by
  unfold Ends at h ⊢
  cases hact : act w with
  | ok a v => rw [hact] at h; exact ⟨rfl, h⟩
  | error f v => rw [hact] at h; exact ⟨rfl, h⟩

theorem Ends.and {act : WorkerM π γ α} (h : Ends act w post fail) (h' : Ends act w post' fail') :
    Ends act w (fun a v => post a v ∧ post' a v) fun f v => fail f v ∧ fail' f v := by
  unfold Ends at h h' ⊢
  cases hact : act w with
  | ok a v => rw [hact] at h h'; exact ⟨h, h'⟩
  | error f v => rw [hact] at h h'; exact ⟨h, h'⟩

/-! ### Steps put together -/

@[simp] theorem ends_bind {act : WorkerM π γ α} {next : α → WorkerM π γ β}
    {post : β → Worker π γ → Prop} :
    Ends (act >>= next) w post fail ↔
      Ends act w (fun a v => Ends (next a) v post fail) fail := by
  show (match EStateM.bind act next w with
    | .ok b v => post b v
    | .error f v => fail f v) ↔ _
  unfold Ends EStateM.bind
  cases act w <;> rfl

@[simp] theorem ends_pure {a : α} : Ends (pure a) w post fail ↔ post a w := Iff.rfl

@[simp] theorem ends_throw {f : Failure} :
    Ends (throw f : WorkerM π γ α) w post fail ↔ fail f w := Iff.rfl

@[simp] theorem ends_refuse {cause : PagerError} :
    Ends (refuse cause : WorkerM π γ α) w post fail ↔ fail (.error cause) w := Iff.rfl

@[simp] theorem ends_get {post : Worker π γ → Worker π γ → Prop} :
    Ends get w post fail ↔ post w w := Iff.rfl

@[simp] theorem ends_set {v : Worker π γ} {post : PUnit → Worker π γ → Prop} :
    Ends (set v) w post fail ↔ post ⟨⟩ v := Iff.rfl

@[simp] theorem ends_modify {f : Worker π γ → Worker π γ} {post : PUnit → Worker π γ → Prop} :
    Ends (modify f) w post fail ↔ post ⟨⟩ (f w) := Iff.rfl

theorem ends_ite {c : Prop} [Decidable c] {yes no : WorkerM π γ α} :
    Ends (if c then yes else no) w post fail ↔
      (c → Ends yes w post fail) ∧ (¬c → Ends no w post fail) := by
  by_cases h : c <;> simp [h]

@[simp] theorem ends_checked {result : Checked α} :
    Ends (checked result) w post fail ↔
      (∀ a, result = .ok a → post a w) ∧ ∀ f, result = .error f → fail f w := by
  cases result with
  | ok a => simp [checked]
  | error f => simp [checked]

/-- A computation that succeeds goes on with its value. -/
theorem ends_checked_ok {a : α} : Ends (checked (.ok a)) w post fail ↔ post a w := Iff.rfl

@[simp] theorem ends_settle {result : Except PagerError α} :
    Ends (settle result) w post fail ↔
      (∀ a, result = .ok a → post a w) ∧
        ∀ cause, result = .error cause → fail (.error cause) w := by
  cases result with
  | ok a => simp [settle]
  | error cause => simp [settle]

theorem ends_settle_ok {a : α} : Ends (settle (.ok a)) w post fail ↔ post a w := Iff.rfl

theorem ends_settle_error {cause : PagerError} {fail : Failure → Worker π γ → Prop} :
    Ends (settle (.error cause : Except PagerError α)) w post fail ↔
      fail (.error cause) w := Iff.rfl

@[simp] theorem ends_ensure {holds : Bool} {breach : Breach} {post : PUnit → Worker π γ → Prop} :
    Ends (ensure holds breach) w post fail ↔
      (holds = true → post ⟨⟩ w) ∧ (holds = false → fail (.abort breach) w) := by
  cases holds <;> simp [ensure]

/-- A tried step ends with the answer of the step or with its error; only what breaks
off goes on. -/
theorem ends_attempt {act : WorkerM π γ α} {post : Except PagerError α → Worker π γ → Prop} :
    Ends (attempt act) w post fail ↔
      Ends act w (fun a v => post (.ok a) v) fun f v =>
        (∀ cause, f = .error cause → post (.error cause) v) ∧
          ∀ breach, f = .abort breach → fail f v := by
  unfold Ends attempt
  cases act w with
  | ok a v => rfl
  | error f v => cases f <;> simp

/-- A tried step fails only if it breaks off. -/
theorem abort_of_attempt {act : WorkerM π γ α} {f : Failure} (h : attempt act w = .error f w') :
    ∃ breach, f = .abort breach := by
  unfold attempt at h
  cases hact : act w with
  | ok a v => rw [hact] at h; cases h
  | error g v =>
    rw [hact] at h
    cases g with
    | error cause => cases h
    | abort breach => cases h; exact ⟨breach, rfl⟩

/-! ### Small steps -/

@[simp] theorem ends_note {entry : JournalEntry} {post : PUnit → Worker π γ → Prop} :
    Ends (note entry) w post fail ↔
      post ⟨⟩ { w with journal := w.journal ++ [entry] } := Iff.rfl

@[simp] theorem ends_count {event : WorkEvent} {post : PUnit → Worker π γ → Prop} :
    Ends (count event) w post fail ↔
      post ⟨⟩ { w with exchange := { w.exchange with
        stats := w.exchange.stats.record event } } := Iff.rfl

@[simp] theorem ends_changeGate {number : Nat} {f : Gate → Gate}
    {post : PUnit → Worker π γ → Prop} :
    Ends (changeGate number f) w post fail ↔
      post ⟨⟩ { w with gates := w.gates.modify number f } := Iff.rfl

@[simp] theorem ends_reply {ticket : Nat} {answer : Answer} {post : PUnit → Worker π γ → Prop} :
    Ends (reply ticket answer) w post fail ↔
      post ⟨⟩ { w with
        journal := w.journal ++ [.answer ticket answer]
        exchange := w.exchange.finish ticket answer } := Iff.rfl

/-- The call answers `result` and leaves the memory as `pages'`. -/
def Called (call : EStateM PagerError π α) (pages : π) (result : Except PagerError α)
    (pages' : π) : Prop :=
  match call pages with
  | .ok a after => result = .ok a ∧ pages' = after
  | .error cause after => result = .error cause ∧ pages' = after

/-- A call has one answer. -/
theorem Called.unique {call : EStateM PagerError π α} {pages after after' : π}
    {result result' : Except PagerError α} (h : Called call pages result after)
    (h' : Called call pages result' after') : result = result' ∧ after = after' := by
  unfold Called at h h'
  cases hcall : call pages with
  | ok a v =>
    rw [hcall] at h h'
    exact ⟨h.1.trans h'.1.symm, h.2.trans h'.2.symm⟩
  | error cause v =>
    rw [hcall] at h h'
    exact ⟨h.1.trans h'.1.symm, h.2.trans h'.2.symm⟩

/-- The call, which can break off, does not, answers `result` and leaves the memory as
`pages'`. -/
def CalledBreakable (call : EStateM Failure π α) (pages : π) (result : Except PagerError α)
    (pages' : π) : Prop :=
  match call pages with
  | .ok a after => result = .ok a ∧ pages' = after
  | .error (.error cause) after => result = .error cause ∧ pages' = after
  | .error (.abort _) _ => False

/-- A call of the memory is entered with its result, whatever the result. -/
theorem ends_callPages {call : EStateM PagerError π α} {entry : Except PagerError α → JournalEntry}
    {post : Except PagerError α → Worker π γ → Prop}
    (h : ∀ result pages, Called call w.pages result pages →
      post result { w with pages, journal := w.journal ++ [entry result] }) :
    Ends (callPages call entry) w post fail := by
  have hcalled : ∀ result pages, (match call w.pages with
      | .ok a after => (.ok a, after)
      | .error cause after => (.error cause, after)) = (result, pages) →
      Called call w.pages result pages := by
    intro result pages heq
    unfold Called
    cases hcall : call w.pages with
    | ok a after => rw [hcall] at heq; cases heq; exact ⟨rfl, rfl⟩
    | error cause after => rw [hcall] at heq; cases heq; exact ⟨rfl, rfl⟩
  show post _ _
  exact h _ _ (hcalled _ _ rfl)

/-- A call that can break off: then the worker has no answer to go on with. -/
theorem ends_callBreakable {call : EStateM Failure π α}
    {entry : Except PagerError α → JournalEntry}
    {post : Except PagerError α → Worker π γ → Prop}
    (h : ∀ result pages, CalledBreakable call w.pages result pages →
      post result { w with pages, journal := w.journal ++ [entry result] })
    (hbreak : ∀ pages, fail (.abort .memory) { w with
        pages
        journal := w.journal ++ [entry (.error .workerPanicked)] }) :
    Ends (callBreakable call entry) w post fail := by
  unfold CalledBreakable at h
  unfold Ends callBreakable
  cases hcall : call w.pages with
  | ok a pages =>
    rw [hcall] at h
    exact h (.ok a) pages ⟨rfl, rfl⟩
  | error f pages =>
    cases f with
    | error cause =>
      rw [hcall] at h
      exact h (.error cause) pages ⟨rfl, rfl⟩
    | abort breach => exact hbreak pages

/-! ### Relations across a step -/

/-- The step leads from `w` to a worker that is related to it, however it ends. -/
def Leads (R : Worker π γ → Worker π γ → Prop) (act : WorkerM π γ α) (w : Worker π γ) : Prop :=
  Ends act w (fun _ => R w) fun _ => R w

section Leads

variable {R S : Worker π γ → Worker π γ → Prop}

theorem Leads.mono {act : WorkerM π γ α} (h : Leads R act w) (hRS : ∀ v, R w v → S w v) :
    Leads S act w :=
  Ends.mono h (fun _ => hRS) fun _ => hRS

theorem Leads.after {act : WorkerM π γ α} (h : Leads R act w) : R w (after act w) := by
  unfold Leads Ends at h
  unfold Worker.after
  cases hact : act w with
  | ok a v => rw [hact] at h; exact h
  | error f v => rw [hact] at h; exact h

theorem leads_get_bind {next : Worker π γ → WorkerM π γ α} (h : Leads R (next w) w) :
    Leads R (get >>= next) w := h

theorem leads_set {v : Worker π γ} (h : R w v) : Leads R (set v : WorkerM π γ PUnit) w := h

theorem leads_modify {f : Worker π γ → Worker π γ} (h : R w (f w)) :
    Leads R (modify f : WorkerM π γ PUnit) w := h

theorem leads_attempt {act : WorkerM π γ α} (h : Leads R act w) : Leads R (attempt act) w := by
  unfold Leads
  rw [ends_attempt]
  exact Ends.mono h (fun _ _ hv => hv) fun _ _ hv => ⟨fun _ _ => hv, fun _ _ => hv⟩

theorem leads_callPages {call : EStateM PagerError π α} {entry : Except PagerError α → JournalEntry}
    (h : ∀ result pages, Called call w.pages result pages →
      R w { w with pages, journal := w.journal ++ [entry result] }) :
    Leads R (callPages call entry) w :=
  ends_callPages h

theorem leads_callBreakable {call : EStateM Failure π α}
    {entry : Except PagerError α → JournalEntry}
    (h : ∀ result pages, R w { w with pages, journal := w.journal ++ [entry result] }) :
    Leads R (callBreakable call entry) w :=
  ends_callBreakable (fun result pages _ => h result pages) fun pages => h _ pages

variable [IsPreorder (Worker π γ) R]

theorem leads_bind {act : WorkerM π γ α} {next : α → WorkerM π γ β} (h : Leads R act w)
    (hnext : ∀ a v, Leads R (next a) v) : Leads R (act >>= next) w := by
  unfold Leads
  rw [ends_bind]
  refine Ends.mono h (fun a v hv => ?_) fun _ _ hv => hv
  exact Ends.mono (hnext a v) (fun _ _ hw' => trans_of R hv hw') fun _ _ hw' => trans_of R hv hw'

theorem leads_pure (a : α) : Leads R (pure a : WorkerM π γ α) w := refl_of R w

theorem leads_get : Leads R (get : WorkerM π γ (Worker π γ)) w := refl_of R w

theorem leads_throw (f : Failure) : Leads R (throw f : WorkerM π γ α) w := refl_of R w

theorem leads_refuse (cause : PagerError) : Leads R (refuse cause : WorkerM π γ α) w := refl_of R w

/-- Nothing follows a refusal. -/
theorem leads_refuse_bind {cause : PagerError} {next : α → WorkerM π γ β} :
    Leads R (refuse cause >>= next) w := refl_of R w

theorem leads_checked (result : Checked α) : Leads R (checked result : WorkerM π γ α) w := by
  cases result <;> exact refl_of R w

theorem leads_settle (result : Except PagerError α) :
    Leads R (settle result : WorkerM π γ α) w := by
  cases result <;> exact refl_of R w

theorem leads_ensure (holds : Bool) (breach : Breach) :
    Leads R (ensure holds breach : WorkerM π γ Unit) w := by
  cases holds <;> exact refl_of R w

/-- A computation changes nothing, so what follows it is still begun in `w`. -/
theorem leads_checked_bind {result : Checked α} {next : α → WorkerM π γ β}
    (h : ∀ a, Leads R (next a) w) : Leads R (checked result >>= next) w := by
  cases result with
  | ok a => exact h a
  | error f => exact refl_of R w

theorem leads_settle_bind {result : Except PagerError α} {next : α → WorkerM π γ β}
    (h : ∀ a, Leads R (next a) w) : Leads R (settle result >>= next) w := by
  cases result with
  | ok a => exact h a
  | error cause => exact refl_of R w

end Leads

end Worker

/-! ### What calls do to the memory -/

section Effects

variable {π : Type} [Paging π]

open Worker (Called CalledBreakable)

/-- What the call that an entry tells of did to the memory. -/
def JournalEntry.Effect : JournalEntry → π → π → Prop
  | .reserve len headerLen writable result, p, p' =>
    CalledBreakable (Paging.reserve len headerLen writable) p result p'
  | .release start len result, p, p' => Called (Paging.release start len) p result p'
  | .register start len result, p, p' => Called (Paging.register start len) p result p'
  | .unregister start len result, p, p' => Called (Paging.unregister start len) p result p'
  | .zero start len result, p, p' => CalledBreakable (Paging.zero start len) p result p'
  | .install start content result, p, p' => Called (Paging.install start content) p result p'
  | .discard start len result, p, p' => Called (Paging.discard start len) p result p'
  | .readResident start len result, p, p' => Called (Paging.readResident start len) p result p'
  | .readFaults result, p, p' => Called Paging.readFaults p result p'
  | _, p, p' => p' = p

/-- The calls of the entries, one after the other, lead from one memory to the other. -/
inductive Replays : π → List JournalEntry → π → Prop
  | nil {p : π} : Replays p [] p
  | cons {p p₁ p' : π} {e : JournalEntry} {es : List JournalEntry} (he : e.Effect p p₁)
      (hes : Replays p₁ es p') : Replays p (e :: es) p'

theorem Replays.append {p p₁ p' : π} {es es' : List JournalEntry} (h : Replays p es p₁)
    (h' : Replays p₁ es' p') : Replays p (es ++ es') p' := by
  induction h with
  | nil => exact h'
  | cons he _ ih => exact .cons he (ih h')

theorem Replays.single {p p' : π} {e : JournalEntry} (he : e.Effect p p') : Replays p [e] p' :=
  .cons he .nil

end Effects
end DemandPager
