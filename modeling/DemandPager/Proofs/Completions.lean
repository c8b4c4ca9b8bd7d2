/-
# Rounds of a completion

A completion is made for one answer, but a wait that is answered empties it, and then it is as
new: the next answer is stored, and a next wait receives it. So a sequence of calls falls into
rounds, each of which ends with a wait, and within a round the first answer counts
(`Completion.rounds_exact`).

A wait that finds no answer tries again later. In a sequence of calls such a wait stands where it
was answered in the end; as long as it is not it changes nothing, and no answer is lost if a round
is said to end there too.

Key definitions: `Completion.Event`, `Completion.after`, `Completion.round`, `Completion.first?`.
Key theorems: `Completion.answer_call`, `Completion.answer_after`, `Completion.rounds_exact`.
-/
import DemandPager.Channel
import Mathlib.Data.List.DropRight

namespace DemandPager
namespace Completion

variable {α : Type}

/-- A call on a completion. -/
inductive Event (α : Type)
  | finish (a : α)
  | wait
  | isFinished
deriving DecidableEq

/-- The answer that a call offers. -/
def Event.offer? : Event α → Option α
  | .finish a => some a
  | _ => none

/-- Whether a call is a wait. -/
def Event.waits : Event α → Bool
  | .wait => true
  | _ => false

/-- What a call makes of the completion. -/
def call (c : Completion α) : Event α → Completion α
  | .finish a => c.finish a
  | .wait => (c.take.map (·.2)).getD c
  | .isFinished => c

/-- A new completion after a sequence of calls. -/
def after (calls : List (Event α)) : Completion α := calls.foldl call {}

/-- The calls since the last wait. -/
def round (calls : List (Event α)) : List (Event α) := calls.rtakeWhile (!·.waits)

/-- The first answer that is offered. -/
def first? (calls : List (Event α)) : Option α := calls.findSome? Event.offer?

variable {calls : List (Event α)} {c : Completion α} {e : Event α} {a : α}

theorem isSome_first? : (first? calls).isSome = true ↔ ∃ a, .finish a ∈ calls := by
  unfold first?
  rw [List.isSome_findSome?, List.any_eq_true]
  constructor
  · rintro ⟨e, he, hoffer⟩
    cases e with
    | finish a => exact ⟨a, he⟩
    | wait => cases hoffer
    | isFinished => cases hoffer
  · rintro ⟨a, ha⟩
    exact ⟨_, ha, rfl⟩

/-- A call that is no wait keeps an answer, or stores the one it offers; a wait leaves none. -/
theorem answer_call (c : Completion α) (e : Event α) :
    (c.call e).answer = if e.waits then none else c.answer.or e.offer? := by
  obtain ⟨answer⟩ := c
  cases e <;> cases answer <;> rfl

/-- The completion holds the first answer of the round. -/
theorem answer_after (calls : List (Event α)) : (after calls).answer = first? (round calls) := by
  induction calls using List.reverseRecOn with
  | nil => rfl
  | append_singleton calls e ih =>
    have hlast : after (calls ++ [e]) = (after calls).call e := by
      simp [after]
    rw [hlast, answer_call, ih]
    unfold round first?
    by_cases hwaits : e.waits = true
    · rw [if_pos hwaits, List.rtakeWhile_concat_neg _ _ _ (by simp [hwaits])]
      rfl
    · rw [if_neg hwaits, List.rtakeWhile_concat_pos _ _ _ (by simp [hwaits]),
        List.findSome?_append, List.findSome?_singleton]

theorem isFinished_after : (after calls).isFinished = true ↔ ∃ a, .finish a ∈ round calls := by
  rw [← isSome_first?, ← answer_after]
  rfl

theorem finish_of_isFinished (h : c.isFinished = true) (a : α) : c.finish a = c := by
  obtain ⟨answer⟩ := c
  cases answer with
  | none => cases h
  | some b => rfl

theorem finish_of_not_isFinished (h : ¬c.isFinished = true) (a : α) : c.finish a = ⟨some a⟩ := by
  obtain ⟨answer⟩ := c
  cases answer with
  | none => rfl
  | some b => exact absurd rfl h

/-- An answer stays until there is a wait. -/
theorem foldl_call_of_isFinished (later : List (Event α)) (h : c.isFinished = true)
    (hlater : ∀ e ∈ later, e.waits = false) : later.foldl call c = c := by
  induction later with
  | nil => rfl
  | cons e later ih =>
    have hcall : c.call e = c := by
      cases e with
      | finish a => exact finish_of_isFinished h a
      | wait => cases hlater _ (List.mem_cons_self ..)
      | isFinished => rfl
    rw [List.foldl_cons, hcall]
    exact ih fun e he => hlater e (List.mem_cons_of_mem _ he)

/-- **A completion is one-shot in each round.** After any sequence of calls the completion is
finished exactly if an answer was offered since the last wait. Then the next wait receives the first
of these answers and leaves the completion as new; all later ones are ignored, and until that wait
nothing changes. If none was offered since the last wait, the next one that is offered is stored,
whatever was offered or received before. -/
theorem rounds_exact (calls : List (Event α)) :
    ((after calls).isFinished = true ↔ ∃ a, .finish a ∈ round calls) ∧
    (after calls).take = (first? (round calls)).map (·, {}) ∧
    ((∃ a, .finish a ∈ round calls) →
      (∀ b, (after calls).finish b = after calls) ∧
      ∀ later : List (Event α), (∀ e ∈ later, e.waits = false) →
        after (calls ++ later) = after calls) ∧
    ((¬∃ a, .finish a ∈ round calls) → ∀ b, (after calls).finish b = ⟨some b⟩) := by
  refine ⟨isFinished_after, ?_, fun hoffered => ⟨fun b => ?_, fun later hlater => ?_⟩,
    fun hnone b => ?_⟩
  · unfold take
    rw [answer_after]
  · exact finish_of_isFinished (isFinished_after.mpr hoffered) b
  · unfold after
    rw [List.foldl_append]
    exact foldl_call_of_isFinished later (isFinished_after.mpr hoffered) hlater
  · exact finish_of_not_isFinished (fun h => hnone (isFinished_after.mp h)) b

/-- An answer is stored, received, and then another one is stored. -/
example : (after [.finish 1, .wait]).isFinished = false ∧
    after [.finish 1, .finish 2, .wait, .finish 3, .finish 4] = ⟨some 3⟩ := by decide

end Completion
end DemandPager
