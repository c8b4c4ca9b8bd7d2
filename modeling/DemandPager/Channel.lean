/-
# Requests and their answers

Callers hand messages to the worker through a `Channel`: a queue with a doorbell,
whose write side can be closed. A message that wants an answer carries the number
of a `Completion`, a slot that the worker fills and the caller empties.

A submission has two steps, which other threads may separate: the message is
queued (`Channel.enqueue`), then the doorbell is rung (`Channel.ring`). The host may
refuse the second, and then the message is queued all the same.

Key definitions: `Completion.finish`, `Completion.take`, `Channel.submit`,
`Channel.next`, `Channel.closeAndDrain`.
Key theorem: `Channel.submit_unheard`.
-/
import DemandPager.EventCounter

namespace DemandPager

/-- A slot for one answer: the answer, once it was given and until it is taken. -/
structure Completion (α : Type) where
  answer : Option α := none
deriving DecidableEq, Repr, Inhabited

namespace Completion

variable {α : Type}

/-- Stores an answer, unless one is stored already. -/
def finish (c : Completion α) (a : α) : Completion α :=
  match c.answer with
  | none => ⟨some a⟩
  | some _ => c

def isFinished (c : Completion α) : Bool := c.answer.isSome

/-- What a waiter receives; it waits on while there is no answer. -/
def take (c : Completion α) : Option (α × Completion α) := c.answer.map (·, ⟨none⟩)

end Completion

/-- Messages from callers to the worker, oldest first. -/
structure Channel (μ : Type) where
  pending : List μ := []
  closed : Bool := false
  bell : EventCounter := {}

namespace Channel

variable {μ : Type}

/-- Queues a message, unless the channel is closed. -/
def enqueue (c : Channel μ) (m : μ) : Except PagerError (Channel μ) :=
  if c.closed then .error .shuttingDown else .ok { c with pending := c.pending ++ [m] }

/-- Tells the worker that there is a message. `host` is the answer of the host. -/
def ring (c : Channel μ) (host : Except IoCause Unit := .ok ()) :
    Except PagerError Unit × Channel μ :=
  match host with
  | .ok () => (.ok (), { c with bell := c.bell.notify })
  | .error cause => (.error (.io cause), c)

def submit (c : Channel μ) (m : μ) (host : Except IoCause Unit := .ok ()) :
    Except PagerError Unit × Channel μ :=
  match c.enqueue m with
  | .ok c => c.ring host
  | .error cause => (.error cause, c)

/-- **Where the host refuses the ring, the message is queued all the same.** -/
theorem submit_unheard {c : Channel μ} (hopen : c.closed = false) (m : μ) (cause : IoCause) :
    c.submit m (.error cause) =
      (.error (.io cause), { c with pending := c.pending ++ [m] }) := by
  unfold submit enqueue
  rw [if_neg (Bool.eq_false_iff.mp hopen)]
  rfl

/-- A message whose ring is heard fails only because the channel is closed. -/
theorem submit_error {c c' : Channel μ} {m : μ} {cause : PagerError}
    (h : c.submit m = (.error cause, c')) : cause = .shuttingDown ∧ c' = c := by
  unfold submit enqueue ring at h
  by_cases hclosed : c.closed = true
  · rw [if_pos hclosed] at h
    cases h
    exact ⟨rfl, rfl⟩
  · rw [if_neg hclosed] at h
    cases h

def next (c : Channel μ) : Option (μ × Channel μ) :=
  match c.pending with
  | [] => none
  | m :: rest => some (m, { c with pending := rest })

theorem next_of_nil {c : Channel μ} (h : c.pending = []) : c.next = none := by
  unfold next
  rw [h]

theorem next_of_cons {c : Channel μ} {m : μ} {rest : List μ} (h : c.pending = m :: rest) :
    c.next = some (m, { c with pending := rest }) := by
  unfold next
  rw [h]

/-- Takes all rings of the doorbell; the result is their number. -/
def answerBell (c : Channel μ) : Nat × Channel μ :=
  let (rings, bell) := c.bell.drain
  (rings, { c with bell })

/-- Refuses submissions from now on. What is queued stays queued. -/
def close (c : Channel μ) : Channel μ := { c with closed := true }

/-- Refuses submissions from now on and takes all messages. -/
def closeAndDrain (c : Channel μ) : List μ × Channel μ :=
  (c.pending, { c with pending := [], closed := true })

end Channel
end DemandPager
