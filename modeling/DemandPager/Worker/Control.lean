/-
# Serving requests

The worker takes messages in the order of their submission and answers each one
that has a ticket. A request to shut down ends the serving. The teardown that
follows releases every object, whatever the memory refuses, and answers what is
still queued.

Key definitions: `Flow`, `Worker.drainControl`, `Worker.shutdown`.
-/
import DemandPager.Worker.Lifecycle

namespace DemandPager

/-- Whether the worker goes on serving. -/
inductive Flow
  | proceed
  | stop
deriving DecidableEq, Repr

namespace Worker

variable {π γ : Type}

def reply (ticket : Nat) (answer : Answer) : WorkerM π γ Unit := do
  note (.answer ticket answer)
  modify (·.onExchange (·.finish ticket answer))

def nextMessage : WorkerM π γ (Option (Message γ)) := do
  let w ← get
  match w.exchange.channel.next with
  | none => return none
  | some (message, channel) =>
    set (w.onExchange fun x => { x with channel })
    return some message

variable [Paging π]

omit [Paging π] in
/-- Serves a request and answers it, with a refusal if it fails. -/
def serveRequest (ticket : Nat) (request : WorkerM π γ Answer) : WorkerM π γ Flow := do
  note (.serve ticket)
  match ← attempt request with
  | .ok answer => reply ticket answer
  | .error cause => reply ticket (.refused cause)
  return .proceed

def serveMessage : Message γ → WorkerM π γ Flow
  | .allocate object ticket => serveRequest ticket do
    return .placed (← allocate object)
  | .free id start ticket => serveRequest ticket do
    free id start
    return .released
  | .shutdown => do
    modify fun w => { w with phase := .shuttingDown }
    return .stop

/-- Serves up to `n` messages, until none is left or one stops the worker. -/
def serveMessages : (n : Nat) → WorkerM π γ Flow
  | 0 => return .proceed
  | n + 1 => do
    match ← nextMessage with
    | none => return .proceed
    | some message =>
      match ← serveMessage message with
      | .stop => return .stop
      | .proceed => serveMessages n

/-- Serves the messages that are queued, until one stops the worker. -/
def drainControl : WorkerM π γ Flow := do
  serveMessages (← get).exchange.channel.pending.length

/-- Releases the given objects; a refused release leaves the object. -/
def freeAll : List (Interval (Object γ)) → WorkerM π γ Unit
  | [] => pure ()
  | entry :: rest => do
    let _ ← attempt (free entry.value.id entry.start)
    freeAll rest

/-- Gives up an object that could not be released in order. If its accesses cannot
be let go its memory is left to leak, since somebody may still wait for a page. -/
def abandon (entry : Interval (Object γ)) : WorkerM π γ Unit := do
  let object := entry.value
  changeGate object.gate Gate.beginUnmap
  match ← unregister entry.start entry.len with
  | .ok () =>
    changeGate object.gate Gate.retire
    let _ ← release entry.start entry.len
  | .error _ => pure ()
  finish object

def abandonAll : List (Interval (Object γ)) → WorkerM π γ Unit
  | [] => pure ()
  | entry :: rest => do
    abandon entry
    abandonAll rest

omit [Paging π] in
/-- Answers a message that comes too late: there is no new object any more, and an
object that is to be released is gone. -/
def dismiss : Message γ → WorkerM π γ Unit
  | .allocate _ ticket => reply ticket (.refused .shuttingDown)
  | .free _ _ ticket => reply ticket .released
  | .shutdown => pure ()

omit [Paging π] in
def dismissAll : List (Message γ) → WorkerM π γ Unit
  | [] => pure ()
  | message :: rest => do
    dismiss message
    dismissAll rest

/-- Tears everything down: releases every object, answers every message and empties
the books. -/
def shutdown : WorkerM π γ Unit := do
  modify fun w => { w with phase := .shuttingDown }
  modify (·.onExchange fun x => { x with stopping := true })
  freeAll (← get).objects.toList
  let left := (← get).objects.toList
  modify fun w => { w with objects := .empty }
  abandonAll left
  modify (·.onExchange fun x => { x with index := .empty })
  modify fun w => { w with ring := .ofCapacity 1, used := 0 }
  let (late, channel) := (← get).exchange.channel.closeAndDrain
  modify (·.onExchange fun x => { x with channel })
  dismissAll late
  modify fun w => { w with scratch := {}, spill := {}, phase := .terminated }

end Worker
end DemandPager
