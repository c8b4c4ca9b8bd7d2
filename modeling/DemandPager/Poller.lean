/-
# Waiting for several descriptors

A host lets descriptors be watched under tokens, and a wait brings the tokens of those from which
something can be read (`Watching`). The descriptors are counters of notifications.

A `Poller` keeps the watched descriptors and their tokens a second time, so that it can forget all
descriptors of a token. The host notes the tokens of a wait in the poller's events; how many there
are is told to it as a signed half word.

Key definitions: `Watching`, `Poller.add`, `Poller.remove`, `Poller.forget`, `Poller.wait`.
-/
import DemandPager.EventCounter

namespace DemandPager

/-- A host whose descriptors can be watched. -/
class Watching (κ : Type) where
  /-- Watches a descriptor under a token. -/
  add (fd token : Nat) : EStateM PagerError κ Unit
  remove (fd : Nat) : EStateM PagerError κ Unit
  /-- Waits so many milliseconds at most, and brings the tokens of up to `limit` descriptors. -/
  wait (limit : Int) (millis : Nat) : EStateM PagerError κ (List Nat)
  notify (fd : Nat) : κ → κ
  drain (fd : Nat) : κ → Nat × κ

/-- How a wait ends: with so many ready descriptors, with none in time, or because
a signal interrupted it. -/
inductive Readiness
  | ready (count : Nat)
  | timedOut
  | interrupted
deriving DecidableEq, Repr

/-- Watches descriptors and reports their tokens. -/
structure Poller (κ : Type) where
  /-- The host's side. -/
  host : κ
  /-- Tokens and descriptors that are watched. -/
  watched : List (Nat × Nat) := []
  /-- The events that one wait can note. -/
  events : Nat
deriving Repr

namespace Poller

variable {κ : Type}

/-- A poller without descriptors; one wait can note at least one event. -/
def ofCapacity (host : κ) (capacity : Nat) : Poller κ := { host, events := max capacity 1 }

/-- Bytes in which one event is noted. -/
def eventBytes : Nat := 12

/-- A poller without descriptors, if so many events can be noted. -/
def allocate (host : κ) (capacity : Nat) : Checked (Poller κ) :=
  if Word.isAllocatable (max capacity 1 * eventBytes) then .ok (ofCapacity host capacity)
  else .abort .capacity

/-- A number as a signed half word; what does not fit is cut off. -/
def signedHalf (n : Nat) : Int := (n : Int).bmod halfWordBound

/-- The longest time that a wait can be told, in milliseconds. -/
def longestWait : Nat := halfWordBound / 2 - 1

section Calls

variable {α : Type}

def onHost (call : EStateM PagerError κ α) : EStateM PagerError (Poller κ) α := fun p =>
  match call p.host with
  | .ok a host => .ok a { p with host }
  | .error cause host => .error cause { p with host }

variable [Watching κ]

def add (fd token : Nat) : EStateM PagerError (Poller κ) Unit := do
  onHost (Watching.add fd token)
  modify fun p => { p with watched := p.watched ++ [(token, fd)] }

def remove (fd : Nat) : EStateM PagerError (Poller κ) Unit := do
  onHost (Watching.remove fd)
  modify fun p => { p with watched := p.watched.filter (·.2 != fd) }

/-- Stops watching the given descriptors, until one fails. -/
def removeAll : List Nat → EStateM PagerError (Poller κ) Unit
  | [] => pure ()
  | fd :: fds => do
    remove fd
    removeAll fds

/-- Stops watching all descriptors of a token. -/
def forget (token : Nat) : EStateM PagerError (Poller κ) Unit := do
  removeAll (((← get).watched.filter (·.1 == token)).map (·.2))

/-- Waits so many milliseconds at most. The tokens that are ready take the place of what is in the
buffer; an interrupted wait is no failure. -/
def wait (timeout : Nat) (buffer : List Nat) (p : Poller κ) :
    Except PagerError Readiness × List Nat × Poller κ :=
  let tokens := buffer.take 0
  match onHost (Watching.wait (signedHalf p.events) (min timeout longestWait)) p with
  | .error cause p =>
    (if cause = .ofCode Errno.interrupted then .ok .interrupted else .error cause, tokens, p)
  | .ok [] p => (.ok .timedOut, tokens, p)
  | .ok reported p => (.ok (.ready reported.length), tokens ++ reported, p)

def notify (fd : Nat) (p : Poller κ) : Poller κ := { p with host := Watching.notify fd p.host }

def drain (fd : Nat) (p : Poller κ) : Nat × Poller κ :=
  let (taken, host) := Watching.drain fd p.host
  (taken, { p with host })

end Calls
end Poller
end DemandPager
