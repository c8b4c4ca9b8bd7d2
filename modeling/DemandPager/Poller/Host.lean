/-
# The descriptors of a host

An `InterestSet` is the host's record of the descriptors that are watched, with the
queue of those that were signalled. A wait goes over the queue in order and
reports descriptors that are readable, up to a limit; a reported descriptor goes
to the end of the queue, one that is not readable leaves it. So it is level
triggered, and under the limit all readable descriptors take turns.

An `EventHost` has a counter for each descriptor. A descriptor is readable while its counter is not
zero.

Key definitions: `InterestSet.add`, `InterestSet.remove`, `InterestSet.signal`,
`InterestSet.collect`, `EventHost`.
-/
import DemandPager.Poller
import Std.Data.TreeMap

namespace DemandPager

/-- The watched descriptors with their tokens, and the signalled ones, longest
waiting first. -/
structure InterestSet where
  watched : List (Nat × Nat) := []
  signalled : List Nat := []
deriving Repr

namespace InterestSet

def tokenOf? (s : InterestSet) (fd : Nat) : Option Nat := s.watched.lookup fd

def contains (s : InterestSet) (fd : Nat) : Bool := (s.tokenOf? fd).isSome

/-- Notes that something happened to a descriptor. -/
def signal (s : InterestSet) (fd : Nat) : InterestSet :=
  if s.contains fd && !s.signalled.contains fd then
    { s with signalled := s.signalled ++ [fd] }
  else
    s

/-- Watches a descriptor under a token; it may be readable already. -/
def add (s : InterestSet) (fd token : Nat) (readable : Bool) : Except PagerError InterestSet :=
  if s.contains fd then
    .error (.ofCode Errno.present)
  else
    let s := { s with watched := s.watched ++ [(fd, token)] }
    .ok (if readable then s.signal fd else s)

/-- Stops watching a descriptor. -/
def remove (s : InterestSet) (fd : Nat) : Except PagerError InterestSet :=
  if s.contains fd then
    .ok { watched := s.watched.filter (·.1 != fd), signalled := s.signalled.filter (· != fd) }
  else
    .error (.ofCode Errno.absent)

/-- Goes over signalled descriptors and reports up to `limit` readable ones, in
order; the second list is the part of the queue that was not reached. -/
def collectFrom (readable : Nat → Bool) : (queue : List Nat) → (limit : Nat) → List Nat × List Nat
  | [], _ => ([], [])
  | fd :: queue, 0 => ([], fd :: queue)
  | fd :: queue, limit + 1 =>
    if readable fd then
      let (reported, rest) := collectFrom readable queue limit
      (fd :: reported, rest)
    else
      collectFrom readable queue (limit + 1)

/-- The readable descriptors that a wait reports, and the set after it: what the
wait did not reach comes first, what it reported goes to the end. -/
def collect (s : InterestSet) (readable : Nat → Bool) (limit : Nat) : List Nat × InterestSet :=
  let (reported, rest) := collectFrom readable s.signalled limit
  (reported, { s with signalled := rest ++ reported })

end InterestSet

/-- Counters, a record of those that are watched, and whether a signal is to arrive. -/
structure EventHost where
  interest : InterestSet := {}
  counters : Std.TreeMap Nat EventCounter := ∅
  /-- A signal arrives during the next wait. -/
  alarmed : Bool := false
deriving Repr

namespace EventHost

def counter (s : EventHost) (fd : Nat) : EventCounter := s.counters.getD fd {}

def readable (s : EventHost) (fd : Nat) : Bool := (s.counter fd).readable

def setCounter (s : EventHost) (fd : Nat) (c : EventCounter) : EventHost :=
  { s with counters := s.counters.insert fd c }

/-- Writes to a counter, which signals its descriptor. -/
def put (s : EventHost) (fd : Nat) (c : EventCounter) : EventHost :=
  { s.setCounter fd c with interest := s.interest.signal fd }

def saturate (s : EventHost) (fd : Nat) : EventHost := s.put fd ⟨EventCounter.limit⟩

/-- The most events that one wait can note. -/
def maxEvents : Nat := (halfWordBound / 2 - 1) / Poller.eventBytes

/-- A wait ends without delay. It fails if it can note no event, or too many, and if a signal
arrives while nothing is readable. -/
instance : Watching EventHost where
  add fd token s :=
    match s.interest.add fd token (s.readable fd) with
    | .ok interest => .ok () { s with interest }
    | .error cause => .error cause s
  remove fd s :=
    match s.interest.remove fd with
    | .ok interest => .ok () { s with interest }
    | .error cause => .error cause s
  wait limit _ s :=
    if limit ≤ 0 ∨ (maxEvents : Int) < limit then
      .error (.ofCode Errno.invalid) s
    else
      let (fds, interest) := s.interest.collect s.readable limit.toNat
      let after := { s with interest, alarmed := false }
      if fds.isEmpty && s.alarmed then
        .error (.ofCode Errno.interrupted) after
      else
        .ok (fds.filterMap interest.tokenOf?) after
  notify fd s := s.put fd (s.counter fd).notify
  drain fd s :=
    let (taken, c) := (s.counter fd).drain
    (taken, s.setCounter fd c)

end EventHost
end DemandPager
