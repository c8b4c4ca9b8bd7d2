/-
# The site: what callers and the worker share

The worker keeps its own books to itself. All the rest is the site: the memory
(`pages`), the state of the callers' callbacks (`client`), the exchange of requests
and answers, the gates of the objects, and the journal, in which the worker writes
down each call that it makes and each request that it serves.

Callers change the site in small steps, which other threads may separate. The
release of an object by its handle (`Site.beginDestroy`, `Site.endDestroy`) is
such a sequence: retire, take the handle off the index, request, wait for the
answer, and after a refusal revive and index again.

Key definitions: `Site`, `Exchange`, `Message`, `Answer`, `JournalEntry`,
`Site.submit`, `Site.beginDestroy`, `Site.endDestroy`.
-/
import DemandPager.Channel
import DemandPager.Handle
import DemandPager.IntervalMap
import DemandPager.Object
import DemandPager.Stats

namespace DemandPager

inductive Answer
  /-- The object lies at this address. -/
  | placed (start : Nat)
  | released
  | refused (cause : PagerError)
deriving DecidableEq, Repr

/-- A refusal as an error, any other answer as success. -/
def Answer.settled : Answer → Except PagerError Unit
  | .refused cause => .error cause
  | _ => .ok ()

/-- What callers send to the worker. A message that is answered has a ticket, the
number of its completion. -/
inductive Message (γ : Type)
  | allocate (object : Object γ) (ticket : Nat)
  | free (id start ticket : Nat)
  | shutdown

/-- One entry of the worker's journal. A call is entered with its result. -/
inductive JournalEntry
  | reserve (len headerLen : Nat) (writable : Bool) (result : Except PagerError Nat)
  | release (start len : Nat) (result : Except PagerError Unit)
  | register (start len : Nat) (result : Except PagerError Unit)
  | unregister (start len : Nat) (result : Except PagerError Unit)
  | zero (start len : Nat) (result : Except PagerError Unit)
  | install (start : Nat) (content : Bytes) (result : Except PagerError Bool)
  | discard (start len : Nat) (result : Except PagerError Unit)
  | readResident (start len : Nat) (result : Except PagerError Bytes)
  | readFaults (result : Except PagerError (List Nat × Bool))
  /-- Elements of an object are to be filled. -/
  | populate (id first stop len : Nat)
  /-- Elements of an object are handed to its owner. -/
  | writeBack (id first stop : Nat) (bytes : Bytes)
  | destructor (id : Nat)
  | wait (timeout : Nat)
  /-- Events of a token are not waited for any more. -/
  | forget (token : Nat) (result : Except PagerError Unit)
  /-- A request is taken up. -/
  | serve (ticket : Nat)
  | answer (ticket : Nat) (answer : Answer)

/-- The exchange of requests and answers, and what callers know about objects. -/
structure Exchange (γ : Type) where
  channel : Channel (Message γ) := {}
  /-- The completion of each request, by its ticket. -/
  completions : List (Completion Answer) := []
  stats : Stats := {}
  /-- The handles of live objects, by their reservations. -/
  index : IntervalMap Handle := .empty
  nextId : Nat := 1
  /-- Raised before anything is torn down. -/
  stopping : Bool := false

/-- What callers and the worker share. -/
structure Site (π γ : Type) where
  pages : π
  client : γ
  exchange : Exchange γ := {}
  /-- The gates of all objects ever built, by their numbers. -/
  gates : List Gate := []
  journal : List JournalEntry := []

/-- An object before it is built. -/
structure Draft (γ : Type) where
  id : Nat
  geometry : Geometry
  callbacks : Callbacks γ

inductive Request (γ : Type)
  | allocate (draft : Draft γ)
  | free (id start : Nat)
  | shutdown

namespace Exchange

variable {γ : Type}

/-- Opens a completion; its ticket is the number of completions before. -/
def openTicket (x : Exchange γ) : Nat × Exchange γ :=
  (x.completions.length, { x with completions := x.completions ++ [{}] })

def finish (x : Exchange γ) (ticket : Nat) (a : Answer) : Exchange γ :=
  { x with completions := x.completions.modify ticket (·.finish a) }

/-- The answer to a ticket, if it was given and not taken. -/
def answerTo (x : Exchange γ) (ticket : Nat) : Option Answer :=
  x.completions[ticket]?.bind (·.answer)

/-- Sends a message to the worker. `bell` is the answer of the host to the ring. -/
def send (x : Exchange γ) (m : Message γ) (bell : Except IoCause Unit := .ok ()) :
    Except PagerError Unit × Exchange γ :=
  let (result, channel) := x.channel.submit m bell
  (result, { x with channel })

/-- Sends a request to release an object; the answer will come to the ticket. -/
def requestFree (x : Exchange γ) (id start : Nat) (bell : Except IoCause Unit := .ok ()) :
    Except PagerError Nat × Exchange γ :=
  let (ticket, x) := x.openTicket
  let (result, x) := x.send (.free id start ticket) bell
  (result.map fun _ => ticket, x)

theorem requestFree_error {x x' : Exchange γ} {id start : Nat} {cause : PagerError}
    (h : x.requestFree id start = (.error cause, x')) : cause = .shuttingDown := by
  unfold requestFree openTicket send at h
  cases hsubmit : x.channel.submit (.free id start x.completions.length) with
  | mk result channel =>
    simp only [hsubmit] at h
    cases result with
    | ok u => cases h
    | error why =>
      cases h
      exact (Channel.submit_error hsubmit).1

/-- Takes the handle of an object off the index; tells whether it was there. -/
def unindex (x : Exchange γ) (start : Nat) : Bool × Exchange γ :=
  match x.index.remove start with
  | .ok (_, index) => (true, { x with index })
  | .error _ => (false, x)

/-- Puts a handle on the index. -/
def enroll (x : Exchange γ) (h : Handle) : Except PagerError (Exchange γ) := do
  let index ← x.index.insert h.start h.geometry.trueSize h
  return { x with index }

end Exchange

namespace Site

variable {π γ : Type}

/-- The gate of a number; a gate that was never opened lets nobody in. -/
def gate (s : Site π γ) (number : Nat) : Gate :=
  s.gates.getD number { owner := 0, alive := false }

def modifyGate (s : Site π γ) (number : Nat) (f : Gate → Gate) : Site π γ :=
  { s with gates := s.gates.modify number f }

def note (s : Site π γ) (entry : JournalEntry) : Site π γ :=
  { s with journal := s.journal ++ [entry] }

/-- Builds an object; its gate is new and open. -/
def build (s : Site π γ) (d : Draft γ) : Object γ × Site π γ :=
  ({ id := d.id, geometry := d.geometry, callbacks := d.callbacks, gate := s.gates.length },
    { s with gates := s.gates ++ [{ owner := d.id }] })

/-- Sends a request to the worker. A request that is answered takes the next
ticket, even if it is not accepted. -/
def submit (s : Site π γ) (r : Request γ) (bell : Except IoCause Unit := .ok ()) :
    Except PagerError Unit × Site π γ :=
  match r with
  | .allocate draft =>
    let (object, s) := s.build draft
    let (ticket, exchange) := s.exchange.openTicket
    let (result, exchange) := exchange.send (.allocate object ticket) bell
    (result, { s with exchange })
  | .free id start =>
    let (result, exchange) := s.exchange.requestFree id start bell
    (result.map fun _ => (), { s with exchange })
  | .shutdown =>
    let (result, exchange) := s.exchange.send .shutdown bell
    (result, { s with exchange })

/-- Sends requests one after the other, whether they are accepted or not. -/
def submitAll (s : Site π γ) (requests : List (Request γ)) : Site π γ :=
  requests.foldl (fun s r => (s.submit r).2) s

/-- How far the release of an object by its handle got without the worker. -/
inductive Destroy
  /-- There is nothing to wait for. -/
  | settled
  /-- The worker was asked; `indexed` tells whether the handle was on the index. -/
  | waiting (ticket : Nat) (indexed : Bool)
  /-- The worker could not be told that there is a request. -/
  | refused (cause : PagerError)
deriving DecidableEq, Repr

/-- Makes a handle usable again, and puts it back on the index if it was there. If
the index refuses it, it stays off the index. -/
def reopen (s : Site π γ) (h : Handle) (indexed : Bool) : Site π γ :=
  let s := s.modifyGate h.gate Gate.revive
  if indexed then
    match s.exchange.enroll h with
    | .ok exchange => { s with exchange }
    | .error _ => s
  else
    s

/-- Begins to release an object. A second release of the same object, one whose
pager is gone and one whose pager does not accept requests any more have nothing
left to do. -/
def beginDestroy (s : Site π γ) (h : Handle) (attached : Bool)
    (bell : Except IoCause Unit := .ok ()) : Destroy × Site π γ :=
  if !(s.gate h.gate).alive then
    (.settled, s)
  else
    let s := s.modifyGate h.gate Gate.retire
    if !attached then
      (.settled, s)
    else
      let (indexed, exchange) := s.exchange.unindex h.start
      match exchange.requestFree h.id h.start bell with
      | (.ok ticket, exchange) => (.waiting ticket indexed, { s with exchange })
      | (.error .shuttingDown, exchange) => (.settled, { s with exchange })
      | (.error cause, exchange) => (.refused cause, { s with exchange }.reopen h indexed)

/-- Ends the release of an object with the worker's answer. A refusal makes the
handle usable again. -/
def endDestroy (s : Site π γ) (h : Handle) (indexed : Bool) (answer : Answer) :
    Except PagerError Unit × Site π γ :=
  match answer with
  | .placed _ | .released | .refused .shuttingDown => (.ok (), s)
  | .refused cause => (.error cause, s.reopen h indexed)

end Site
end DemandPager
