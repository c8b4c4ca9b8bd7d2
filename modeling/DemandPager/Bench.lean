/-
# A bench for the worker

One caller, a worker, and a memory without a host. The caller names objects by ids
of its own choice, which may repeat, and places by objects and offsets. It orders
objects from the worker directly or by messages, plays scripts of waits, and looks
from time to time which of its requests were answered. For each object that was
placed the caller makes a handle.

Key definitions: `Bench`, `Place`, `Plan`, `Order`, `Scene`, `Bench.create`,
`Bench.order`, `Bench.play`, `Bench.destroy`, `Bench.report`.
-/
import DemandPager.Content
import DemandPager.Paging.Scripted
import DemandPager.Worker.Loop

namespace DemandPager

/-- An address, given by itself or relative to an object. -/
inductive Place
  | address (n : Nat)
  | within (id : Nat) (offset : Int)
deriving DecidableEq, Repr

structure Plan where
  id : Nat
  geometry : Geometry
  source : Source
  /-- Whether its handle goes on the index. -/
  indexed : Bool
deriving Repr

inductive Order
  | create (plan : Plan)
  | free (id : Nat) (place : Place)
  | shutdown

/-- One wait of a script: which faults are reported and which orders come before it
ends, and how it ends. -/
structure Scene where
  faults : List Place := []
  orders : List Order := []
  outcome : WaitOutcome

/-- An object that was built; its place in the list is the number of its gate. It has
a handle once the caller knows where it was placed. -/
structure Built where
  id : Nat
  geometry : Geometry
  indexed : Bool
  handle : Option Handle := none
deriving Repr, Inhabited

/-- A request that waits for an answer, and the gate of the object that it creates. -/
structure Sent where
  ticket : Nat
  gate : Option Nat := none
  reported : Bool := false
deriving Repr, Inhabited

structure Bench where
  worker : Worker ScriptedMemory Shelf
  options : Options
  built : List Built := []
  sent : List Sent := []
  /-- How often the host refuses to forget a token. -/
  forgetFails : Nat := 0

namespace Bench

def ofOptions (pageSize : Nat) (limits : WaterMarks) (o : Options) : Checked Bench := do
  let desk ← Desk.ofOptions pageSize limits o
  return { worker := { toSite := { pages := { pageSize }, client := [] }, toDesk := desk }
           options := o }

/-- The handle of the object that was built last under an id, if it has one. -/
def handleOf (b : Bench) (id : Nat) : Option Handle :=
  (b.built.reverse.find? (·.id == id)).bind (·.handle)

/-- The address of a place. An id stands for the object that was built last under
it; one without a handle counts as placed at zero. Offsets wrap around. -/
def locate (b : Bench) : Place → Nat
  | .address n => n
  | .within id offset =>
    let start := ((b.handleOf id).map (·.start)).getD 0
    (((start : Nat) + offset) % (wordBound : Nat)).toNat

def onPages (b : Bench) (f : ScriptedMemory → ScriptedMemory) : Bench :=
  { b with worker := { b.worker with pages := f b.worker.pages } }

def onSite {α : Type} (b : Bench) (f : Site ScriptedMemory Shelf → α × Site ScriptedMemory Shelf) :
    α × Bench :=
  let (a, site) := f b.worker.toSite
  (a, { b with worker := { b.worker with toSite := site } })

def run {α : Type} (b : Bench) (act : WorkerM ScriptedMemory Shelf α) : Checked α × Bench :=
  match act b.worker with
  | .ok a worker => (.ok a, { b with worker })
  | .error failure worker => (.error failure, { b with worker })

def isResident (b : Bench) (address : Nat) : Bool :=
  b.worker.pages.table.contains (pageOf b.worker.pages.pageSize address)

/-- Makes room on the shelf for the owner of an object, and drafts the object. -/
def draft (b : Bench) (plan : Plan) : Draft Shelf × Bench :=
  let owner := b.worker.client.length
  ({ id := plan.id, geometry := plan.geometry
     callbacks := plan.source.callbacks plan.geometry.stride owner },
    { b with worker := { b.worker with client := b.worker.client ++ [{}] } })

def noteBuilt (b : Bench) (plan : Plan) : Bench :=
  { b with built := b.built ++
      [{ id := plan.id, geometry := plan.geometry, indexed := plan.indexed }] }

/-- Makes the handle of an object that was placed, and puts it on the index if that
was planned. -/
def placed (b : Bench) (gate start : Nat) : Except PagerError Nat × Bench :=
  let o := b.built.getD gate default
  let h : Handle := { id := o.id, start, geometry := o.geometry, gate }
  let b := { b with
    built := b.built.set gate { o with handle := some h } }
  if o.indexed then
    match b.worker.exchange.enroll h with
    | .ok exchange => (.ok start, { b with worker := { b.worker with exchange } })
    | .error cause => (.error cause, b)
  else
    (.ok start, b)

def create (b : Bench) (plan : Plan) : Checked Nat × Bench :=
  let (draft, b) := b.draft plan
  let (object, b) := b.onSite (·.build draft)
  match (b.noteBuilt plan).run (Worker.allocate object) with
  | (.error failure, b) => (.error failure, b)
  | (.ok start, b) =>
    let (result, b) := b.placed object.gate start
    (result.mapError .error, b)

/-- The request that an order stands for, and the bench as the order leaves it. -/
def requestOf (b : Bench) : Order → Request Shelf × Bench
  | .create plan =>
    let (draft, b) := b.draft plan
    (.allocate draft, b.noteBuilt plan)
  | .free id place => (.free id (b.locate place), b)
  | .shutdown => (.shutdown, b)

def requestsOf (b : Bench) : List Order → List (Request Shelf) × Bench
  | [] => ([], b)
  | order :: rest =>
    let (request, b) := b.requestOf order
    let (requests, b) := b.requestsOf rest
    (request :: requests, b)

def note (b : Bench) (s : Sent) : Bench := { b with sent := b.sent ++ [s] }

/-- Notes which of the orders were sent, if the first that is answered got the ticket
`ticket`. -/
def noteSent (b : Bench) (ticket : Nat) : List Order → Bench
  | [] => b
  | .shutdown :: rest => b.noteSent ticket rest
  | order :: rest =>
    if b.worker.exchange.completions.length ≤ ticket then
      b
    else
      let b := match order with
        | .create plan => (b.note { ticket, gate := some b.built.length }).noteBuilt plan
        | _ => b.note { ticket }
      b.noteSent (ticket + 1) rest

def order (b : Bench) (o : Order) : Except PagerError Unit × Bench :=
  let ticket := b.worker.exchange.completions.length
  let (request, later) := b.requestOf o
  let (result, later) := later.onSite (·.submit request)
  (result, { later with built := b.built }.noteSent ticket [o])

/-- The turns of a script. Each scene finds the objects that the scenes before it
built; the faults of a scene come before its orders. -/
def turnsOf (b : Bench) : List Scene → List (Turn ScriptedMemory Shelf) × Bench
  | [] => ([], b)
  | scene :: rest =>
    let faults := scene.faults.map b.locate
    let (requests, b) := b.requestsOf scene.orders
    let (turns, b) := b.turnsOf rest
    ({ meanwhile := (·.queueFaults faults), requests, outcome := scene.outcome } :: turns, b)

def waits (journal : List JournalEntry) : Nat :=
  (journal.filter fun e => match e with
    | .wait _ => true
    | _ => false).length

/-- Plays a script to the event loop, or to the whole serving with its end. The
number tells how many scenes were left. -/
def play (b : Bench) (scenes : List Scene) (serves : Bool) : Checked Unit × Nat × Bench :=
  let ticket := b.worker.exchange.completions.length
  let before := waits b.worker.journal
  let (turns, later) := b.turnsOf scenes
  let b := { later with built := b.built }
  let refused := serves && 0 < b.forgetFails
  let forgotten := if refused then .error (.ofCode Errno.invalid) else .ok ()
  let (outcome, b) := b.run <|
    if serves then Worker.serve b.options turns forgotten
    else Worker.eventLoop b.options turns 0
  let b := b.noteSent ticket (scenes.flatMap (·.orders))
  (outcome, turns.length - (waits b.worker.journal - before),
    if refused then { b with forgetFails := b.forgetFails - 1 } else b)

/-- Serves `n` runs of messages, whatever stops a run. -/
def drainRuns : (n : Nat) → WorkerM ScriptedMemory Shelf Unit
  | 0 => pure ()
  | n + 1 => do
    let _ ← Worker.drainControl
    drainRuns n

def drain (b : Bench) : Checked Unit × Bench :=
  b.run (drainRuns b.worker.exchange.channel.pending.length)

/-- Releases an object by its handle, while the worker serves its request. -/
def destroyHandle (b : Bench) (h : Handle) : Checked Unit × Bench :=
  let (progress, b) := b.onSite (·.beginDestroy h true)
  match progress with
  | .settled => (.ok (), b)
  | .refused cause => (.error (.error cause), b)
  | .waiting ticket indexed =>
    match b.drain with
    | (.error failure, b) => (.error failure, b)
    | (.ok (), b) =>
      let answer := (b.worker.exchange.answerTo ticket).getD .released
      let (result, b) := b.onSite (·.endDestroy h indexed answer)
      (result.mapError .error, b)

/-- Releases an object by its handle, once the worker has served the messages that are queued.
There may be no handle. -/
def destroy (b : Bench) (id : Nat) : Option (Checked Unit) × Bench :=
  match b.handleOf id with
  | none => (none, b)
  | some h =>
    match b.drain with
    | (.error failure, b) => (some (.error failure), b)
    | (.ok (), b) =>
      let (result, b) := b.destroyHandle h
      (some result, b)

/-- Retires an object by its handle; the result tells whether it was alive. -/
def retire (b : Bench) (id : Nat) : Option Bool × Bench :=
  match b.handleOf id with
  | none => (none, b)
  | some h =>
    (some (b.worker.toSite.gate h.gate).alive,
      { b with worker := b.worker.onSite (·.modifyGate h.gate Gate.retire) })

/-- Takes up the answer to a request: the address of an object that was placed, if
there is one. It does not matter here whether the index takes its handle. -/
def takeUp (b : Bench) (gate : Option Nat) : Answer → Except PagerError (Option Nat) × Bench
  | .placed start => (.ok (some start), (b.placed (gate.getD 0) start).2)
  | .released => (.ok none, b)
  | .refused cause => (.error cause, b)

/-- The requests among the first `n` that were answered since the last report, in the
order of their numbers, with their results. -/
def reportUpTo (b : Bench) : (n : Nat) → List (Nat × Except PagerError (Option Nat)) × Bench
  | 0 => ([], b)
  | n + 1 =>
    let (done, b) := b.reportUpTo n
    let sent := b.sent.getD n default
    match b.worker.exchange.answerTo sent.ticket, sent.reported with
    | some answer, false =>
      let b := { b with sent := b.sent.set n { sent with reported := true } }
      let (result, b) := b.takeUp sent.gate answer
      (done ++ [(n, result)], b)
    | _, _ => (done, b)

def report (b : Bench) : List (Nat × Except PagerError (Option Nat)) × Bench :=
  b.reportUpTo b.sent.length

end Bench
end DemandPager
