/-
# The pager

A pager is what a program uses: it has options and a budget, is started once, and
from then on a worker serves the objects that are created through it. The worker
runs on a thread of its own. Here one caller acts at a time, and the worker does
what there is to do before the caller goes on.

The thread ends in order, with the outcome of its serving, or it dies because a
step broke off. Nobody answers requests after that; the memory is as it was, but
nothing is reported any more.

A pager works on any memory. Accesses to objects (`Pager.read`, `Pager.write`) are
those of a process to the memory of its host.

Key definitions: `Pager`, `Pager.create`, `Pager.destroy`, `Pager.read`,
`Pager.write`, `Pager.requestShutdown`, `Pager.join`.
-/
import DemandPager.Paging.Host
import DemandPager.Worker.Loop

namespace DemandPager

inductive Thread (γ : Type)
  | absent
  | serving (desk : Desk γ)
  /-- It ended, with this outcome. -/
  | ended (outcome : Except PagerError Unit)
  | died

structure Pager (π γ : Type) where
  options : Options
  limits : Option WaterMarks
  started : Bool := false
  thread : Thread γ := .absent
  /-- Whether the pager itself was given up, so that only handles are left. -/
  gone : Bool := false
  site : Site π γ

/-- Serves the events of a wakeup. If the worker stops or fails it winds up, and the
answer is the outcome. -/
def Worker.serveWakeup {π γ : Type} [Paging π] (tokens : List Nat) :
    WorkerM π γ (Option (Except PagerError Unit)) := do
  match ← attempt (serveTokens (.ok ()) tokens) with
  | .error cause =>
    windUp (.ok ())
    return some (.error cause)
  | .ok () =>
    if (← get).phase = .running then
      return none
    windUp (.ok ())
    return some (.ok ())

namespace Pager

variable {π γ : Type}

/-- A pager that is not started yet. -/
def ofOptions (descriptors : Descriptors) (pages : π) (client : γ) (o : Options) :
    Except PagerError (Pager π γ) := do
  let options := o.normalize
  let limits ← options.waterMarks
  descriptors.open
  return { options, limits, site := { pages, client } }

/-- Sets the budget. That is possible once, before the start. -/
def setLimits (p : Pager π γ) (high low : Nat) : Except PagerError (Pager π γ) :=
  if p.limits.isSome then
    .error .limitsAlreadySet
  else if p.started then
    .error .alreadyStarted
  else do
    let limits ← WaterMarks.ofBytes high low
    return { p with limits := some limits }

def isRunning (p : Pager π γ) : Bool :=
  match p.thread with
  | .serving _ => true
  | _ => false

/-- The handle of the live object whose reservation contains an address. -/
def lookup (p : Pager π γ) (address : Nat) : Option Handle :=
  (p.site.exchange.index.find? address).map (·.value)

def gateOf (p : Pager π γ) (h : Handle) : Gate := p.site.gate h.gate

def isAlive (p : Pager π γ) (h : Handle) : Bool := (p.gateOf h).alive

def retireAll (site : Site π γ) (handles : List Handle) : Site π γ :=
  handles.foldl (fun s h => s.modifyGate h.gate Gate.retire) site

/-- The outcome of the worker, once it is over. -/
def join (p : Pager π γ) : Option (Except PagerError Unit) :=
  match p.thread with
  | .absent => some (.ok ())
  | .serving _ => none
  | .ended outcome => some outcome
  | .died => some (.error .workerPanicked)

/-- Gives the pager up; its handles stay. -/
def giveUp (p : Pager π γ) : Pager π γ := { p with gone := true }

/-- Waits for the worker and gives the pager up; the result is missing while the
worker serves. -/
def awaitShutdown (p : Pager π γ) : Option (Except PagerError Unit × Pager π γ) :=
  p.join.map (·, p.giveUp)

section Serving

variable [Paging π]

/-- The thread of the worker is over; its memory reports nothing any more. -/
def endThread (p : Pager π γ) (site : Site π γ) (thread : Thread γ) : Pager π γ :=
  { p with thread, site := { site with pages := Paging.close site.pages } }

/-- Lets the worker serve the events of the given tokens. -/
def wake (p : Pager π γ) (tokens : List Nat) : Pager π γ :=
  match p.thread with
  | .serving desk =>
    match Worker.serveWakeup tokens { toSite := p.site, toDesk := desk } with
    | .ok none w => { p with site := w.toSite, thread := .serving w.toDesk }
    | .ok (some outcome) w => p.endThread w.toSite (.ended outcome)
    | .error _ w => p.endThread w.toSite .died
  | _ => p

/-- Starts the worker. What was asked for before is served at once. -/
def start (p : Pager π γ) (descriptors : Descriptors) : Checked (Pager π γ) := do
  if p.started then
    Checked.refuse .alreadyStarted
  match p.limits with
  | none => Checked.refuse (.invalidConfig "memory limits must be set before start")
  | some limits =>
    match descriptors.open with
    | .error cause => Checked.refuse cause
    | .ok () =>
      let desk ← Desk.ofOptions (Paging.pageSize p.site.pages) limits p.options
      let p := { p with started := true, thread := .serving desk }
      return if p.site.exchange.channel.bell.readable then p.wake [controlToken] else p

/-- Creates an object. The result is missing if nobody will ever answer. -/
def create (p : Pager π γ) (geometry : Geometry) (callbacks : Callbacks γ) :
    Option (Except PagerError Handle) × Pager π γ :=
  if !p.started then
    (some (.error .notStarted), p)
  else
    let x := p.site.exchange
    let id := x.nextId
    let gate := p.site.gates.length
    let ticket := x.completions.length
    let site := { p.site with exchange := { x with nextId := id + 1 } }
    match site.submit (.allocate { id, geometry, callbacks }) with
    | (.error cause, site) => (some (.error cause), { p with site })
    | (.ok (), site) =>
      let p := { p with site }.wake [controlToken]
      match p.site.exchange.answerTo ticket with
      | none => (none, p)
      | some (.refused cause) => (some (.error cause), p)
      | some .released => (none, p)
      | some (.placed start) =>
        let handle : Handle := { id, start, geometry, gate }
        match p.site.exchange.enroll handle with
        | .error cause => (some (.error cause), p)
        | .ok exchange =>
          if exchange.stopping then
            let site := { p.site with exchange := (exchange.unindex start).2 }
            (some (.error .shuttingDown), { p with site := site.modifyGate gate Gate.retire })
          else
            (some (.ok handle), { p with site := { p.site with exchange } })

/-- Releases an object. The result is missing if nobody will ever answer. -/
def destroy (p : Pager π γ) (h : Handle) : Option (Except PagerError Unit) × Pager π γ :=
  match p.site.beginDestroy h (!p.gone) with
  | (.settled, site) => (some (.ok ()), { p with site })
  | (.refused cause, site) => (some (.error cause), { p with site })
  | (.waiting ticket indexed, site) =>
    let p := { p with site }.wake [controlToken]
    match p.site.exchange.answerTo ticket with
    | none => (none, p)
    | some answer =>
      let (result, site) := p.site.endDestroy h indexed answer
      (some result, { p with site })

/-- Asks the worker to stop. All objects on the index are retired first, and no
request is accepted any more. -/
def requestShutdown (p : Pager π γ) : Pager π γ :=
  let x := p.site.exchange
  let site := retireAll
    { p.site with exchange := { x with stopping := true, index := .empty } }
    (x.index.toList.map (·.value))
  let site := (site.submit .shutdown).2
  let x := site.exchange
  { p with site := { site with exchange := { x with channel := x.channel.close } } }.wake
    [controlToken]

/-- Stops the worker and gives the pager up. The outcome of the worker is of interest
only to those who wait for it. -/
def shutdown (p : Pager π γ) (wait : Bool) : Option (Except PagerError Unit) × Pager π γ :=
  let p := p.requestShutdown
  (if wait then p.join else some (.ok ()), p.giveUp)

/-- Gives the pager up, and stops the worker if there is one. -/
def drop (p : Pager π γ) : Pager π γ :=
  match p.thread with
  | .absent => p.giveUp
  | _ => p.requestShutdown.giveUp

end Serving

/-- Touches a page: if it is missing the access is reported, and the worker resolves
it. -/
def touch (p : Pager HostMemory γ) (page : Nat) : Pager HostMemory γ :=
  if p.site.pages.isMissing page then
    let pages := { p.site.pages with faults := p.site.pages.faults ++ [page] }
    { p with site := { p.site with pages } }.wake [faultToken]
  else
    p

def copyOut (p : Pager HostMemory γ) (address : Nat) : (n len : Nat) → Bytes × Pager HostMemory γ
  | 0, _ => ([], p)
  | n + 1, len =>
    let part := min (hostPageSize - address % hostPageSize) len
    let p := p.touch (pageOf hostPageSize address)
    let (bytes, pages) := p.site.pages.load address part
    let p := { p with site := { p.site with pages } }
    let (rest, p) := p.copyOut (address + part) n (len - part)
    (bytes ++ rest, p)

def copyIn (p : Pager HostMemory γ) (address : Nat) : (n : Nat) → Bytes → Pager HostMemory γ
  | 0, _ => p
  | n + 1, bytes =>
    let part := bytes.take (hostPageSize - address % hostPageSize)
    let p := p.touch (pageOf hostPageSize address)
    let p := { p with site := { p.site with pages := p.site.pages.store address part } }
    p.copyIn (address + part.length) n (bytes.drop part.length)

def enter (p : Pager π γ) (h : Handle) (region : Region) (writes : Bool) (offset len : Nat) :
    Except PagerError Unit := do
  h.permit region writes offset len
  (p.gateOf h).enter

def addressOf (h : Handle) (region : Region) (offset : Nat) : Nat :=
  h.start + h.geometry.regionStart region + offset

def read (p : Pager HostMemory γ) (h : Handle) (region : Region) (offset len : Nat) :
    Except PagerError Bytes × Pager HostMemory γ :=
  match p.enter h region false offset len with
  | .error cause => (.error cause, p)
  | .ok () =>
    let address := addressOf h region offset
    let (bytes, p) := p.copyOut address (HostMemory.pagesOver address len).length len
    ((p.gateOf h).leave.map fun () => bytes, p)

def write (p : Pager HostMemory γ) (h : Handle) (region : Region) (offset : Nat) (bytes : Bytes) :
    Except PagerError Unit × Pager HostMemory γ :=
  match p.enter h region true offset bytes.length with
  | .error cause => (.error cause, p)
  | .ok () =>
    let address := addressOf h region offset
    let p := p.copyIn address (HostMemory.pagesOver address bytes.length).length bytes
    ((p.gateOf h).leave, p)

end Pager
end DemandPager
