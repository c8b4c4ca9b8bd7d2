/-
# The worker

One worker serves all objects of a pager. Its books (`Desk`) are the objects by
their reservations, the eviction ring, the bytes that resident chunks use, and two
buffers: `scratch`, in which chunks are filled before they are installed, and
`spill`, into which they are read before they are dropped.

A step of the worker (`WorkerM`) changes the desk and the site and may end in a
`Failure`; the state that it reached stays. Each call that a step makes is entered
in the journal.

Key definitions: `Desk`, `Worker`, `WorkerM`, `Worker.attempt`, and the calls
`Worker.reserve`, `Worker.install`, `Worker.discard`, ...
-/
import DemandPager.Buffer
import DemandPager.Options
import DemandPager.Paging
import DemandPager.Ring
import DemandPager.Site

namespace DemandPager

inductive Phase
  | running
  | shuttingDown
  | terminated
deriving DecidableEq, Repr

/-- The books of the worker. -/
structure Desk (γ : Type) where
  /-- The objects, by their reservations. -/
  objects : IntervalMap (Object γ)
  ring : Ring
  ringGrowable : Bool
  /-- Bytes that resident chunks use. -/
  used : Nat
  limits : WaterMarks
  scratch : Buffer
  spill : Buffer
  phase : Phase

/-- The books of a worker that has no objects yet. -/
def Desk.ofOptions {γ : Type} (pageSize : Nat) (limits : WaterMarks) (o : Options) :
    Checked (Desk γ) := do
  let scratch ← Buffer.ofSize (← Word.mul pageSize o.initialScratchPages)
  let ring ← Ring.allocate o.ringCapacity
  return {
    objects := .empty
    ring
    ringGrowable := o.ringGrowable
    used := 0
    limits
    scratch
    spill := {}
    phase := .running }

/-- The worker at its site. -/
structure Worker (π γ : Type) extends Site π γ, Desk γ

abbrev WorkerM (π γ α : Type) := EStateM Failure (Worker π γ) α

namespace Worker

variable {π γ α : Type}

def onSite (w : Worker π γ) (f : Site π γ → Site π γ) : Worker π γ :=
  { w with toSite := f w.toSite }

def onExchange (w : Worker π γ) (f : Exchange γ → Exchange γ) : Worker π γ :=
  { w with exchange := f w.exchange }

def refuse (cause : PagerError) : WorkerM π γ α := throw (.error cause)

/-- Breaks off unless a check holds. -/
def ensure (holds : Bool) (breach : Breach) : WorkerM π γ Unit :=
  if holds then pure () else throw (.abort breach)

/-- A computation that can fail, as a step. -/
def checked (result : Checked α) : WorkerM π γ α :=
  match result with
  | .ok a => pure a
  | .error failure => throw failure

/-- An answer that can be an error, as a step. -/
def settle (result : Except PagerError α) : WorkerM π γ α :=
  match result with
  | .ok a => pure a
  | .error cause => refuse cause

/-- Runs a step whose error is an answer and not the end. A step that breaks off
still does. -/
def attempt (act : WorkerM π γ α) : WorkerM π γ (Except PagerError α) := fun w =>
  match act w with
  | .ok a w => .ok (.ok a) w
  | .error (.error cause) w => .ok (.error cause) w
  | .error (.abort breach) w => .error (.abort breach) w

def note (entry : JournalEntry) : WorkerM π γ Unit := modify (·.onSite (·.note entry))

def count (event : WorkEvent) : WorkerM π γ Unit :=
  modify (·.onExchange fun x => { x with stats := x.stats.record event })

def changeGate (number : Nat) (f : Gate → Gate) : WorkerM π γ Unit :=
  modify (·.onSite (·.modifyGate number f))

/-- Calls the memory and enters the call with its result. -/
def callPages (call : EStateM PagerError π α) (entry : Except PagerError α → JournalEntry) :
    WorkerM π γ (Except PagerError α) := fun w =>
  let (result, pages) : Except PagerError α × π :=
    match call w.pages with
    | .ok a pages => (.ok a, pages)
    | .error cause pages => (.error cause, pages)
  .ok result { w with pages, journal := w.journal ++ [entry result] }

/-- Calls the memory, which may break off and the worker with it, and enters the
call. -/
def callBreakable (call : EStateM Failure π α) (entry : Except PagerError α → JournalEntry) :
    WorkerM π γ (Except PagerError α) := fun w =>
  let enter (pages : π) (result : Except PagerError α) : Worker π γ :=
    { w with pages, journal := w.journal ++ [entry result] }
  match call w.pages with
  | .ok a pages => .ok (.ok a) (enter pages (.ok a))
  | .error (.error cause) pages => .ok (.error cause) (enter pages (.error cause))
  | .error (.abort _) pages => .error (.abort .memory) (enter pages (.error .workerPanicked))

variable [Paging π]

def reserve (len headerLen : Nat) (writable : Bool) : WorkerM π γ (Except PagerError Nat) :=
  callBreakable (Paging.reserve len headerLen writable) (.reserve len headerLen writable)

def release (start len : Nat) : WorkerM π γ (Except PagerError Unit) :=
  callPages (Paging.release start len) (.release start len)

/-- Lets accesses to missing pages be reported. -/
def register (start len : Nat) : WorkerM π γ (Except PagerError Unit) :=
  callPages (Paging.register start len) (.register start len)

def unregister (start len : Nat) : WorkerM π γ (Except PagerError Unit) :=
  callPages (Paging.unregister start len) (.unregister start len)

def zero (start len : Nat) : WorkerM π γ (Except PagerError Unit) :=
  callBreakable (Paging.zero start len) (.zero start len)

def install (start : Nat) (content : Bytes) : WorkerM π γ (Except PagerError Bool) :=
  callPages (Paging.install start content) (.install start content)

def discard (start len : Nat) : WorkerM π γ (Except PagerError Unit) :=
  callPages (Paging.discard start len) (.discard start len)

def readResident (start len : Nat) : WorkerM π γ (Except PagerError Bytes) :=
  callPages (Paging.readResident start len) (.readResident start len)

/-- Takes the reported accesses. -/
def readFaults : WorkerM π γ (Except PagerError (List Nat × Bool)) :=
  callPages Paging.readFaults .readFaults

omit [Paging π]

/-- The books balance if the bytes in use are those of the live records, and are
within the budget. -/
def checkTotals : WorkerM π γ Unit := do
  let w ← get
  let live ← checked w.ring.liveBytes
  ensure (w.used == live) .unbalanced
  ensure (w.used ≤ w.limits.high) .overBudget

end Worker
end DemandPager
