/-
# The event loop

The worker waits for events: faults that the memory reports, and rings of the
doorbell of the exchange. What the waits bring, and what callers and the host do
meanwhile, is given by a script, one `Turn` for each wait. A wait for which there
is no turn fails.

A wait that runs out of time sweeps the queue, in case a ring was missed. A wait
that is interrupted is repeated, but not more than a given number of times in a
row.

Key definitions: `Turn`, `Worker.serveTokens`, `Worker.eventLoop`, `Worker.serve`.
-/
import DemandPager.Worker.Control

namespace DemandPager

def faultToken : Nat := 0

def controlToken : Nat := 1

inductive WaitOutcome
  | ready (tokens : List Nat)
  | timedOut
  | interrupted
  | failed (cause : IoCause)
deriving DecidableEq, Repr

/-- One wait for events, and what happens before it ends. -/
structure Turn (π γ : Type) where
  /-- What the host does to the memory. -/
  meanwhile : π → π := id
  /-- What callers ask for. -/
  requests : List (Request γ) := []
  outcome : WaitOutcome
  /-- How the host answers when the rings of the doorbell are taken. -/
  bell : Except IoCause Unit := .ok ()

/-- Waits for which there is no turn fail with this cause. -/
def scriptExhausted : IoCause := .text "script exhausted"

namespace Worker

variable {π γ : Type} [Paging π]

omit [Paging π] in
def arrive (turn : Turn π γ) : WorkerM π γ Unit :=
  modify fun w => w.onSite fun s =>
    { s with pages := turn.meanwhile s.pages }.submitAll turn.requests

def handleFaults : List Nat → WorkerM π γ Unit
  | [] => pure ()
  | address :: rest => do
    handleFault address
    handleFaults rest

/-- Takes and handles the reported faults. The worker cannot go on when there will
be no more reports. -/
def serveFaults : WorkerM π γ Unit := do
  let (addresses, isOpen) ← settle (← readFaults)
  handleFaults addresses
  if !isOpen then
    refuse (.unsupported "userfaultfd closed")

omit [Paging π] in
/-- Takes the rings of the doorbell, if the host lets it be read. -/
def answerBell (bell : Except IoCause Unit) : WorkerM π γ Unit :=
  match bell with
  | .ok () => modify (·.onExchange fun x => { x with channel := x.channel.answerBell.2 })
  | .error cause => refuse (.io cause)

/-- Serves what the tokens stand for; an unknown token stands for nothing. A request
to shut down makes the tokens after it void. -/
def serveTokens (bell : Except IoCause Unit) : List Nat → WorkerM π γ Unit
  | [] => pure ()
  | token :: rest => do
    if token = faultToken then
      serveFaults
      serveTokens bell rest
    else if token = controlToken then
      answerBell bell
      match ← drainControl with
      | .stop => pure ()
      | .proceed => serveTokens bell rest
    else
      serveTokens bell rest

/-- Counts an interrupted wait; the answer is how many there were in a row. -/
def bearInterrupt (o : Options) (interrupts : Nat) : WorkerM π γ Nat := do
  let interrupts := interrupts + 1
  ensure (interrupts < halfWordBound) .overflow
  if o.maxInterrupts < interrupts then
    refuse (.interruptStorm interrupts)
  return interrupts

/-- Waits and serves until the worker is asked to stop, or something fails.
`interrupts` counts the interrupted waits in a row. -/
def eventLoop (o : Options) : (script : List (Turn π γ)) → (interrupts : Nat) → WorkerM π γ Unit
  | script, interrupts => do
    if (← get).phase = .running then
      note (.wait o.pollTimeout)
      match script with
      | [] => refuse (.io scriptExhausted)
      | turn :: rest =>
        arrive turn
        match turn.outcome with
        | .failed cause => refuse (.io cause)
        | .interrupted => eventLoop o rest (← bearInterrupt o interrupts)
        | .timedOut =>
          match ← drainControl with
          | .stop => pure ()
          | .proceed => eventLoop o rest 0
        | .ready tokens =>
          serveTokens turn.bell tokens
          eventLoop o rest 0

/-- Ends the serving: faults are not waited for any more, and everything is torn
down. `forgotten` tells whether the host agrees to the former; it does not matter. -/
def windUp (forgotten : Except PagerError Unit) : WorkerM π γ Unit := do
  note (.forget faultToken forgotten)
  shutdown

/-- Serves a script and winds up, however the serving ends. -/
def serve (o : Options) (script : List (Turn π γ)) (forgotten : Except PagerError Unit) :
    WorkerM π γ Unit := do
  let outcome ← attempt (eventLoop o script 0)
  windUp forgotten
  settle outcome

end Worker
end DemandPager
