/-
# Errands

Other threads can come between the steps of an operation of the worker. An errand is an
operation cut into the parts that no other thread sees half done: a part calls the memory
or a callback at most once, or does what only the worker knows of, and each change of a
gate is a part of its own. To run the parts of an errand one after the other is to run the
operation (`Worker.run_freeErrand`, `Worker.run_shutdownErrand`, ...).

Key definitions: `GateTurn`, `Errand`, `Errand.run`, `Worker.writeBackErrand`,
`Worker.evictErrand`, `Worker.freeErrand`, `Worker.shutdownErrand`, `Worker.serveErrand`.
Key theorems: `Errand.run_bind`, `Errand.run_attempt`, `Worker.run_freeErrand`,
`Worker.run_shutdownErrand`.
-/
import DemandPager.Worker.Loop

namespace DemandPager

variable {π γ α β : Type}

/-- What the worker does to the gate of an object that it releases. -/
inductive GateTurn
  | beginUnmap
  | abortUnmap
  | retire
deriving DecidableEq, Repr

/-- The gate after a turn. -/
def GateTurn.apply : GateTurn → Gate → Gate
  | .beginUnmap => Gate.beginUnmap
  | .abortUnmap => Gate.abortUnmap
  | .retire => Gate.retire

/-- An operation of the worker, cut into parts. -/
inductive Errand (π γ α : Type) : Type 1
  /-- Nothing is left to do. -/
  | ret (a : α)
  /-- A part that touches no gate, and what is left after it. -/
  | part {β : Type} (step : WorkerM π γ β) (next : β → Errand π γ α)
  /-- The gate of the object at `start` is turned; it is the gate of the given number. -/
  | turn (start number : Nat) (turn : GateTurn) (next : Errand π γ α)

namespace Errand

/-- One errand after the other. -/
def bind : Errand π γ α → (α → Errand π γ β) → Errand π γ β
  | .ret a, next => next a
  | .part step rest, next => .part step fun b => (rest b).bind next
  | .turn start number t rest, next => .turn start number t (rest.bind next)

instance : Monad (Errand π γ) where
  pure := .ret
  bind := Errand.bind

/-- A step as an errand of one part. -/
def lift (step : WorkerM π γ α) : Errand π γ α := .part step .ret

/-- A turn of a gate as an errand. -/
def gate (start number : Nat) (t : GateTurn) : Errand π γ Unit := .turn start number t (.ret ())

/-- An errand whose error is an answer and not the end. -/
def attempt : Errand π γ α → Errand π γ (Except PagerError α)
  | .ret a => .ret (.ok a)
  | .part step next => .part (Worker.attempt step) fun
    | .ok b => (next b).attempt
    | .error cause => .ret (.error cause)
  | .turn start number t next => .turn start number t next.attempt

/-- All parts, one after the other, with nothing between them. -/
def run : Errand π γ α → WorkerM π γ α
  | .ret a => pure a
  | .part step next => step >>= fun b => (next b).run
  | .turn _ number t next => Worker.changeGate number t.apply >>= fun _ => next.run

@[simp] theorem run_pure (a : α) : (pure a : Errand π γ α).run = pure a := rfl

@[simp] theorem run_lift (step : WorkerM π γ α) : (lift step).run = step := by
  simp only [lift, run, bind_pure]

@[simp] theorem run_gate (start number : Nat) (t : GateTurn) :
    (gate start number t : Errand π γ Unit).run = Worker.changeGate number t.apply :=
  bind_pure (Worker.changeGate number t.apply)

@[simp] theorem run_bind (p : Errand π γ α) (next : α → Errand π γ β) :
    (p >>= next).run = p.run >>= fun a => (next a).run := by
  show (p.bind next).run = _
  induction p with
  | ret a => simp only [bind, run, pure_bind]
  | part step rest ih => simp only [bind, run, ih, bind_assoc]
  | turn start number t rest ih => simp only [bind, run, ih, bind_assoc]

/-- To try two steps in a row is to try the first, and the second if the first succeeds. -/
theorem attempt_bind (act : WorkerM π γ α) (next : α → WorkerM π γ β) :
    Worker.attempt (act >>= next) = Worker.attempt act >>= fun
      | .ok a => Worker.attempt (next a)
      | .error cause => pure (.error cause) := by
  funext w
  show Worker.attempt (EStateM.bind act next) w = EStateM.bind (Worker.attempt act) _ w
  unfold Worker.attempt EStateM.bind
  cases hact : act w with
  | ok a v => simp only [hact]
  | error f v =>
    cases f with
    | error cause =>
      simp only [hact]
      rfl
    | abort breach => simp only [hact]

@[simp] theorem run_attempt (p : Errand π γ α) : p.attempt.run = Worker.attempt p.run := by
  induction p with
  | ret a => rfl
  | part step next ih =>
    simp only [attempt, run, attempt_bind]
    congr 1
    funext result
    cases result with
    | ok b => exact ih b
    | error cause => rfl
  | turn start number t next ih =>
    simp only [attempt, run, ih, attempt_bind]
    rfl

end Errand

namespace Worker

open Errand (lift gate)

variable [Paging π]

/-! ### Handing chunks over -/

/-- Reads the resident chunk at an address, if the owner of its object wants it. -/
def snapshot (address : Nat) : WorkerM π γ (Option (FaultSite γ × Bytes)) := do
  match (← get).objects.find? address with
  | none => refuse (.unknownAddress address)
  | some entry =>
    if entry.value.wantsWriteBack then
      let chunk ← checked (locateChunk entry address)
      ensure (chunk.bodyStart + chunk.span.offset == address) .misplaced
      let bytes ← spillResident address (chunk.span.count * chunk.object.geometry.stride)
      return some (chunk, bytes)
    else
      return none

omit [Paging π] in
/-- Hands the bytes of a chunk to the owner of its object. -/
def deliver (chunk : FaultSite γ) (bytes : Bytes) : WorkerM π γ Unit := do
  handOver chunk.object chunk.span bytes
  count .writeBack

/-- A chunk is read, and then it is handed over. -/
def writeBackErrand (address : Nat) : Errand π γ Unit := do
  match ← lift (snapshot address) with
  | none => pure ()
  | some (chunk, bytes) => lift (deliver chunk bytes)

/-- The oldest record is taken, its chunk is handed over, and then it is dropped. -/
def evictErrand : Errand π γ Unit := do
  let record ← lift do
    let (record, ring) ← settle ((← get).ring.pop)
    modify fun w => { w with ring }
    return record
  if record.isLive then
    writeBackErrand record.address
    lift (dropChunk record)

/-- The chunks at the given addresses are handed over, one after the other. -/
def writeBackAllErrand : List Nat → Errand π γ Unit
  | [] => pure ()
  | address :: rest => do
    writeBackErrand address
    writeBackAllErrand rest

/-- The resident chunks of an object are handed over, if its owner wants them. -/
def handOverAllErrand (entry : Interval (Object γ)) : Errand π γ Unit := do
  if entry.value.wantsWriteBack then
    writeBackAllErrand (← lift (return (← get).residentChunks entry.value.id))

/-! ### Releasing -/

/-- The gate says that the memory is being unmapped, the registration is taken back, and
then the gate is retired. A refusal is taken back. -/
def unmapErrand (entry : Interval (Object γ)) : Errand π γ Unit := do
  gate entry.start entry.value.gate .beginUnmap
  match ← lift (unregister entry.start entry.len) with
  | .ok () => gate entry.start entry.value.gate .retire
  | .error cause =>
    gate entry.start entry.value.gate .abortUnmap
    lift (refuse cause)

/-- The object goes off the books, its memory is given back, and its destructor runs. -/
def dischargeErrand (entry : Interval (Object γ)) : Errand π γ Unit := do
  let object ← lift (strike entry.value.id entry.start)
  let _ ← lift (release entry.start entry.len)
  lift do
    finish object
    count .free
    checkTotals

/-- An object is released. -/
def freeErrand (id start : Nat) : Errand π γ Unit := do
  match ← lift (return (← get).objectAt id start) with
  | none => lift (refuse (.unknownAddress start))
  | some entry =>
    handOverAllErrand entry
    unmapErrand entry
    dischargeErrand entry

/-! ### The teardown -/

/-- The given objects are released; a refused release leaves the object. -/
def freeAllErrand : List (Interval (Object γ)) → Errand π γ Unit
  | [] => pure ()
  | entry :: rest => do
    let _ ← (freeErrand entry.value.id entry.start).attempt
    freeAllErrand rest

/-- An object that could not be released in order is given up. -/
def abandonErrand (entry : Interval (Object γ)) : Errand π γ Unit := do
  gate entry.start entry.value.gate .beginUnmap
  match ← lift (unregister entry.start entry.len) with
  | .ok () =>
    gate entry.start entry.value.gate .retire
    let _ ← lift (release entry.start entry.len)
  | .error _ => pure ()
  lift (finish entry.value)

/-- The given objects are given up. -/
def abandonAllErrand : List (Interval (Object γ)) → Errand π γ Unit
  | [] => pure ()
  | entry :: rest => do
    abandonErrand entry
    abandonAllErrand rest

omit [Paging π] in
/-- Messages that come too late are answered. -/
def dismissAllErrand : List (Message γ) → Errand π γ Unit
  | [] => pure ()
  | message :: rest => do
    lift (dismiss message)
    dismissAllErrand rest

/-- Everything is torn down. -/
def shutdownErrand : Errand π γ Unit := do
  lift (modify fun w => { w with phase := .shuttingDown })
  lift (modify (·.onExchange fun x => { x with stopping := true }))
  freeAllErrand (← lift (return (← get).objects.toList))
  let left ← lift do
    let left := (← get).objects.toList
    modify fun w => { w with objects := .empty }
    return left
  abandonAllErrand left
  lift (modify (·.onExchange fun x => { x with index := .empty }))
  lift (modify fun w => { w with ring := .ofCapacity 1, used := 0 })
  let late ← lift do
    let (late, channel) := (← get).exchange.channel.closeAndDrain
    modify (·.onExchange fun x => { x with channel })
    return late
  dismissAllErrand late
  lift (modify fun w => { w with scratch := {}, spill := {}, phase := .terminated })

/-! ### Serving -/

/-- A message is served. The creation of an object is not cut. -/
def serveErrand : Message γ → Errand π γ Flow
  | .allocate object ticket => lift (serveMessage (.allocate object ticket))
  | .free id start ticket => do
    lift (note (.serve ticket))
    match ← (freeErrand id start).attempt with
    | .ok () => lift (reply ticket .released)
    | .error cause => lift (reply ticket (.refused cause))
    return .proceed
  | .shutdown => lift (serveMessage .shutdown)

/-! ### The operations are their parts -/

theorem run_writeBackErrand (address : Nat) :
    (writeBackErrand address : Errand π γ Unit).run = writeBackChunk address := by
  unfold writeBackErrand snapshot writeBackChunk
  simp only [Errand.run_bind, Errand.run_lift, bind_assoc]
  congr 1
  funext w
  cases w.objects.find? address with
  | none => rfl
  | some entry =>
    by_cases hwants : entry.value.wantsWriteBack
    · simp only [hwants, if_true, bind_assoc, pure_bind, Errand.run_lift]
      rfl
    · simp only [hwants]
      rfl

theorem run_evictErrand : (evictErrand : Errand π γ Unit).run = dropOldest := by
  unfold evictErrand dropOldest
  simp only [Errand.run_bind, Errand.run_lift, bind_assoc, pure_bind]
  congr 1
  funext w
  congr 1
  funext popped
  congr 1
  funext _
  split
  · simp only [Errand.run_bind, Errand.run_lift, run_writeBackErrand]
  · rfl

theorem run_writeBackAllErrand : ∀ addresses : List Nat,
    (writeBackAllErrand addresses : Errand π γ Unit).run = writeBackAll addresses
  | [] => rfl
  | address :: rest => by
    unfold writeBackAllErrand writeBackAll
    rw [Errand.run_bind, run_writeBackErrand, run_writeBackAllErrand rest]

theorem run_handOverAllErrand (entry : Interval (Object γ)) :
    (handOverAllErrand entry : Errand π γ Unit).run = handOverAll entry := by
  unfold handOverAllErrand handOverAll
  split
  · simp only [Errand.run_bind, Errand.run_lift, run_writeBackAllErrand, bind_assoc, pure_bind]
  · rfl

theorem run_unmapErrand (entry : Interval (Object γ)) :
    (unmapErrand entry : Errand π γ Unit).run = unmap entry.start entry.len entry.value.gate := by
  unfold unmapErrand unmap
  simp only [Errand.run_bind, Errand.run_gate, Errand.run_lift]
  congr 1
  funext _
  congr 1
  funext result
  cases result with
  | ok => exact Errand.run_gate ..
  | error cause =>
    rw [Errand.run_bind, Errand.run_gate]
    rfl

theorem run_dischargeErrand (entry : Interval (Object γ)) :
    (dischargeErrand entry : Errand π γ Unit).run = discharge entry := by
  unfold dischargeErrand discharge
  simp only [Errand.run_bind, Errand.run_lift]

theorem run_freeErrand (id start : Nat) :
    (freeErrand id start : Errand π γ Unit).run = free id start := by
  unfold freeErrand free
  simp only [Errand.run_bind, Errand.run_lift, bind_assoc, pure_bind]
  congr 1
  funext w
  cases w.objectAt id start with
  | none => exact Errand.run_lift _
  | some entry =>
    simp only [Errand.run_bind, run_handOverAllErrand, run_unmapErrand, run_dischargeErrand]

theorem run_freeAllErrand : ∀ entries : List (Interval (Object γ)),
    (freeAllErrand entries : Errand π γ Unit).run = freeAll entries
  | [] => rfl
  | entry :: rest => by
    unfold freeAllErrand freeAll
    simp only [Errand.run_bind, Errand.run_attempt, run_freeErrand, run_freeAllErrand rest]

theorem run_abandonErrand (entry : Interval (Object γ)) :
    (abandonErrand entry : Errand π γ Unit).run = abandon entry := by
  unfold abandonErrand abandon
  simp only [Errand.run_bind, Errand.run_gate, Errand.run_lift]
  congr 1
  funext _
  congr 1
  funext result
  cases result with
  | ok =>
    simp only [Errand.run_bind, Errand.run_gate, Errand.run_lift]
    rfl
  | error cause => exact Errand.run_lift _

theorem run_abandonAllErrand : ∀ entries : List (Interval (Object γ)),
    (abandonAllErrand entries : Errand π γ Unit).run = abandonAll entries
  | [] => rfl
  | entry :: rest => by
    unfold abandonAllErrand abandonAll
    rw [Errand.run_bind, run_abandonErrand, run_abandonAllErrand rest]

omit [Paging π] in
theorem run_dismissAllErrand : ∀ messages : List (Message γ),
    (dismissAllErrand messages : Errand π γ Unit).run = dismissAll messages
  | [] => rfl
  | message :: rest => by
    unfold dismissAllErrand dismissAll
    rw [Errand.run_bind, Errand.run_lift, run_dismissAllErrand rest]

theorem run_shutdownErrand : (shutdownErrand : Errand π γ Unit).run = shutdown := by
  unfold shutdownErrand shutdown
  simp only [Errand.run_bind, Errand.run_lift, run_freeAllErrand, run_abandonAllErrand,
    run_dismissAllErrand, bind_assoc, pure_bind]

theorem run_serveErrand (message : Message γ) :
    (serveErrand message : Errand π γ Flow).run = serveMessage message := by
  cases message with
  | allocate object ticket => exact Errand.run_lift _
  | free id start ticket =>
    unfold serveErrand serveMessage serveRequest
    simp only [Errand.run_bind, Errand.run_lift, Errand.run_attempt, run_freeErrand,
      Errand.attempt_bind, bind_assoc]
    congr 1
    funext _
    congr 1
    funext result
    cases result with
    | ok => rfl
    | error cause => rfl
  | shutdown => exact Errand.run_lift _

end Worker
end DemandPager
