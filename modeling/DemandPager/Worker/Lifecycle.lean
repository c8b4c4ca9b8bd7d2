/-
# Creating and releasing objects

`Worker.allocate` reserves and registers the memory of an object and records it;
what was done before a failure is undone. `Worker.free` releases an object: its
resident chunks are handed over, accesses are let go and waited for, and then the
memory is given back.

Key definitions: `Worker.allocate`, `Worker.free`, `Worker.finish`.
-/
import DemandPager.Worker.Fault

namespace DemandPager
namespace Worker

variable {π γ : Type} [Paging π]

/-- Gives a registered reservation back; failures leave it where it is. -/
def unwind (start len : Nat) : WorkerM π γ Unit := do
  let _ ← unregister start len
  let _ ← release start len

/-- Whether an object fits the memory and the budget. -/
def permitObject (object : Object γ) : WorkerM π γ Unit := do
  let w ← get
  if object.geometry.pageSize ≠ Paging.pageSize w.pages then
    refuse (.invalidConfig "object page size differs from host")
  let chunk ← checked object.geometry.chunkBytes
  if w.limits.high < chunk then
    refuse (.chunkTooLarge chunk w.limits.high)

/-- Registers a reservation. One that cannot be registered is given back. -/
def registerOrRelease (start len : Nat) : WorkerM π γ Unit := do
  match ← register start len with
  | .ok () => pure ()
  | .error cause =>
    let _ ← release start len
    refuse cause

/-- Fills the padded header with zeros, if there is one. -/
def zeroHeader (start len header : Nat) : WorkerM π γ Unit := do
  if 0 < header then
    match ← zero start header with
    | .ok () => pure ()
    | .error cause =>
      unwind start len
      refuse cause

def recordObject (start len : Nat) (object : Object γ) : WorkerM π γ Unit := do
  let w ← get
  match w.objects.insert start len object with
  | .ok objects => set { w with objects }
  | .error cause =>
    unwind start len
    refuse cause

/-- Creates an object and answers where it lies. -/
def allocate (object : Object γ) : WorkerM π γ Nat := do
  permitObject object
  let len := object.geometry.trueSize
  let header := object.geometry.paddedHeader
  let start ← settle (← reserve len header (!object.geometry.readOnly))
  registerOrRelease start len
  zeroHeader start len header
  recordObject start len object
  count .allocate
  return start

omit [Paging π] in
def finish (object : Object γ) : WorkerM π γ Unit := do
  match object.callbacks.destructor with
  | none => pure ()
  | some destructor =>
    note (.destructor object.id)
    modify fun w => { w with client := destructor w.client }

def writeBackAll : List Nat → WorkerM π γ Unit
  | [] => pure ()
  | address :: rest => do
    writeBackChunk address
    writeBackAll rest

omit [Paging π] in
/-- The chunks of an object that are resident, oldest first. -/
def residentChunks (w : Worker π γ) (id : Nat) : List Nat :=
  (w.ring.toList.filter fun r => r.owner == id && r.isLive).map (·.address)

/-- Hands the resident chunks of an object over, if its owner wants them. -/
def handOverAll (entry : Interval (Object γ)) : WorkerM π γ Unit := do
  if entry.value.wantsWriteBack then
    writeBackAll ((← get).residentChunks entry.value.id)

omit [Paging π] in
/-- The object of an id that lies exactly at an address. -/
def objectAt (w : Worker π γ) (id start : Nat) : Option (Interval (Object γ)) :=
  (w.objects.find? start).filter fun e => e.start == start && e.value.id == id

/-- Lets the accesses to an object go, unless the memory refuses to. -/
def unmap (start len gate : Nat) : WorkerM π γ Unit := do
  changeGate gate Gate.beginUnmap
  match ← unregister start len with
  | .ok () => changeGate gate Gate.retire
  | .error cause =>
    changeGate gate Gate.abortUnmap
    refuse cause

omit [Paging π] in
/-- Takes an object off the books and answers it. -/
def strike (id start : Nat) : WorkerM π γ (Object γ) := do
  let (object, objects) ← settle ((← get).objects.remove start)
  modify fun w => { w with objects }
  let w ← get
  let (released, ring) := w.ring.retireOwner id
  set { w with ring }
  let used ← checked (Word.sub w.used (← checked released))
  modify fun w => { w with used }
  return object

/-- Takes an object off the books, gives its memory back and runs its destructor. A
refusal to take the memory back only costs address space. -/
def discharge (entry : Interval (Object γ)) : WorkerM π γ Unit := do
  let object ← strike entry.value.id entry.start
  let _ ← release entry.start entry.len
  finish object
  count .free
  checkTotals

def free (id start : Nat) : WorkerM π γ Unit := do
  match (← get).objectAt id start with
  | none => refuse (.unknownAddress start)
  | some entry =>
    handOverAll entry
    unmap entry.start entry.len entry.value.gate
    discharge entry

end Worker
end DemandPager
