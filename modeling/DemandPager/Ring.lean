/-
# The eviction ring

The chunks that were made resident, oldest first, in a circular buffer: `head` is
the slot of the oldest record, and the `length` records lie in the slots from
there on, around the end of the buffer. A record whose size is zero was retired:
its chunk is gone, but it keeps its place until it is popped.

`Ring.toList` reads the records through the circular index. Updates in place
(`Ring.visit`) go over the same slots as two runs, the one from `head` to the end
of the buffer and the one from its beginning (`Ring.visitOrder`).

Key definitions: `ChunkRecord`, `Ring`, `Ring.allocate`, `Ring.toList`, `Ring.push`, `Ring.pop`,
`Ring.retireOwner`, `Ring.liveBytes`.
-/
import DemandPager.Word

namespace DemandPager

/-- A chunk that was made resident for its owner. -/
structure ChunkRecord where
  address : Nat
  /-- Resident bytes; zero once retired. -/
  size : Nat
  /-- The object the chunk belongs to. -/
  owner : Nat
deriving DecidableEq, Repr, Inhabited

/-- A record is live while it accounts for resident bytes. -/
def ChunkRecord.isLive (r : ChunkRecord) : Bool := 0 < r.size

structure Ring where
  slots : Array (Option ChunkRecord)
  head : Nat
  length : Nat
deriving Repr

namespace Ring

/-- An empty ring; it has at least one slot. -/
def ofCapacity (capacity : Nat) : Ring :=
  { slots := Array.replicate (max capacity 1) none, head := 0, length := 0 }

def slotBytes : Nat := 32

/-- An empty ring, if there can be so many slots. -/
def allocate (capacity : Nat) : Checked Ring :=
  if Word.isAllocatable (max capacity 1 * slotBytes) then
    .ok (ofCapacity capacity)
  else
    .abort .capacity

def capacity (r : Ring) : Nat := r.slots.size

/-- Whether there is no record, live or retired. -/
def isEmpty (r : Ring) : Bool := r.length == 0

/-- The slot that is `i` places after the oldest record. -/
def slotAt (r : Ring) (i : Nat) : Option ChunkRecord :=
  r.slots.getD ((r.head + i) % r.capacity) none

/-- The records, oldest first. -/
def toList (r : Ring) : List ChunkRecord := (List.range r.length).filterMap r.slotAt

/-- Twice the slots, with the records moved to the beginning of the buffer. -/
def grow (r : Ring) : Ring :=
  { slots := Array.ofFn fun i : Fin (2 * r.capacity) =>
      if i.val < r.length then r.slotAt i.val else none
    head := 0
    length := r.length }

/-- Puts a record into the slot after the newest one. -/
def place (r : Ring) (record : ChunkRecord) : Ring :=
  { r with
    slots := r.slots.setIfInBounds ((r.head + r.length) % r.capacity) (some record)
    length := r.length + 1 }

/-- Appends a record as the newest one. A full ring grows if it may. -/
def push (r : Ring) (record : ChunkRecord) (mayGrow : Bool) : Except PagerError Ring :=
  if r.length = r.capacity then
    if mayGrow then .ok (r.grow.place record) else .error .ringExhausted
  else
    .ok (r.place record)

def pop (r : Ring) : Except PagerError (ChunkRecord × Ring) :=
  if r.length = 0 then
    .error .ringEmpty
  else
    match r.slots.getD r.head none with
    | none => .error .ringEmpty
    | some record => .ok (record,
        { slots := r.slots.setIfInBounds r.head none
          head := (r.head + 1) % r.capacity
          length := r.length - 1 })

/-- The slots of the records, oldest first, in two runs. -/
def visitOrder (r : Ring) : List Nat :=
  let first := min (r.capacity - r.head) r.length
  List.range' r.head first ++ List.range (r.length - first)

/-- Updates the records in the given slots one after the other, with an
accumulator, until an update breaks off. -/
def visitSlots {σ : Type} (f : σ → ChunkRecord → Checked (σ × ChunkRecord)) :
    List Nat → σ → Array (Option ChunkRecord) → Checked σ × Array (Option ChunkRecord)
  | [], acc, slots => (.ok acc, slots)
  | p :: ps, acc, slots =>
    match slots.getD p none with
    | none => visitSlots f ps acc slots
    | some record =>
      match f acc record with
      | .error failure => (.error failure, slots)
      | .ok (acc, record) => visitSlots f ps acc (slots.setIfInBounds p (some record))

/-- Updates all records, oldest first. The updates made before one breaks off
stay. -/
def visit {σ : Type} (f : σ → ChunkRecord → Checked (σ × ChunkRecord)) (acc : σ) (r : Ring) :
    Checked σ × Ring :=
  let (result, slots) := visitSlots f r.visitOrder acc r.slots
  (result, { r with slots })

/-- Zeroes a record of the owner and adds what it held. -/
def retireRecord (owner released : Nat) (record : ChunkRecord) : Checked (Nat × ChunkRecord) := do
  if record.owner = owner then
    return (← Word.add released record.size, { record with size := 0 })
  else
    return (released, record)

/-- Retires all records of an owner; the result is the bytes they held. -/
def retireOwner (r : Ring) (owner : Nat) : Checked Nat × Ring := r.visit (retireRecord owner) 0

/-- The bytes that the live records account for. -/
def liveBytes (r : Ring) : Checked Nat :=
  r.toList.foldlM (fun sum record => Word.add sum record.size) 0

end Ring
end DemandPager
