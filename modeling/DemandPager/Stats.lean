/-
# Counters of a pager

What the worker did so far, in words that wrap around. Each kind of event raises
its own counters (`Stats.record`).

Key definitions: `Stats`, `WorkEvent`, `Stats.record`, `Stats.summary`.
-/
import DemandPager.Word

namespace DemandPager

structure Stats where
  faults : Nat := 0
  /-- Faults on a chunk that was resident already. -/
  duplicateFaults : Nat := 0
  /-- Chunks that a source filled. -/
  populateCalls : Nat := 0
  chunksInstalled : Nat := 0
  /-- Chunks dropped to stay within the budget. -/
  chunksEvicted : Nat := 0
  /-- Bytes dropped to stay within the budget. -/
  bytesEvicted : Nat := 0
  /-- Chunks handed to write-back hooks. -/
  writeBacks : Nat := 0
  objectsAllocated : Nat := 0
  objectsFreed : Nat := 0
deriving DecidableEq, Repr, Inhabited

inductive WorkEvent
  | fault
  | duplicateFault
  | populate
  | install
  | eviction (bytes : Nat)
  | writeBack
  | allocate
  | free
deriving DecidableEq, Repr

namespace Stats

/-- A counter that was raised by `k`; it wraps around. -/
def bump (counter k : Nat) : Nat := (counter + k) % wordBound

def record (s : Stats) : WorkEvent → Stats
  | .fault => { s with faults := bump s.faults 1 }
  | .duplicateFault => { s with duplicateFaults := bump s.duplicateFaults 1 }
  | .populate => { s with populateCalls := bump s.populateCalls 1 }
  | .install => { s with chunksInstalled := bump s.chunksInstalled 1 }
  | .eviction bytes =>
    { s with
      chunksEvicted := bump s.chunksEvicted 1
      bytesEvicted := bump s.bytesEvicted bytes }
  | .writeBack => { s with writeBacks := bump s.writeBacks 1 }
  | .allocate => { s with objectsAllocated := bump s.objectsAllocated 1 }
  | .free => { s with objectsFreed := bump s.objectsFreed 1 }

def summary (s : Stats) : String :=
  s!"faults={s.faults} dup={s.duplicateFaults} populate={s.populateCalls} " ++
  s!"installed={s.chunksInstalled} evicted={s.chunksEvicted} ({s.bytesEvicted} bytes) " ++
  s!"write_backs={s.writeBacks} objects={s.objectsAllocated}/{s.objectsFreed}"

end Stats
end DemandPager
