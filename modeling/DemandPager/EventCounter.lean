/-
# Event counters

A counter that other threads raise and its owner drains. It can be waited for:
it is readable while it is not zero. A notification of a counter that stands at
its largest value is dropped, since the owner has a wakeup pending anyway.

Key definitions: `EventCounter.notify`, `EventCounter.drain`,
`EventCounter.readable`, `Descriptors.open`.
-/
import DemandPager.Word

namespace DemandPager

/-- Whether the process may open a further descriptor. -/
inductive Descriptors
  | available
  | spent
deriving DecidableEq, Repr

def Descriptors.open : Descriptors → Except PagerError Unit
  | .available => .ok ()
  | .spent => .error (.ofCode Errno.noDescriptor)

structure EventCounter where
  count : Nat := 0
deriving DecidableEq, Repr, Inhabited

namespace EventCounter

/-- The largest value of a counter. -/
def limit : Nat := wordBound - 2

/-- Raises the counter by one, unless it stands at its largest value. -/
def notify (c : EventCounter) : EventCounter := if c.count < limit then ⟨c.count + 1⟩ else c

def drain (c : EventCounter) : Nat × EventCounter := (c.count, ⟨0⟩)

/-- Whether a wait for the counter ends at once. -/
def readable (c : EventCounter) : Bool := 0 < c.count

theorem readable_notify (c : EventCounter) : c.notify.readable := by
  unfold notify readable
  split
  · exact decide_eq_true (Nat.succ_pos _)
  · rename_i hfull
    have hlimit : 0 < limit := by decide
    exact decide_eq_true (by omega)

end EventCounter
end DemandPager
