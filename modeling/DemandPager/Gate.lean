/-
# The gate of an object

Every access to the memory of an object goes through its gate: the accessor takes
the gate while the object is alive (`Gate.enter`), copies, and looks on the way
out whether the object was being unmapped meanwhile (`Gate.leave`). Then the copy
may have met zero pages, so the access reports no success.

The worker retires an object before it gives its memory back. While the memory is
being unmapped the gate says so, and a refused unmapping is taken back.

Key definitions: `Gate`, `Gate.enter`, `Gate.leave`, `Gate.retire`, `Gate.revive`,
`Gate.beginUnmap`, `Gate.abortUnmap`.
-/
import DemandPager.Error

namespace DemandPager

/-- Whether the memory of an object may be accessed. -/
structure Gate where
  owner : Nat
  /-- Whether accesses may begin. -/
  alive : Bool := true
  /-- Whether the worker is unmapping the memory. -/
  unmapping : Bool := false
deriving DecidableEq, Repr, Inhabited

namespace Gate

/-- An access may begin while the object is alive. -/
def enter (g : Gate) : Except PagerError Unit :=
  if g.alive then .ok () else .error (.destroyed g.owner)

/-- An access succeeds if nobody unmaps the memory when it ends. -/
def leave (g : Gate) : Except PagerError Unit :=
  if g.unmapping then .error .shuttingDown else .ok ()

def retire (g : Gate) : Gate := { g with alive := false }

def revive (g : Gate) : Gate := { g with alive := true }

def beginUnmap (g : Gate) : Gate := { g with unmapping := true }

def abortUnmap (g : Gate) : Gate := { g with unmapping := false }

end Gate
end DemandPager
