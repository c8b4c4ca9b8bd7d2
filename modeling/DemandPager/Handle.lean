/-
# Handles

A handle is what the creator of an object holds: where the object lies and how it
is laid out. It names two regions of the reservation, the body and the header,
each with bounds of its own; the header lies directly in front of the body.

`Handle.permit` checks an access before anything is touched. `Handle.readBuffer`
and `Handle.writeBuffer` are accesses to an object whose memory is a plain buffer.

Key definitions: `Handle`, `Region`, `Handle.permit`, `Handle.readBuffer`,
`Handle.writeBuffer`, `Handle.contains`.
-/
import DemandPager.Bytes
import DemandPager.Gate
import DemandPager.Geometry

namespace DemandPager

inductive Region
  | body
  | header
deriving DecidableEq, Repr

/-- Where a region begins in the reservation. -/
def Geometry.regionStart (g : Geometry) : Region → Nat
  | .body => g.paddedHeader
  | .header => g.paddedHeader - g.headerSize

def Geometry.regionLen (g : Geometry) : Region → Nat
  | .body => g.bodyLen
  | .header => g.headerSize

/-- An object as its creator sees it. -/
structure Handle where
  id : Nat
  /-- Where the reservation begins. -/
  start : Nat
  geometry : Geometry
  /-- The number of the gate of the object. -/
  gate : Nat
deriving DecidableEq, Repr, Inhabited

namespace Handle

def bodyAddress (h : Handle) : Checked Nat := Word.add h.start h.geometry.paddedHeader

def headerAddress (h : Handle) : Checked Nat := do
  Word.sub (← h.bodyAddress) h.geometry.headerSize

def contains (h : Handle) (address : Nat) : Bool :=
  h.start ≤ address && address - h.start < h.geometry.trueSize

def describe (h : Handle) : String :=
  "ObjectHandle \x7b id: ObjectId(" ++ toString h.id ++ "), start: " ++ hexText h.start ++
    ", true_size: " ++ toString h.geometry.trueSize ++ " \x7d"

/-- Whether an access may be tried at all. A body that may only be read refuses
writes whatever their bounds. -/
def permit (h : Handle) (region : Region) (writes : Bool) (offset len : Nat) :
    Except PagerError Unit :=
  if writes && region == .body && h.geometry.readOnly then
    .error (.readOnly h.id)
  else if offset + len ≤ h.geometry.regionLen region then
    .ok ()
  else
    .error (.outOfBounds offset len)

/-- Reads from an object whose memory is a buffer. -/
def readBuffer (h : Handle) (gate : Gate) (region : Region) (offset len : Nat)
    (buffer : Bytes) : Except PagerError Bytes := do
  h.permit region false offset len
  gate.enter
  let copy := buffer.slice (h.geometry.regionStart region + offset) len
  gate.leave
  return copy

/-- Writes to an object whose memory is a buffer. A write that finds the memory
being unmapped has changed the buffer all the same. -/
def writeBuffer (h : Handle) (gate : Gate) (region : Region) (offset : Nat)
    (bytes buffer : Bytes) : Except PagerError Unit × Bytes :=
  match (do h.permit region true offset bytes.length; gate.enter) with
  | .error cause => (.error cause, buffer)
  | .ok () =>
    (gate.leave, buffer.splice (h.geometry.regionStart region + offset) bytes)

end Handle
end DemandPager
