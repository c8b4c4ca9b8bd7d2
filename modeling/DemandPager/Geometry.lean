/-
# The geometry of an object

An object is a reservation of whole pages: a header, padded in front to whole
pages, then a body of `count` elements of `stride` bytes each.

    start      start + paddedHeader - headerSize      start + paddedHeader
      |  padding  |  header                             |  body ...

The body is loaded in chunks of `loadCount` elements, the last chunk being
shorter. `Geometry.build` picks `loadCount` so that every chunk begins on a page,
and refuses a geometry whose sizes are no words. `Geometry.locate` finds the
chunk of a body offset.

Key definitions: `Geometry`, `Geometry.build`, `Geometry.bodyLen`,
`Geometry.trueSize`, `Geometry.chunkBytes`, `Span`, `Geometry.locate`.
-/
import DemandPager.Word

namespace DemandPager

def hostPageSize : Nat := 4096

/-- The bytes that an object loads at a time if nothing else is asked for. -/
def defaultLoadBytes : Nat := 1048576

structure Geometry where
  pageSize : Nat
  headerSize : Nat
  /-- Bytes of the header with its padding: whole pages. -/
  paddedHeader : Nat
  count : Nat
  stride : Nat
  /-- Elements of a full chunk. -/
  loadCount : Nat
  /-- Whether the body may only be read. -/
  readOnly : Bool
deriving DecidableEq, Repr, Inhabited

namespace Geometry

/-- Elements per step of the chunk size. A stride that is a power of two below
the page size steps by a page's worth of elements; every other stride steps by
the fewest elements that fill whole pages. -/
def loadStep (pageSize stride : Nat) : Checked Nat := do
  let common := Nat.gcd pageSize stride
  if stride < pageSize then
    let scaled ← Word.mul pageSize common
    if scaled % stride = 0 then
      return scaled / stride
  return pageSize / common

/-- The least multiple of the step that holds the requested elements, if that is
a word. -/
def loadCountFor (step requested : Nat) : Checked Nat := do
  let steps ← Word.ceilDiv requested step
  if step * steps < wordBound then
    return step * steps
  Checked.refuse (.invalidConfig "load count overflows")

/-- The geometry of a read-only object. `minLoad` is the least number of elements
of a chunk; without it a chunk holds about `defaultLoadBytes`. -/
def build (pageSize headerSize count stride : Nat) (minLoad : Option Nat) :
    Checked Geometry := do
  if stride < 1 then
    Checked.refuse (.invalidConfig "stride must be at least 1")
  if pageSize = 0 || !Word.isPowerOfTwo pageSize then
    Checked.refuse (.invalidConfig "page size must be a power of two")
  let paddedHeader ← Word.roundUp headerSize pageSize
  let step ← loadStep pageSize stride
  let loadCount ← loadCountFor step (max (minLoad.getD (defaultLoadBytes / stride)) 1)
  if wordBound ≤ count * stride then
    Checked.refuse (.invalidConfig "object body overflows")
  let total := paddedHeader + (← Word.roundUp (count * stride) pageSize)
  if wordBound ≤ total then
    Checked.refuse (.invalidConfig "object size overflows")
  if total = 0 then
    Checked.refuse (.invalidConfig "object has no header and no body")
  return { pageSize, headerSize, paddedHeader, count, stride, loadCount, readOnly := true }

def setWritable (g : Geometry) (writable : Bool) : Geometry := { g with readOnly := !writable }

/-- Bytes of the body, without the rounding to whole pages. -/
def bodyLen (g : Geometry) : Nat := g.count * g.stride

def pagedBody (g : Geometry) : Nat := (g.bodyLen + g.pageSize - 1) / g.pageSize * g.pageSize

/-- Bytes of the reservation. -/
def trueSize (g : Geometry) : Nat := g.paddedHeader + g.pagedBody

/-- Bytes of a full chunk in whole pages; no chunk of the object is larger. -/
def chunkBytes (g : Geometry) : Checked Nat := do
  Word.roundUp (← Word.mul (min g.loadCount (max g.count 1)) g.stride) g.pageSize

end Geometry

/-- A chunk of a body: where it begins, which elements it holds and how many bytes
it takes in whole pages. -/
structure Span where
  /-- Offset of the chunk in the body. -/
  offset : Nat
  first : Nat
  count : Nat
  bytes : Nat
deriving DecidableEq, Repr

/-- The element after the last. -/
def Span.stop (s : Span) : Nat := s.first + s.count

/-- The chunk that covers a body offset; none if the chunk that would cover it
begins after the last element. -/
def Geometry.locate (g : Geometry) (offset : Nat) : Checked (Option Span) := do
  let fullBytes ← Word.mul g.loadCount g.stride
  let boundary ← Word.roundDown offset fullBytes
  let first := boundary / g.stride
  if g.count ≤ first then
    return none
  let count := min g.loadCount (g.count - first)
  let bytes ← Word.roundUp (← Word.mul count g.stride) g.pageSize
  return some { offset := boundary, first, count, bytes }

end DemandPager
