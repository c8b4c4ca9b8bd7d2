/-
# Rules for content

A family of callbacks that is described by data. The content of an object is a
sequence of bytes; the byte at a position belongs to the element `position / stride`.
A rule says which bytes a callback fills in, and when it gives up. Each object may
have a store: what was handed back to its owner, on top of the plain content.

The client state is a shelf with one record for each object.

Key definitions: `ContentRule`, `ContentRule.fill`, `Store`, `Shelf`,
`Source.callbacks`.
-/
import DemandPager.Object

namespace DemandPager

/-- The bytes that were handed back to an owner, latest first, by their positions. -/
structure Store where
  pieces : List (Nat × Array UInt8) := []
deriving Repr, Inhabited

/-- The plain byte of an element: its number, counted from one. -/
def plainByte (element : Nat) : UInt8 := UInt8.ofNat ((element + 1) % 256)

def Store.byte? (s : Store) (position : Nat) : Option UInt8 :=
  (s.pieces.find? fun p => p.1 ≤ position && position < p.1 + p.2.size).bind
    fun p => p.2[position - p.1]?

def Store.write (s : Store) (position : Nat) (bytes : Bytes) : Store :=
  ⟨(position, bytes.toArray) :: s.pieces⟩

/-- What a callback fills in. -/
inductive ContentRule
  | plain
  /-- The number of the element times `factor`, as a little-endian word, again and
  again. -/
  | scaled (factor : Nat)
  /-- A fixed byte in the first `count` places; the others stay as they are. -/
  | partly (count : Nat)
  /-- What was handed back, and plain bytes elsewhere. -/
  | stored
  /-- Nothing: the callback gives up. -/
  | failing (reason : String)
  /-- Plain bytes before an element; the callback gives up from there on. -/
  | failingFrom (element : Nat) (reason : String)
  /-- Plain bytes, but the callback gives up once, on a given call. -/
  | failingOn (call : Nat) (reason : String)
  /-- Nothing: the callback breaks off. -/
  | breaking
deriving DecidableEq, Repr

def partialByte : UInt8 := 0xaa

def bytesAt (position len : Nat) (f : Nat → UInt8) : Bytes :=
  (List.range len).map fun i => f (position + i)

def plainBytes (stride position len : Nat) : Bytes :=
  bytesAt position len fun p => plainByte (p / stride)

/-- The byte at a position whose element is numbered by multiples of a factor. -/
def scaledByte (factor stride position : Nat) : UInt8 :=
  let word := position / stride * factor % wordBound
  UInt8.ofNat (word >>> (8 * (position % stride % 8)) % 256)

/-- What a rule fills into a target of `len` bytes from an element on; `calls` counts
the calls of the callback, this one included. -/
def ContentRule.fill (rule : ContentRule) (stride first len calls : Nat) (store : Store) :
    FillEnd × Bytes :=
  let position := first * stride
  match rule with
  | .plain => (.filled, plainBytes stride position len)
  | .scaled factor => (.filled, bytesAt position len (scaledByte factor stride))
  | .partly count => (.filled, List.replicate (min count len) partialByte)
  | .stored =>
    (.filled, bytesAt position len fun p => (store.byte? p).getD (plainByte (p / stride)))
  | .failing reason => (.gaveUp reason, [])
  | .failingFrom element reason =>
    if element ≤ first then (.gaveUp reason, [])
    else (.filled, plainBytes stride position len)
  | .failingOn call reason =>
    if calls = call then (.gaveUp reason, [])
    else (.filled, plainBytes stride position len)
  | .breaking => (.broke, [])

/-- What the owner of an object keeps. -/
structure ShelfRecord where
  store : Store := {}
  /-- How often the object was filled. -/
  calls : Nat := 0
deriving Repr, Inhabited

abbrev Shelf := List ShelfRecord

/-- How the callbacks of an object behave. -/
structure Source where
  rule : ContentRule := .plain
  /-- Whether elements are handed back. -/
  writeBack : Bool := false
  destructor : Bool := true
deriving DecidableEq, Repr

/-- The callbacks of an object whose owner has the given number. -/
def Source.callbacks (source : Source) (stride owner : Nat) : Callbacks Shelf where
  populate first _ target shelf :=
    let record := shelf.getD owner {}
    let calls := record.calls + 1
    let (result, written) := source.rule.fill stride first target.length calls record.store
    (result, written, shelf.set owner { record with calls })
  writeBack :=
    if source.writeBack then
      some fun first _ bytes shelf =>
        let record := shelf.getD owner {}
        (.taken, shelf.set owner { record with store := record.store.write (first * stride) bytes })
    else
      none
  destructor := if source.destructor then some id else none

end DemandPager
