/-
# Errors

What a pager can refuse, and why. A `PagerError` is a cause with the data that
belongs to it; its wording is in one function, `PagerError.message`. A cause is
fatal (`PagerError.isFatal`) if the worker that meets it stops.

A step of the pager ends in one of three ways: it succeeds, it fails with a
cause, or it breaks off because a sanity check does not hold. The last two are
the two constructors of `Failure`; a `Breach` names the check.

Key definitions: `IoCause`, `PagerError`, `PagerError.message`,
`PagerError.isFatal`, `Breach`, `Failure`, `Checked`.
-/
import DemandPager.Errno

namespace DemandPager

/-- Why a call to the host failed: a number it reported, or a plain text. -/
inductive IoCause
  | code (number : Int)
  | text (message : String)
deriving DecidableEq, Repr

/-- The wording of a host failure; a number is repeated after its wording. -/
def IoCause.message : IoCause → String
  | .code n => Errno.text n ++ " (os error " ++ toString n ++ ")"
  | .text t => t

/-- The causes for which the pager refuses an operation. -/
inductive PagerError
  | io (cause : IoCause)
  /-- A geometry or a budget was rejected. -/
  | invalidConfig (reason : String)
  /-- The budget may be set only once. -/
  | limitsAlreadySet
  /-- The pager stopped, or is stopping. -/
  | shuttingDown
  /-- One chunk alone exceeds the budget. -/
  | chunkTooLarge (chunk highWater : Nat)
  | unknownAddress (address : Nat)
  /-- An interval meets one that is already recorded. -/
  | overlap (start len : Nat)
  /-- The eviction ring is full and may not grow. -/
  | ringExhausted
  | ringEmpty
  /-- A source of content gave up, with this explanation. -/
  | populate (reason : String)
  /-- So many waits in a row were interrupted. -/
  | interruptStorm (count : Nat)
  /-- The host does not offer a service the pager needs. -/
  | unsupported (what : String)
  | workerPanicked
  | alreadyStarted
  | notStarted
  | outOfBounds (offset len : Nat)
  | destroyed (id : Nat)
  | readOnly (id : Nat)
  | invalidOptions (reason : String)
deriving DecidableEq, Repr

/-- A host failure with a reported number. -/
def PagerError.ofCode (number : Int) : PagerError := .io (.code number)

/-- A number in base sixteen, with the mark of the base. -/
def hexText (n : Nat) : String := "0x" ++ String.ofList (Nat.toDigits 16 n)

/-- The wording of an error. Addresses are written in base sixteen, all other
numbers in base ten. -/
def PagerError.message : PagerError → String
  | .io cause => "IO: " ++ cause.message
  | .invalidConfig reason => "invalid config: " ++ reason
  | .limitsAlreadySet => "memory limits can only be set once"
  | .shuttingDown => "instance shutting down"
  | .chunkTooLarge chunk high =>
    s!"chunk of {chunk} bytes exceeds high water mark of {high} bytes"
  | .unknownAddress address => "no object registered at address " ++ hexText address
  | .overlap start len =>
    "interval " ++ hexText start ++ s!"+{len} overlaps a registered object"
  | .ringExhausted => "eviction ring is full and cannot grow"
  | .ringEmpty => "eviction ring is empty"
  | .populate reason => "populate failed: " ++ reason
  | .interruptStorm count => s!"event wait interrupted {count} times in a row"
  | .unsupported what => "unsupported: " ++ what
  | .workerPanicked => "worker thread panicked"
  | .alreadyStarted => "instance already started"
  | .notStarted => "instance not started"
  | .outOfBounds offset len => s!"access of {len} bytes at offset {offset} is out of bounds"
  | .destroyed id => s!"object {id} has been destroyed"
  | .readOnly id => s!"object {id} is read-only"
  | .invalidOptions reason => "invalid options: " ++ reason

/-- An error is fatal if the worker that meets it cannot go on serving. -/
def PagerError.isFatal : PagerError → Bool
  | .io _ | .unknownAddress _ | .ringExhausted | .ringEmpty | .populate _
  | .interruptStorm _ | .workerPanicked => true
  | _ => false

/-- The checks that make a step break off when they do not hold. -/
inductive Breach
  /-- A sum or a product is no word. -/
  | overflow
  | underflow
  | zeroDivisor
  /-- A buffer is larger than any that can be made. -/
  | capacity
  | callback
  | memory
  /-- The address of a record is not where a chunk begins. -/
  | misplaced
  /-- The bytes in use are not those of the live records. -/
  | unbalanced
  /-- The bytes in use exceed the budget. -/
  | overBudget
deriving DecidableEq, Repr

/-- How a step can end without a result. -/
inductive Failure
  /-- It failed with a cause that it reports. -/
  | error (cause : PagerError)
  /-- It broke off: a check does not hold. Whoever runs the step stops with it. -/
  | abort (breach : Breach)
deriving DecidableEq, Repr

abbrev Checked (α : Type) := Except Failure α

def Checked.refuse {α : Type} (cause : PagerError) : Checked α := .error (.error cause)

def Checked.abort {α : Type} (breach : Breach) : Checked α := .error (.abort breach)

end DemandPager
