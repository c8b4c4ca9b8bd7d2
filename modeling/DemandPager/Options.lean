/-
# Options and the memory budget

`WaterMarks` is the budget of a pager: the resident bytes above which it evicts,
and those it evicts down to. `Options` are the settings of a pager; the two marks
may be among them, then both or neither.

Key definitions: `WaterMarks`, `WaterMarks.ofBytes`, `Options`,
`Options.normalize`, `Options.waterMarks`.
-/
import DemandPager.Word

namespace DemandPager

/-- The budget for resident chunks, in bytes. -/
structure WaterMarks where
  /-- A chunk that would bring the usage above this mark makes others go. -/
  high : Nat
  /-- Chunks go until the new one fits under this mark. -/
  low : Nat
deriving DecidableEq, Repr, Inhabited

/-- A budget; the high mark has to exceed the low one. -/
def WaterMarks.ofBytes (high low : Nat) : Except PagerError WaterMarks :=
  if high ≤ low then
    .error (.invalidConfig "high water mark must exceed low water mark")
  else
    .ok { high, low }

structure Options where
  /-- Slots that the eviction ring begins with. -/
  ringCapacity : Nat := 1024
  ringGrowable : Bool := true
  /-- Pages that the scratch buffer begins with. -/
  initialScratchPages : Nat := 20
  /-- The longest wait for an event, in milliseconds. -/
  pollTimeout : Nat := 200
  /-- Interrupted waits in a row that the worker bears. -/
  maxInterrupts : Nat := 3
  /-- Workers asked for; there is always one. -/
  concurrency : Nat := 1
  /-- The high mark of the budget. -/
  highWaterMark : Option Nat := none
  /-- The low mark of the budget. -/
  lowWaterMark : Option Nat := none
deriving DecidableEq, Repr, Inhabited

namespace Options

/-- The settings with ones in place of zeros that cannot be used. -/
def normalize (o : Options) : Options :=
  { o with
    ringCapacity := max o.ringCapacity 1
    initialScratchPages := max o.initialScratchPages 1
    pollTimeout := max o.pollTimeout 1
    concurrency := max o.concurrency 1 }

/-- The budget among the settings, if there is one. -/
def waterMarks (o : Options) : Except PagerError (Option WaterMarks) :=
  match o.highWaterMark, o.lowWaterMark with
  | some high, some low => (WaterMarks.ofBytes high low).map some
  | none, none => .ok none
  | _, _ => .error (.invalidOptions
      "high_water_mark_bytes and low_water_mark_bytes must be set together")

end Options
end DemandPager
