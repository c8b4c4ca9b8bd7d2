/-
# A memory without a host

A memory whose addresses are made up, whose faults are put into a queue from
outside, and whose refusals are prescribed: of each call, the next so many fail.
Apart from that it does what it is told, as long as addresses are words.

Key definitions: `ScriptedMemory`, `PagingCall`.
-/
import DemandPager.PageTable
import DemandPager.Paging
import DemandPager.Word

namespace DemandPager

/-- The calls that can be made to fail. -/
inductive PagingCall
  | reserve | release | register | unregister | zero | install | discard | readResident | readFaults
deriving DecidableEq, Repr

/-- A memory without a host. -/
structure ScriptedMemory where
  pageSize : Nat
  /-- Where the next reservation begins. -/
  next : Nat := 0x10000000
  /-- Where the next reservation is to begin instead. -/
  detour : Option Nat := none
  table : PageTable := {}
  faults : List Nat := []
  isOpen : Bool := true
  /-- How many of the next calls fail. -/
  failing : List (PagingCall × Nat) := []
deriving Repr

namespace ScriptedMemory

/-- Lets the next `times` calls of a kind fail. -/
def failNext (m : ScriptedMemory) (call : PagingCall) (times : Nat) : ScriptedMemory :=
  { m with failing := (call, times) :: m.failing.filter (·.1 != call) }

def residentBytes (m : ScriptedMemory) : Nat := m.table.size * m.pageSize

def queueFaults (m : ScriptedMemory) (addresses : List Nat) : ScriptedMemory :=
  { m with faults := m.faults ++ addresses }

/-- Fails if the call is to fail. -/
def permit (call : PagingCall) : EStateM PagerError ScriptedMemory Unit := do
  let m ← get
  match m.failing.lookup call with
  | some (times + 1) =>
    set (m.failNext call times)
    throw (.ofCode Errno.invalid)
  | _ => pure ()

instance : Paging ScriptedMemory where
  pageSize m := m.pageSize
  reserve len _ _ := do
    (permit .reserve).adaptExcept Failure.error
    let m ← get
    match m.detour with
    | some start =>
      set { m with detour := none }
      return start
    | none =>
      if wordBound ≤ m.next + len + m.pageSize then
        throw (.abort .overflow)
      set { m with next := m.next + len + m.pageSize }
      return m.next
  release start len := do
    permit .release
    modify fun m => { m with table := m.table.dropRange start len }
  register _ _ := permit .register
  unregister _ _ := permit .unregister
  zero start len := do
    (permit .zero).adaptExcept Failure.error
    if wordBound ≤ start + len then
      throw (.abort .overflow)
    modify fun m =>
      let pages := (pagesIn m.pageSize start len).map (·, Bytes.zeros m.pageSize)
      { m with table := m.table.setAll pages }
  install start content := do
    permit .install
    let m ← get
    if m.table.contains start then
      return false
    let pages := cutPages m.pageSize ((content.length + m.pageSize - 1) / m.pageSize) start content
    set { m with table := m.table.setAll pages }
    return true
  discard start len := do
    permit .discard
    modify fun m => { m with table := m.table.dropRange start len }
  readResident start len := do
    permit .readResident
    let m ← get
    match m.table.read m.pageSize start len with
    | .ok bytes => return bytes
    | .error address => throw (.unknownAddress address)
  readFaults := do
    permit .readFaults
    let m ← get
    set { m with faults := [] }
    return (m.faults, m.isOpen)
  close m := { m with isOpen := false }

end ScriptedMemory
end DemandPager
