/-
# The memory of the host

The memory that the host gives a process. Each page of a range is registered or
not, and has content or not. An access to a registered page without content is
reported and waits until it is let go; an access to any other page without content
finds zeros, which then are its content.

Ranges are checked before anything else: a range that is not made of whole pages, or
leaves the address space, is invalid. Content can only be given to a range of which
every page is registered.

Reservations lie at the end of the free address space, with a page between them.

Key definitions: `HostMemory`, `HostMemory.isRegistered`, `HostMemory.access`,
`HostMemory.load`, `HostMemory.store`, `HostMemory.close`.
-/
import DemandPager.Geometry
import DemandPager.PageTable
import DemandPager.Paging

namespace DemandPager

/-- A byte that somebody reads: where it is, and what the read got once it was let
go. -/
structure Reader where
  address : Nat
  got : Option UInt8 := none
deriving DecidableEq, Repr

/-- A range that was registered, or whose registration was taken back. -/
structure Registration where
  start : Nat
  len : Nat
  active : Bool
deriving DecidableEq, Repr

/-- The memory of a process. -/
structure HostMemory where
  /-- The end of the free address space. -/
  top : Nat := 0x7f0000000000
  /-- Registrations, latest first. -/
  registrations : List Registration := []
  /-- Where the permissions of a reservation change. -/
  seams : List Nat := []
  table : PageTable := {}
  /-- Pages that are to be reported. -/
  faults : List Nat := []
  readers : List Reader := []
  /-- Whether accesses can be reported at all. -/
  isOpen : Bool := true
deriving Repr

namespace HostMemory

/-- The bytes that a process can address, two to the power of forty-seven but for the
last page. -/
def addressSpace : Nat := 140737488351232

def paged (len : Nat) : Nat := (len + hostPageSize - 1) / hostPageSize * hostPageSize

/-- Whether an access to a page without content is reported. -/
def isRegistered (m : HostMemory) (page : Nat) : Bool :=
  match m.registrations.find? fun r => r.start ≤ page && page < r.start + r.len with
  | some r => r.active
  | none => false

def isMissing (m : HostMemory) (address : Nat) : Bool :=
  let page := pageOf hostPageSize address
  !m.table.contains page && m.isRegistered page

/-- Gives zeros to a page that has no content and is not registered. -/
def settlePage (m : HostMemory) (page : Nat) : HostMemory :=
  if m.table.contains page || m.isRegistered page then m
  else { m with table := m.table.set page (Bytes.zeros hostPageSize) }

def pagesOver (address len : Nat) : List Nat :=
  if len = 0 then [] else pagesIn hostPageSize (pageOf hostPageSize address)
    (address % hostPageSize + len)

/-- Reads a range of bytes. A missing page reads as zeros. -/
def load (m : HostMemory) (address len : Nat) : Bytes × HostMemory :=
  let m := (pagesOver address len).foldl settlePage m
  let bytes := (pagesOver address len).flatMap fun page =>
    (m.table.get? page).getD (Bytes.zeros hostPageSize)
  (Bytes.slice bytes (address % hostPageSize) len, m)

/-- Writes a range of bytes. A missing page is not written. -/
def store (m : HostMemory) (address : Nat) (bytes : Bytes) : HostMemory :=
  let m := (pagesOver address bytes.length).foldl settlePage m
  { m with table := (m.table.write hostPageSize address bytes).1 }

/-- Lets a reader go: it reads its byte, unless its page is still missing; then it is
reported again. -/
def resume (m : HostMemory) (r : Reader) : HostMemory :=
  if m.isMissing r.address then
    { m with
      faults := m.faults ++ [pageOf hostPageSize r.address]
      readers := m.readers ++ [r] }
  else
    let (bytes, m) := m.load r.address 1
    { m with readers := m.readers ++ [{ r with got := bytes.head? }] }

def wake (m : HostMemory) (start len : Nat) : HostMemory :=
  m.readers.foldl
    (fun m r =>
      if r.got.isNone && start ≤ r.address && r.address < start + len then m.resume r
      else { m with readers := m.readers ++ [r] })
    { m with readers := [] }

def access (m : HostMemory) (address : Nat) : HostMemory := m.resume { address }

/-- Takes the readers in a range away; the result is what they got. -/
def collect (m : HostMemory) (start len : Nat) : List UInt8 × HostMemory :=
  let inside (r : Reader) : Bool := start ≤ r.address && r.address < start + len
  ((m.readers.filter inside).filterMap (·.got),
    { m with readers := m.readers.filter fun r => !inside r })

/-- Ends all reports and lets every reader go. -/
def close (m : HostMemory) : HostMemory :=
  { m with registrations := [], faults := [], isOpen := false }.wake 0 wordBound

/-- A range has to be made of whole pages of the address space. -/
def checkRange (start len : Nat) : EStateM PagerError HostMemory Unit :=
  if start % hostPageSize = 0 && len % hostPageSize = 0 && 0 < len &&
      start + len ≤ addressSpace then pure ()
  else throw (.ofCode Errno.invalid)

/-- Content can be given to a range of registered pages whose permissions do not
change within. -/
def checkRegistered (start len : Nat) : EStateM PagerError HostMemory Unit := do
  let m ← get
  let seamless := m.seams.all fun s => !(start < s && s < start + len)
  if (pagesIn hostPageSize start len).all m.isRegistered && seamless then pure ()
  else throw (.ofCode Errno.absent)

/-- The bytes in front of the first page of a range that has content. -/
def freeFront (m : HostMemory) (start len : Nat) : Nat :=
  ((pagesIn hostPageSize start len).takeWhile fun page => !m.table.contains page).length *
    hostPageSize

def clear (m : HostMemory) (start len : Nat) : HostMemory :=
  let pages := (pagesIn hostPageSize start len).map (·, Bytes.zeros hostPageSize)
  { m with table := m.table.setAll pages }

def put (m : HostMemory) (start : Nat) (content : Bytes) : HostMemory :=
  { m with
    table := m.table.setAll (cutPages hostPageSize (content.length / hostPageSize) start content) }

/-- Reserves memory. A header that can be written apart from the rest has to lie
within the reservation. -/
def reserveRange (len headerLen : Nat) (writable : Bool) : EStateM PagerError HostMemory Nat := do
  if len = 0 then
    throw (.ofCode Errno.invalid)
  let apart := if writable then 0 else paged headerLen
  let m ← get
  if m.top < paged len + hostPageSize || paged len < apart then
    throw (.ofCode Errno.noMemory)
  let start := m.top - paged len
  let seams := if 0 < apart && apart < paged len then (start + apart) :: m.seams else m.seams
  set { m with top := start - hostPageSize, seams }
  return start

/-- Fills a range with zeros, as far as it has no content. -/
def zeroRange (start len : Nat) : EStateM PagerError HostMemory Unit := do
  checkRange start len
  checkRegistered start len
  let m ← get
  let front := m.freeFront start len
  set ((m.clear start front).wake start front)
  if front = 0 then
    throw (.ofCode Errno.present)
  if front < len then
    throw (.ofCode Errno.again)

/-- Gives a range its content, as far as it has none. -/
def installRange (start : Nat) (content : Bytes) : EStateM PagerError HostMemory Bool := do
  checkRange start content.length
  checkRegistered start content.length
  let m ← get
  let front := m.freeFront start content.length
  set ((m.put start (content.take front)).wake start content.length)
  return front == content.length

def setRegistered (start len : Nat) (active : Bool) : EStateM PagerError HostMemory Unit := do
  checkRange start len
  modify fun m => { m with registrations := { start, len, active } :: m.registrations }

/-- Drops the content of a range that begins on a page and ends before the addresses
do. -/
def discardRange (start len : Nat) : EStateM PagerError HostMemory Unit := do
  if start % hostPageSize ≠ 0 || wordBound ≤ start + paged len then
    throw (.ofCode Errno.invalid)
  modify fun m => { m with table := m.table.dropRange start (paged len) }

/-- Gives a range of the address space back that begins on a page. -/
def releaseRange (start len : Nat) : EStateM PagerError HostMemory Unit := do
  if start % hostPageSize ≠ 0 || len = 0 || addressSpace < start + len then
    throw (.ofCode Errno.invalid)
  modify fun m =>
    { m with
      table := m.table.dropRange start (paged len)
      registrations := { start, len := paged len, active := false } :: m.registrations }

instance : Paging HostMemory where
  pageSize _ := hostPageSize
  reserve len headerLen writable := (reserveRange len headerLen writable).adaptExcept Failure.error
  release := releaseRange
  register start len := setRegistered start len true
  unregister start len := do
    setRegistered start len false
    modify fun m => m.wake start len
  zero start len := (zeroRange start len).adaptExcept Failure.error
  install := installRange
  discard := discardRange
  readResident start len := modifyGet fun m => m.load start len
  readFaults := modifyGet fun m => ((m.faults, m.isOpen), { m with faults := [] })
  close := close

end HostMemory
end DemandPager
