/-
# Faults

An access to a missing page of a body is resolved by filling and installing the
chunk that contains it. If the chunk does not fit within the budget, the oldest
chunks go first; those of objects that want their elements back are handed over
before they are dropped.

Key definitions: `Worker.locateFault`, `Worker.handleFault`, `Worker.evictFor`,
`Worker.writeBackChunk`.
-/
import DemandPager.Worker.Basic

namespace DemandPager
namespace Worker

variable {π γ : Type} [Paging π]

/-- The object, the start of its body and the chunk that an access belongs to. -/
structure FaultSite (γ : Type) where
  object : Object γ
  bodyStart : Nat
  span : Span

omit [Paging π] in
/-- Finds the chunk of an address in a body. -/
def locateFault (objects : IntervalMap (Object γ)) (address : Nat) : Checked (FaultSite γ) := do
  match objects.find? address with
  | none => Checked.refuse (.unknownAddress address)
  | some entry =>
    let object := entry.value
    let bodyStart ← Word.add entry.start object.geometry.paddedHeader
    if address < bodyStart then
      Checked.refuse (.unknownAddress address)
    match ← object.geometry.locate (address - bodyStart) with
    | none => Checked.refuse (.unknownAddress address)
    | some span => return { object, bodyStart, span }

omit [Paging π] in
/-- Finds the chunk that begins at an address, which a record names. -/
def locateChunk (entry : Interval (Object γ)) (address : Nat) : Checked (FaultSite γ) := do
  let object := entry.value
  let bodyStart ← Word.add entry.start object.geometry.paddedHeader
  match ← object.geometry.locate (← Word.sub address bodyStart) with
  | none => Checked.refuse (.unknownAddress address)
  | some span => return { object, bodyStart, span }

omit [Paging π] in
/-- Calls the hook of an object with elements of a chunk, if there is one. -/
def handOver (object : Object γ) (span : Span) (bytes : Bytes) : WorkerM π γ Unit := do
  match object.callbacks.writeBack with
  | none => pure ()
  | some hook =>
    note (.writeBack object.id span.first span.stop bytes)
    let w ← get
    let (result, client) := hook span.first span.stop bytes w.client
    set { w with client }
    ensure (result == .taken) .callback

/-- Reads resident bytes into the spill buffer and answers them. -/
def spillResident (address len : Nat) : WorkerM π γ Bytes := do
  let spill ← checked ((← get).spill.growTo len)
  modify fun w => { w with spill }
  let bytes ← settle (← readResident address len)
  modify fun w => { w with spill := w.spill.write (bytes.take len) }
  return (← get).spill.take len

/-- Hands the resident chunk at an address to the owner of its object, if the owner
wants it. -/
def writeBackChunk (address : Nat) : WorkerM π γ Unit := do
  match (← get).objects.find? address with
  | none => refuse (.unknownAddress address)
  | some entry =>
    if entry.value.wantsWriteBack then
      let chunk ← checked (locateChunk entry address)
      ensure (chunk.bodyStart + chunk.span.offset == address) .misplaced
      let bytes ← spillResident address (chunk.span.count * chunk.object.geometry.stride)
      handOver chunk.object chunk.span bytes
      count .writeBack

/-- Takes the bytes of a record off and drops its chunk. -/
def dropChunk (record : ChunkRecord) : WorkerM π γ Unit := do
  let used ← checked (Word.sub (← get).used record.size)
  modify fun w => { w with used }
  settle (← discard record.address record.size)
  count (.eviction record.size)
  checkTotals

/-- Takes the oldest record, and hands over and drops its chunk if the record is
live. -/
def dropOldest : WorkerM π γ Unit := do
  let (record, ring) ← settle ((← get).ring.pop)
  modify fun w => { w with ring }
  if record.isLive then
    writeBackChunk record.address
    dropChunk record

omit [Paging π] in
/-- Whether chunks have to go before `fill` more bytes fit under the low mark. -/
def crowded (w : Worker π γ) (fill : Nat) : Bool := 0 < w.used && w.limits.low < w.used + fill

/-- Drops chunks, oldest first, while it is crowded. When all records are taken
there is nothing left to drop. -/
def dropWhileCrowded (fill : Nat) : (records : Nat) → WorkerM π γ Unit
  | 0 => do
    if (← get).crowded fill then
      refuse .ringEmpty
  | records + 1 => do
    if (← get).crowded fill then
      dropOldest
      dropWhileCrowded fill records

/-- Makes room for `fill` more bytes. Nothing happens unless they would cross the
high mark. -/
def evictFor (fill : Nat) : WorkerM π γ Unit := do
  let w ← get
  let needed ← checked (Word.add w.used fill)
  if w.limits.high < needed then
    dropWhileCrowded fill w.ring.length

/-- Fills the front of the scratch buffer with the elements of a chunk, and the rest
of the chunk with zeros. The answer is the content of the chunk. -/
def fillChunk (object : Object γ) (span : Span) : WorkerM π γ Bytes := do
  let len := span.count * object.geometry.stride
  note (.populate object.id span.first span.stop len)
  let w ← get
  let (result, filled, client) :=
    object.fill span.first span.stop (w.scratch.take len) w.client
  set { w with client, scratch := w.scratch.write filled }
  match result with
  | .gaveUp reason => refuse (.populate reason)
  | .broke => throw (.abort .callback)
  | .filled =>
    count .populate
    modify fun w =>
      { w with scratch := w.scratch.write (w.scratch.take len ++ Bytes.zeros (span.bytes - len)) }
    return (← get).scratch.take span.bytes

omit [Paging π] in
def recordChunk (record : ChunkRecord) : WorkerM π γ Unit := do
  let w ← get
  let ring ← settle (w.ring.push record w.ringGrowable)
  set { w with ring }
  let used ← checked (Word.add w.used record.size)
  modify fun w => { w with used }
  count .install
  checkTotals

/-- Fills, installs and records a chunk. If the chunk is there already, because an
access to the same chunk was resolved before, nothing is recorded. -/
def loadChunk (site : FaultSite γ) : WorkerM π γ Unit := do
  let { object, bodyStart, span } := site
  let content ← fillChunk object span
  let start ← checked (Word.add bodyStart span.offset)
  if ← settle (← install start content) then
    recordChunk { address := start, size := span.bytes, owner := object.id }
  else
    count .duplicateFault

def handleFault (address : Nat) : WorkerM π γ Unit := do
  count .fault
  let w ← get
  let site ← checked (locateFault w.objects address)
  let fill := site.span.bytes
  if w.limits.high < fill then
    refuse (.chunkTooLarge fill w.limits.high)
  set { w with scratch := ← checked (w.scratch.growTo fill) }
  evictFor fill
  loadChunk site

end Worker
end DemandPager
