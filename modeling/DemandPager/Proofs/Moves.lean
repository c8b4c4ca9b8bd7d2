/-
# Moves

What the worker does to the memory, to the callers' state and to its records, in
moves that leave nothing half done. Handling a fault and releasing an object are
sequences of moves (`Moves`), whatever the memory answers and the callbacks do;
creating an object is a step of its own (`Placing`). What every move keeps is then
kept by the worker.

The memory has its part in a move by the answers that it gives, and the callers by
the callbacks of the objects. Buffers, statistics and the journal have none, so a
move is one of views, which leave them out.

Key definitions: `View`, `Offered`, `Filled`, `Lose`, `Move`, `Moves`, `Placing`.
-/
import Mathlib.Logic.Relation
import DemandPager.Proofs.Books

namespace DemandPager

variable {π γ : Type}

/-- The memory, the callers' state, the objects and the records. -/
structure View (π γ : Type) where
  pages : π
  client : γ
  objects : List (Interval (Object γ))
  records : List ChunkRecord
  /-- Whether a full ring grows. -/
  growable : Bool

/-- What moves see of the worker. -/
def Worker.view (w : Worker π γ) : View π γ where
  pages := w.pages
  client := w.client
  objects := w.objects.toList
  records := w.ring.toList
  growable := w.ringGrowable

/-- Where a chunk begins. -/
def Interval.chunkStart (e : Interval (Object γ)) (k : Nat) : Nat :=
  e.bodyStart + (e.value.geometry.chunk k).offset

/-- The bytes of the elements of a chunk. -/
def Interval.contentLen (e : Interval (Object γ)) (k : Nat) : Nat :=
  (e.value.geometry.chunk k).count * e.value.geometry.stride

/-- The records of an object whose chunks are offered when it goes. -/
def Interval.offerable (e : Interval (Object γ)) (records : List ChunkRecord) :
    List ChunkRecord :=
  if e.value.wantsWriteBack then
    records.filter fun r => r.owner == e.value.id && r.isLive
  else
    []

/-- The callers' state after the destructor of an object ran, if it has one. -/
def Object.finished (o : Object γ) (client : γ) : γ :=
  match o.callbacks.destructor with
  | none => client
  | some destructor => destructor client

/-- A populate callback filled a chunk with `content`; behind its elements there are
zeros. -/
def Filled (e : Interval (Object γ)) (k : Nat) (client : γ) (content : Bytes)
    (client' : γ) : Prop :=
  ∃ target filled, target.length = e.contentLen k ∧
    e.value.fill (e.value.geometry.chunk k).first (e.value.geometry.chunk k).stop target client =
      (.filled, filled, client') ∧
    content = filled ++ Bytes.zeros ((e.value.geometry.chunk k).bytes - e.contentLen k)

/-- A populate callback gave up on a chunk. -/
def GaveUp (e : Interval (Object γ)) (k : Nat) (client client' : γ) : Prop :=
  ∃ target reason filled, target.length = e.contentLen k ∧
    e.value.fill (e.value.geometry.chunk k).first (e.value.geometry.chunk k).stop target client =
      (.gaveUp reason, filled, client')

variable [Paging π]

open Worker (Called CalledBreakable)

/-- A resident chunk was offered to its owner, who may not want it. -/
inductive Offered (e : Interval (Object γ)) (k : Nat) (pages : π) (client : γ) : π → γ → Prop
  | unwanted (h : e.value.wantsWriteBack = false) : Offered e k pages client pages client
  | taken {bytes given : Bytes} {pages' : π} {client' : γ} {hook : Hook γ}
      (h : e.value.wantsWriteBack = true) (hhook : e.value.callbacks.writeBack = some hook)
      (hread : Called (Paging.readResident (e.chunkStart k) (e.contentLen k)) pages (.ok bytes)
        pages')
      (hgiven : bytes.length = e.contentLen k → given = bytes)
      (hcall : hook (e.value.geometry.chunk k).first (e.value.geometry.chunk k).stop given client =
        (.taken, client')) : Offered e k pages client pages' client'

/-- Chunks on record were offered to their owners, one after the other. -/
inductive OfferedAll (objects : List (Interval (Object γ))) :
    List ChunkRecord → π → γ → π → γ → Prop
  | nil {pages : π} {client : γ} : OfferedAll objects [] pages client pages client
  | cons {r : ChunkRecord} {rest : List ChunkRecord} {e : Interval (Object γ)} {k : Nat}
      {pages pages₁ pages₂ : π} {client client₁ client₂ : γ} (he : e ∈ objects)
      (hr : r.IsChunkOf e k) (hoffer : Offered e k pages client pages₁ client₁)
      (hrest : OfferedAll objects rest pages₁ client₁ pages₂ client₂) :
      OfferedAll objects (r :: rest) pages client pages₂ client₂

/-- The oldest chunk cannot be read to be offered; its record is gone already. -/
inductive Lose : View π γ → View π γ → Prop
  | intro {s : View π γ} {r : ChunkRecord} {rest : List ChunkRecord} {e : Interval (Object γ)}
      {k : Nat} {pages : π} {cause : PagerError}
      (hs : s.records = r :: rest) (he : e ∈ s.objects) (hr : r.IsChunkOf e k) (hlive : r.isLive)
      (hread : Called (Paging.readResident (e.chunkStart k) (e.contentLen k)) s.pages
        (.error cause) pages) :
      Lose s { s with pages, records := rest }

/-- One move. -/
inductive Move : View π γ → View π γ → Prop
  /-- A retired record is taken. -/
  | skip {s : View π γ} {r : ChunkRecord} {rest : List ChunkRecord}
      (hs : s.records = r :: rest) (hr : r.size = 0) : Move s { s with records := rest }
  /-- The oldest chunk is offered to its owner and dropped. -/
  | evict {s : View π γ} {r : ChunkRecord} {rest : List ChunkRecord} {e : Interval (Object γ)}
      {k : Nat} {pages pages' : π} {client : γ} {result : Except PagerError Unit}
      (hs : s.records = r :: rest) (he : e ∈ s.objects) (hr : r.IsChunkOf e k)
      (hoffer : Offered e k s.pages s.client pages client)
      (hdiscard : Called (Paging.discard r.address r.size) pages result pages') :
      Move s { s with pages := pages', client, records := rest }
  | lose {s s' : View π γ} (h : Lose s s') : Move s s'
  /-- A chunk on record is offered to its owner and stays. -/
  | offer {s : View π γ} {r : ChunkRecord} {e : Interval (Object γ)} {k : Nat} {pages : π}
      {client : γ} (hr : r ∈ s.records) (he : e ∈ s.objects) (hk : r.IsChunkOf e k)
      (hoffer : Offered e k s.pages s.client pages client) : Move s { s with pages, client }
  /-- A chunk on record cannot be read. -/
  | unread {s : View π γ} {pages : π} {address len : Nat} {cause : PagerError}
      (hread : Called (Paging.readResident address len) s.pages (.error cause) pages) :
      Move s { s with pages }
  /-- A registration is to be taken back. -/
  | unregister {s : View π γ} {pages : π} {start len : Nat} {result : Except PagerError Unit}
      (h : Called (Paging.unregister start len) s.pages result pages) : Move s { s with pages }
  /-- A chunk cannot be filled. -/
  | giveUp {s : View π γ} {e : Interval (Object γ)} {k : Nat} {client : γ} (he : e ∈ s.objects)
      (hk : e.value.geometry.HasChunk k) (hfill : GaveUp e k s.client client) :
      Move s { s with client }
  /-- A chunk is filled, installed and recorded. -/
  | load {s : View π γ} {r : ChunkRecord} {e : Interval (Object γ)} {k : Nat} {content : Bytes}
      {client : γ} {pages : π} (he : e ∈ s.objects) (hr : r.IsChunkOf e k)
      (hfill : Filled e k s.client content client)
      (hinstall : Called (Paging.install r.address content) s.pages (.ok true) pages) :
      Move s { s with pages, client, records := s.records ++ [r] }
  /-- A chunk is filled and installed, and there is no place for its record. -/
  | spill {s : View π γ} {r : ChunkRecord} {e : Interval (Object γ)} {k : Nat} {content : Bytes}
      {client : γ} {pages : π} (he : e ∈ s.objects) (hr : r.IsChunkOf e k)
      (hfill : Filled e k s.client content client)
      (hinstall : Called (Paging.install r.address content) s.pages (.ok true) pages)
      (hgrow : s.growable = false) : Move s { s with pages, client }
  /-- A chunk is filled and not installed. -/
  | waste {s : View π γ} {r : ChunkRecord} {e : Interval (Object γ)} {k : Nat} {content : Bytes}
      {client : γ} {pages : π} {result : Except PagerError Bool} (he : e ∈ s.objects)
      (hr : r.IsChunkOf e k) (hfill : Filled e k s.client content client)
      (hinstall : Called (Paging.install r.address content) s.pages result pages)
      (hresult : result ≠ .ok true) : Move s { s with pages, client }
  /-- An object goes: its chunks are offered to their owner, its records are retired and
  its memory is given back. -/
  | strike {s : View π γ} {e : Interval (Object γ)} {offered freed pages : π} {client : γ}
      {result : Except PagerError Unit} (he : e ∈ s.objects)
      (hoffer : OfferedAll s.objects (e.offerable s.records) s.pages s.client offered client)
      (hunregister : Called (Paging.unregister e.start e.len) offered (.ok ()) freed)
      (hrelease : Called (Paging.release e.start e.len) freed result pages) :
      Move s { s with
        pages
        client := e.value.finished client
        objects := s.objects.filter (·.start ≠ e.start)
        records := Ring.retired e.value.id s.records }

/-- Moves in a row. -/
abbrev Moves : View π γ → View π γ → Prop := Relation.ReflTransGen Move

theorem OfferedAll.moves {objects : List (Interval (Object γ))} {records all : List ChunkRecord}
    {pages pages' : π} {client client' : γ} {growable : Bool}
    (h : OfferedAll objects records pages client pages' client') (hall : records ⊆ all) :
    Moves (View.mk pages client objects all growable)
      ⟨pages', client', objects, all, growable⟩ := by
  induction h with
  | nil => exact .refl
  | cons he hr hoffer _ ih =>
    obtain ⟨hhead, htail⟩ := List.cons_subset.mp hall
    exact .head (.offer hhead he hr hoffer) (ih htail)

/-- The memory of an object was reserved and registered, and its header is zero. -/
def Laid (o : Object γ) (pages : π) (start : Nat) (pages' : π) : Prop :=
  ∃ reserved registered,
    CalledBreakable (Paging.reserve o.geometry.trueSize o.geometry.paddedHeader
      (!o.geometry.readOnly)) pages (.ok start) reserved ∧
    Called (Paging.register start o.geometry.trueSize) reserved (.ok ()) registered ∧
    if 0 < o.geometry.paddedHeader then
      CalledBreakable (Paging.zero start o.geometry.paddedHeader) registered (.ok ()) pages'
    else
      pages' = registered

/-- The creation of an object, or the attempt. -/
inductive Placing (o : Object γ) : View π γ → View π γ → Prop
  /-- The object does not fit the memory or the budget. -/
  | unfit {s : View π γ} : Placing o s s
  | placed {s : View π γ} {start : Nat} {pages : π} {objects : IntervalMap (Object γ)}
      (hpage : o.geometry.pageSize = Paging.pageSize s.pages)
      (hlaid : Laid o s.pages start pages)
      (hinsert : (IntervalMap.mk s.objects).insert start o.geometry.trueSize o = .ok objects) :
      Placing o s { s with pages, objects := objects.toList }
  | unreserved {s : View π γ} {pages : π} {cause : PagerError}
      (h : CalledBreakable (Paging.reserve o.geometry.trueSize o.geometry.paddedHeader
        (!o.geometry.readOnly)) s.pages (.error cause) pages) : Placing o s { s with pages }
  | unregistered {s : View π γ} {start : Nat} {reserved asked pages : π} {cause : PagerError}
      {result : Except PagerError Unit}
      (hreserve : CalledBreakable (Paging.reserve o.geometry.trueSize o.geometry.paddedHeader
        (!o.geometry.readOnly)) s.pages (.ok start) reserved)
      (hregister : Called (Paging.register start o.geometry.trueSize) reserved (.error cause) asked)
      (hrelease : Called (Paging.release start o.geometry.trueSize) asked result pages) :
      Placing o s { s with pages }
  | unzeroed {s : View π γ} {start : Nat} {reserved registered asked freed pages : π}
      {cause : PagerError} {result result' : Except PagerError Unit}
      (hreserve : CalledBreakable (Paging.reserve o.geometry.trueSize o.geometry.paddedHeader
        (!o.geometry.readOnly)) s.pages (.ok start) reserved)
      (hregister : Called (Paging.register start o.geometry.trueSize) reserved (.ok ()) registered)
      (hzero : CalledBreakable (Paging.zero start o.geometry.paddedHeader) registered
        (.error cause) asked)
      (hunregister : Called (Paging.unregister start o.geometry.trueSize) asked result freed)
      (hrelease : Called (Paging.release start o.geometry.trueSize) freed result' pages) :
      Placing o s { s with pages }
  | unrecorded {s : View π γ} {start : Nat} {laid freed pages : π} {cause : PagerError}
      {result result' : Except PagerError Unit}
      (hpage : o.geometry.pageSize = Paging.pageSize s.pages) (hlaid : Laid o s.pages start laid)
      (hinsert : (IntervalMap.mk s.objects).insert start o.geometry.trueSize o = .error cause)
      (hunregister : Called (Paging.unregister start o.geometry.trueSize) laid result freed)
      (hrelease : Called (Paging.release start o.geometry.trueSize) freed result' pages) :
      Placing o s { s with pages }

end DemandPager
