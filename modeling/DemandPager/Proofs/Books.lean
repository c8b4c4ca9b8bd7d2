/-
# The books of the worker

What holds of the books between the steps of the worker. They are `Filed` if every
object lies under its own reservation and every live record is a chunk of an object
that is still recorded: a record outlives its object only if it was retired. They
owe `lost` bytes if the bytes in use are those of the live records and `lost` more
(`Desk.Owes`); the books balance if they owe nothing.

The rest of the file says what a step leaves alone. `Kept w w' es` holds if the step
from `w` to `w'` added the entries `es` to the journal and changed no budget, no
request and no phase; `SameBooks w w' es`, if it changed no object, no gate and no
record either.

Key definitions: `ChunkRecord.IsChunkOf`, `Desk.Filed`, `Desk.Owes`, `Worker.Kept`,
`Worker.SameBooks`.
Key theorems: `Desk.Filed.find?_chunk`, `Desk.owes_zero_iff`.
-/
import DemandPager.Proofs.Chunks
import DemandPager.Proofs.Ends
import DemandPager.Proofs.Intervals
import DemandPager.Proofs.Queue

namespace DemandPager

variable {π γ : Type}

/-! ### Chunks on record -/

/-- Where the body of an object begins. -/
def Interval.bodyStart (e : Interval (Object γ)) : Nat := e.start + e.value.geometry.paddedHeader

/-- The record is that of the chunk of number `k` of an object. -/
structure ChunkRecord.IsChunkOf (r : ChunkRecord) (e : Interval (Object γ)) (k : Nat) : Prop where
  owner : r.owner = e.value.id
  full_lt : e.value.geometry.loadCount * e.value.geometry.stride < wordBound
  hasChunk : e.value.geometry.HasChunk k
  address : r.address = e.bodyStart + (e.value.geometry.chunk k).offset
  size : r.size = (e.value.geometry.chunk k).bytes

/-- A chunk lies within the reservation of its object. -/
theorem ChunkRecord.IsChunkOf.within {r : ChunkRecord} {e : Interval (Object γ)} {k : Nat}
    (hr : r.IsChunkOf e k) (hg : e.value.geometry.Regular)
    (hlen : e.len = e.value.geometry.trueSize) :
    e.bodyStart ≤ r.address ∧ r.address + r.size ≤ e.start + e.len := by
  have hend := hg.chunk_end_le hr.hasChunk
  rw [hr.address, hr.size, hlen]
  unfold Interval.bodyStart Geometry.trueSize
  omega

theorem ChunkRecord.IsChunkOf.size_pos {r : ChunkRecord} {e : Interval (Object γ)} {k : Nat}
    (hr : r.IsChunkOf e k) (hg : e.value.geometry.Regular) : 0 < r.size := by
  rw [hr.size]
  exact hg.bytes_pos hr.hasChunk

/-- The books: objects under their own reservations, and live records of recorded
objects only. -/
structure Desk.Filed (d : Desk γ) : Prop where
  objects : d.objects.Sound
  built : ∀ e ∈ d.objects.toList, e.value.geometry.Built
  len : ∀ e ∈ d.objects.toList, e.len = e.value.geometry.trueSize
  ring : d.ring.Sound
  chunks : ∀ r ∈ d.ring.toList, r.isLive → ∃ e ∈ d.objects.toList, ∃ k, r.IsChunkOf e k
  fits : ∀ r ∈ d.ring.toList, Word.isAllocatable r.size
  scratch : Word.isAllocatable d.scratch.size

/-- The bytes in use are those of the live records and `lost` more, and within the
budget. -/
structure Desk.Owes (d : Desk γ) (lost : Nat) : Prop where
  used : d.used = d.ring.liveSum + lost
  used_le : d.used ≤ d.limits.high
  used_lt : d.used < wordBound

theorem ChunkRecord.isLive_iff {r : ChunkRecord} : r.isLive = true ↔ 0 < r.size := by
  simp [ChunkRecord.isLive]

/-- A record that is still live after a retirement is another owner's. -/
theorem Ring.of_mem_retired {owner : Nat} {records : List ChunkRecord} {r : ChunkRecord}
    (h : r ∈ retired owner records) (hlive : r.isLive) : r ∈ records ∧ r.owner ≠ owner := by
  refine (mem_retired h).resolve_right fun hzero => ?_
  rw [ChunkRecord.isLive_iff, hzero] at hlive
  exact Nat.lt_irrefl 0 hlive

namespace Desk

/-- The books balance if the bytes in use are what the ring adds up to. -/
theorem owes_zero_iff {d : Desk γ} :
    d.Owes 0 ↔ d.ring.liveBytes = .ok d.used ∧ d.used ≤ d.limits.high := by
  rw [Ring.liveBytes_eq_ok]
  constructor
  · intro h
    have hused := h.used
    rw [Nat.add_zero] at hused
    exact ⟨⟨hused ▸ h.used_lt, hused⟩, h.used_le⟩
  · rintro ⟨⟨hlt, hused⟩, hle⟩
    exact ⟨hused, hle, hused ▸ hlt⟩

variable {d d' : Desk γ}

theorem Filed.regular (h : d.Filed) {e : Interval (Object γ)} (he : e ∈ d.objects.toList) :
    e.value.geometry.Regular := (h.built e he).regular

theorem Filed.chunk_within (h : d.Filed) {e : Interval (Object γ)} (he : e ∈ d.objects.toList)
    {r : ChunkRecord} {k : Nat} (hr : r.IsChunkOf e k) :
    e.bodyStart ≤ r.address ∧ r.address + r.size ≤ e.start + e.len :=
  hr.within (h.regular he) (h.len e he)

theorem Filed.chunk_pos (h : d.Filed) {e : Interval (Object γ)} (he : e ∈ d.objects.toList)
    {r : ChunkRecord} {k : Nat} (hr : r.IsChunkOf e k) : 0 < r.size := hr.size_pos (h.regular he)

/-- The object of a chunk holds the address of the chunk. -/
theorem Filed.holds_chunk (h : d.Filed) {e : Interval (Object γ)} (he : e ∈ d.objects.toList)
    {r : ChunkRecord} {k : Nat} (hr : r.IsChunkOf e k) : e.Holds r.address := by
  have hwithin := h.chunk_within he hr
  have hpos := h.chunk_pos he hr
  exact ⟨(Nat.le_add_right ..).trans hwithin.1, by omega⟩

/-- The object of a chunk is found at the address of the chunk. -/
theorem Filed.find?_chunk (h : d.Filed) {e : Interval (Object γ)} (he : e ∈ d.objects.toList)
    {r : ChunkRecord} {k : Nat} (hr : r.IsChunkOf e k) : d.objects.find? r.address = some e :=
  (IntervalMap.find?_eq_some h.objects).mpr ⟨he, h.holds_chunk he hr⟩

/-- The body of a recorded object begins at a word. -/
theorem Filed.bodyStart_eq (h : d.Filed) {e : Interval (Object γ)} (he : e ∈ d.objects.toList) :
    Word.add e.start e.value.geometry.paddedHeader = .ok e.bodyStart := by
  have hend := h.objects.end_lt e he
  rw [h.len e he] at hend
  unfold Geometry.trueSize at hend
  exact Word.add_eq_ok.mpr ⟨by omega, rfl⟩

theorem Filed.of_eq (h : d.Filed) (hobjects : d'.objects = d.objects) (hring : d'.ring = d.ring)
    (hscratch : d'.scratch.size = d.scratch.size) : d'.Filed := by
  obtain ⟨h1, h2, h3, h4, h5, h6, h7⟩ := h
  refine ⟨?_, ?_, ?_, ?_, ?_, ?_, ?_⟩
  all_goals simp only [hobjects, hring, hscratch]
  all_goals assumption

theorem Owes.of_eq {lost : Nat} (h : d.Owes lost) (hring : d'.ring = d.ring)
    (hused : d'.used = d.used) (hlimits : d'.limits = d.limits) : d'.Owes lost := by
  obtain ⟨h1, h2, h3⟩ := h
  refine ⟨?_, ?_, ?_⟩
  all_goals simp only [hring, hused, hlimits]
  all_goals assumption

/-- New books are empty. -/
theorem ofOptions_eq_ok {pageSize : Nat} {limits : WaterMarks} {o : Options}
    (h : ofOptions pageSize limits o = .ok d) :
    d.objects.toList = [] ∧ d.ring.toList = [] ∧ d.ring.Sound ∧ d.used = 0 ∧
      d.limits = limits ∧ d.ringGrowable = o.ringGrowable ∧ Word.isAllocatable d.scratch.size := by
  unfold ofOptions at h
  obtain ⟨bytes, -, h⟩ := Checked.bind_eq_ok.mp h
  obtain ⟨scratch, hscratch, h⟩ := Checked.bind_eq_ok.mp h
  obtain ⟨ring, hring, h⟩ := Checked.bind_eq_ok.mp h
  cases h
  have hsize : Word.isAllocatable scratch.size := by
    unfold Buffer.ofSize at hscratch
    split at hscratch
    · cases hscratch
      assumption
    · cases hscratch
  unfold Ring.allocate at hring
  split at hring
  · cases hring
    exact ⟨rfl, Ring.toList_ofCapacity _, Ring.sound_ofCapacity _, rfl, rfl, rfl, hsize⟩
  · cases hring

/-- New books are in order, and they balance. -/
theorem ofOptions_filed {pageSize : Nat} {limits : WaterMarks} {o : Options}
    (h : ofOptions pageSize limits o = .ok d) : d.Filed ∧ d.Owes 0 := by
  obtain ⟨hobjects, hrecords, hring, hused, -, -, hscratch⟩ := ofOptions_eq_ok h
  have hsound : d.objects.Sound := by
    have hempty : d.objects = .empty := congrArg IntervalMap.mk hobjects
    rw [hempty]
    exact IntervalMap.sound_empty
  refine ⟨⟨hsound, ?_, ?_, hring, ?_, ?_, hscratch⟩, ?_, ?_, ?_⟩
  all_goals simp only [hobjects, hrecords, hused, Ring.liveSum, List.not_mem_nil]
  · exact fun _ he => he.elim
  · exact fun _ he => he.elim
  · exact fun _ hr => hr.elim
  · exact fun _ hr => hr.elim
  · rfl
  · exact Nat.zero_le _
  · decide

end Desk

/-! ### Entries of the journal -/

/-- The error that a call of the memory was refused with. -/
def JournalEntry.refusal? : JournalEntry → Option PagerError
  | .reserve _ _ _ (.error cause) | .release _ _ (.error cause) | .register _ _ (.error cause)
  | .unregister _ _ (.error cause) | .zero _ _ (.error cause) | .install _ _ (.error cause)
  | .discard _ _ (.error cause) | .readResident _ _ (.error cause)
  | .readFaults (.error cause) => some cause
  | _ => none

/-- The entry is that of a read that was refused. -/
def JournalEntry.isReadRefused : JournalEntry → Bool
  | .readResident _ _ (.error _) => true
  | _ => false

/-- The last of the entries, if there is one, is not that of a refused read. -/
def Calm (es : List JournalEntry) : Prop := ∀ x ∈ es.getLast?, x.isReadRefused = false

theorem calm_nil : Calm [] := by
  intro x hx
  cases hx

theorem calm_append_singleton {es : List JournalEntry} {x : JournalEntry}
    (h : x.isReadRefused = false) : Calm (es ++ [x]) := by
  intro y hy
  rw [List.getLast?_concat] at hy
  cases hy
  exact h

theorem calm_singleton {x : JournalEntry} (h : x.isReadRefused = false) : Calm [x] :=
  @calm_append_singleton [] x h

theorem Calm.append {es es' : List JournalEntry} (h : Calm es) (h' : Calm es') :
    Calm (es ++ es') := by
  intro x hx
  rw [List.getLast?_append] at hx
  cases hlast : es'.getLast? with
  | none => rw [hlast] at hx; exact h x hx
  | some y => rw [hlast] at hx; cases hx; exact h' x hlast

namespace Worker

/-! ### What a step leaves alone -/

/-- The step added entries to the journal, and changed no budget, no request and no
phase. -/
structure Kept (w w' : Worker π γ) (es : List JournalEntry) : Prop where
  journal : w'.journal = w.journal ++ es
  exchange : w'.exchange = { w.exchange with stats := w'.exchange.stats }
  limits : w'.limits = w.limits
  ringGrowable : w'.ringGrowable = w.ringGrowable
  phase : w'.phase = w.phase

/-- The step changed no object, no gate and no record either. -/
structure SameBooks (w w' : Worker π γ) (es : List JournalEntry) : Prop extends Kept w w' es where
  objects : w'.objects = w.objects
  gates : w'.gates = w.gates
  ring : w'.ring = w.ring
  used : w'.used = w.used
  scratch : w'.scratch.size = w.scratch.size

variable {w v w' : Worker π γ} {es es' : List JournalEntry}

theorem Kept.refl (w : Worker π γ) : Kept w w [] := ⟨(List.append_nil _).symm, rfl, rfl, rfl, rfl⟩

theorem Kept.trans (h : Kept w v es) (h' : Kept v w' es') : Kept w w' (es ++ es') where
  journal := by rw [h'.journal, h.journal, List.append_assoc]
  exchange := by rw [h'.exchange, h.exchange]
  limits := h'.limits.trans h.limits
  ringGrowable := h'.ringGrowable.trans h.ringGrowable
  phase := h'.phase.trans h.phase

theorem SameBooks.refl (w : Worker π γ) : SameBooks w w [] :=
  ⟨Kept.refl w, rfl, rfl, rfl, rfl, rfl⟩

theorem SameBooks.trans (h : SameBooks w v es) (h' : SameBooks v w' es') :
    SameBooks w w' (es ++ es') where
  toKept := h.toKept.trans h'.toKept
  objects := h'.objects.trans h.objects
  gates := h'.gates.trans h.gates
  ring := h'.ring.trans h.ring
  used := h'.used.trans h.used
  scratch := h'.scratch.trans h.scratch

theorem SameBooks.filed (h : SameBooks w w' es) (hw : w.toDesk.Filed) : w'.toDesk.Filed :=
  hw.of_eq h.objects h.ring h.scratch

theorem SameBooks.owes {lost : Nat} (h : SameBooks w w' es) (hw : w.toDesk.Owes lost) :
    w'.toDesk.Owes lost := hw.of_eq h.ring h.used h.limits

end Worker
end DemandPager
