/-
# Writes that survive the worker

The worker reads a chunk, hands over what it has read, and only then drops the chunk; an
object is released the same way. Callers write in between. A byte that a write has stored
stays resident until it is dropped. If its chunk was read before that, what is handed over
has the byte, and later reads have it too. If not, the write is lost, although it succeeds:
nothing stops it between the read and the drop. So a write survives exactly unless its byte
is dropped without having been read since (`Floor.write_survives`).

Key definitions: `handed`, `Floor.Stocked`, `Floor.Survives`, `Floor.Lost`, `Overlooked`.
Key theorems: `Retold.load_stored`, `Floor.Stocked.handed_of_read`, `Floor.write_survives`.
-/
import DemandPager.Proofs.Recall
import DemandPager.Proofs.Writes

namespace DemandPager

open Bytewise (load)

variable {γ : Type}

/-! ### Chunks -/

/-- The chunk that an offset of the body lies in. -/
def Geometry.chunkAt (g : Geometry) (offset : Nat) : Span :=
  g.chunk (offset / (g.loadCount * g.stride))

/-- An element byte lies among the elements of its chunk. -/
theorem Geometry.Regular.chunkAt_content {g : Geometry} (hg : g.Regular) {offset : Nat}
    (h : offset < g.bodyLen) : (g.chunkAt offset).offset ≤ offset ∧
      offset < (g.chunkAt offset).offset + (g.chunkAt offset).count * g.stride := by
  have hpaged := Nat.lt_of_lt_of_le h hg.body_le
  refine ⟨Nat.div_mul_le_self .., ?_⟩
  exact hg.lt_content_end (hg.hasChunk_of_lt hpaged) (hg.lt_chunk_end hpaged) h

/-- A chunk that is found and has an offset among its elements is the chunk of the offset. -/
theorem Geometry.Regular.chunkAt_eq {g : Geometry} (hg : g.Regular) {place offset : Nat}
    {span : Span} (hspan : g.locate place = .ok (some span)) (hle : span.offset ≤ offset)
    (hlt : offset < span.offset + span.count * g.stride) : g.chunkAt offset = span := by
  obtain ⟨-, -, rfl⟩ := (Geometry.locate_eq_some hg).mp hspan
  have hbytes := hg.content_le_bytes (k := place / (g.loadCount * g.stride))
  unfold chunkAt
  rw [hg.number_eq hle (by omega)]

/-- Chunks that begin with the same element are the same. -/
theorem Geometry.Regular.chunk_inj {g : Geometry} (hg : g.Regular) {k k' : Nat}
    (h : (g.chunk k).first = (g.chunk k').first) : g.chunk k = g.chunk k' := by
  rw [Nat.eq_of_mul_eq_mul_right hg.load_pos h]

/-- The address of a byte of the body. -/
def Handle.place (h : Handle) (i : Nat) : Nat := h.start + h.geometry.paddedHeader + i

/-! ### What was handed over -/

/-- The bytes that were handed over for the chunk of an object that begins with an element. -/
def handed (id first : Nat) (deeds : List Deed) : List Bytes :=
  deeds.filterMap fun
    | .entry (.writeBack id' first' _ bytes) =>
      if id' = id ∧ first' = first then some bytes else none
    | _ => none

theorem handed_append (id first : Nat) (deeds new : List Deed) :
    handed id first (deeds ++ new) = handed id first deeds ++ handed id first new :=
  List.filterMap_append

/-- What was handed over last was handed over by some deed. -/
theorem exists_of_handed {id first : Nat} {deeds : List Deed} {bytes : Bytes}
    (h : bytes ∈ handed id first deeds) :
    ∃ before stop after, deeds = before ++ .entry (.writeBack id first stop bytes) :: after := by
  obtain ⟨d, hd, heq⟩ := List.mem_filterMap.mp h
  split at heq
  · rename_i id' first' stop bytes'
    split at heq
    · rename_i hsame
      obtain ⟨rfl, rfl⟩ := hsame
      cases heq
      obtain ⟨before, after, rfl⟩ := List.append_of_mem hd
      exact ⟨before, stop, after, rfl⟩
    · cases heq
  · cases heq

section Lawful

variable {O : List (Interval (Object γ))} {deeds before after : List Deed}

/-- What is handed over was read directly before. -/
theorem Lawful.read_of_handOver {id first stop : Nat} {given : Bytes}
    (h : Lawful O (before ++ .entry (.writeBack id first stop given) :: after)) :
    ∃ e ∈ O, ∃ span bytes, e.value.id = id ∧ span.first = first ∧
      e.value.geometry.locate span.offset = .ok (some span) ∧
      (bytes.length = span.count * e.value.geometry.stride → given = bytes) ∧
      .entry (.readResident (e.bodyStart + span.offset)
        (span.count * e.value.geometry.stride) (.ok bytes)) ∈ before.getLast? := by
  have hreads := h.reads.at
  generalize hlast : before.getLast? = last at hreads
  cases hreads with
  | @handOver e span bytes given he hspan hgiven =>
    exact ⟨e, he, span, bytes, rfl, rfl, hspan, hgiven, rfl⟩
  | other _ hd => cases hd

/-- What is read is handed over directly after. -/
theorem Lawful.handOver_of_read {start len : Nat} {bytes : Bytes} {d : Deed}
    (h : Lawful O (before ++ .entry (.readResident start len (.ok bytes)) :: d :: after)) :
    ∃ e ∈ O, ∃ span given, start = e.bodyStart + span.offset ∧
      len = span.count * e.value.geometry.stride ∧
      e.value.geometry.locate span.offset = .ok (some span) ∧
      (bytes.length = len → given = bytes) ∧
      d = .entry (.writeBack e.value.id span.first span.stop given) := by
  rw [List.append_cons] at h
  have hreads := h.reads.at
  rw [List.getLast?_concat] at hreads
  generalize hread : some (Deed.entry (.readResident start len (.ok bytes))) = last at hreads
  cases hreads with
  | @handOver e span bytes given he hspan hgiven =>
    cases hread
    exact ⟨e, he, span, given, rfl, rfl, hspan, hgiven, rfl⟩
  | other hlast _ =>
    rw [← hread] at hlast
    cases hlast _ rfl

end Lawful

/-! ### The memory since a write -/

theorem Event.reads_iff {start len a : Nat} {bytes : Bytes} :
    (Event.deed (.entry (.readResident start len (.ok bytes)))).reads a ↔
      start ≤ a ∧ a < start + len := by
  unfold reads
  rw [Bool.and_eq_true, decide_eq_true_eq, decide_eq_true_eq]

theorem Event.reads_cases {e : Event} {a : Nat} (h : e.reads a) : ∃ start len bytes,
    e = .deed (.entry (.readResident start len (.ok bytes))) ∧ start ≤ a ∧ a < start + len := by
  unfold reads at h
  split at h
  · rw [Bool.and_eq_true, decide_eq_true_eq, decide_eq_true_eq] at h
    exact ⟨_, _, _, rfl, h⟩
  · cases h

/-- Only the worker drops. -/
theorem Event.drops_cases {e : Event} {pageSize a : Nat} (h : e.drops pageSize a) :
    ∃ d, e = .deed d := by
  unfold drops at h
  split at h
  · exact ⟨_, rfl⟩
  · exact ⟨_, rfl⟩
  · cases h

/-- What a call has stored is there until it is dropped. -/
theorem Retold.load_stored {m m' : ScriptedMemory} {before after : List Event} {call a : Nat}
    {b : UInt8} (h : Retold m (before ++ .stored call a b :: after) m') (hm : m.Paged)
    (hafter : ∀ e ∈ after, e.storesTo a = false) :
    (load a m' = some b ∧ ∀ e ∈ after, e.drops m.pageSize a = false) ∨
      load a m' = none ∧ ∃ e ∈ after, e.drops m.pageSize a := by
  obtain ⟨m₁, m₂, hbefore, heffect, hrest⟩ := h.at
  obtain ⟨hpaged, hsize⟩ := hbefore.steady hm
  have htold := heffect.told hpaged
  have hsize₂ : m₂.pageSize = m.pageSize := htold.pageSize.trans hsize
  by_cases hdrops : ∃ e ∈ after, e.drops m.pageSize a
  · obtain ⟨e, he, hdrop⟩ := hdrops
    exact .inr ⟨hrest.load_dropped htold.paged he (hsize₂ ▸ hdrop), e, he, hdrop⟩
  · have hspared : ∀ e ∈ after, e.drops m.pageSize a = false := fun e he =>
      Bool.not_eq_true _ ▸ fun hdrop => hdrops ⟨e, he, hdrop⟩
    refine .inl ⟨?_, hspared⟩
    rw [hrest.load_eq htold.paged fun e he => ⟨hsize₂ ▸ hspared e he, hafter e he⟩]
    exact (htold.stored rfl).2

/-- What the worker reads of a byte that was stored is what was stored, and the byte was not
dropped in between. -/
theorem Retold.read_stored {m m' : ScriptedMemory} {before between after : List Event}
    {call a start len : Nat} {b : UInt8} {bytes : Bytes}
    (h : Retold m (before ++ .stored call a b ::
      (between ++ .deed (.entry (.readResident start len (.ok bytes))) :: after)) m') (hm : m.Paged)
    (hbetween : ∀ e ∈ between, e.storesTo a = false) (hle : start ≤ a) (hlt : a < start + len) :
    bytes[a - start]? = some b ∧ ∀ e ∈ between, e.drops m.pageSize a = false := by
  rw [← List.cons_append, ← List.append_assoc] at h
  obtain ⟨m₁, m₂, hbefore, heffect, -⟩ := h.at
  obtain ⟨hlength, hread⟩ := heffect.read (hbefore.steady hm).1
  have hbyte := hread (a - start) (by omega)
  rw [Nat.add_sub_cancel' hle] at hbyte
  rcases hbefore.load_stored hm hbetween with ⟨hload, hspared⟩ | ⟨hload, -⟩
  · exact ⟨hbyte.symm.trans hload, hspared⟩
  · rw [hload, List.getElem?_eq_getElem (show a - start < bytes.length by omega)] at hbyte
    cases hbyte

/-- The last of several elements. -/
theorem exists_last {α : Type} {p : α → Bool} {l : List α} (h : ∃ x ∈ l, p x) :
    ∃ before x after, l = before ++ x :: after ∧ p x ∧ ∀ y ∈ after, p y = false := by
  induction l with
  | nil =>
    obtain ⟨x, hx, -⟩ := h
    cases hx
  | cons x l ih =>
    by_cases hrest : ∃ y ∈ l, p y
    · obtain ⟨before, y, after, rfl, hy, hafter⟩ := ih hrest
      exact ⟨x :: before, y, after, rfl, hy, hafter⟩
    · obtain ⟨y, hy, hpy⟩ := h
      rcases List.mem_cons.mp hy with rfl | hy
      · exact ⟨[], y, l, rfl, hpy, fun z hz => Bool.not_eq_true _ ▸ fun hpz => hrest ⟨z, hz, hpz⟩⟩
      · exact absurd ⟨y, hy, hpy⟩ hrest

/-! ### The floor -/

namespace Floor

variable {f f₀ f₁ f₂ : Floor ScriptedMemory γ}

/-- The floor opens with books on which each object has a number of its own, and with a
memory of whole pages. -/
structure Stocked (f : Floor ScriptedMemory γ) : Prop extends f.Opens where
  filed : f.worker.toDesk.Filed
  ids : ∀ e ∈ f.worker.objects.toList, ∀ e' ∈ f.worker.objects.toList,
    e.value.id = e'.value.id → e = e'
  paged : f.worker.pages.Paged

variable {e e' : Interval (Object γ)} {i start len : Nat} {span : Span} {bytes : Bytes}
  {before after : List Event}

/-- A chunk that covers an element byte is the chunk of that byte. -/
theorem Stocked.eq_of_covers (h₀ : f₀.Stocked) (he : e ∈ f₀.worker.objects.toList)
    (hi : i < e.value.geometry.bodyLen) (he' : e' ∈ f₀.worker.objects.toList)
    (hspan : e'.value.geometry.locate span.offset = .ok (some span))
    (hle : e'.bodyStart + span.offset ≤ e.bodyStart + i)
    (hlt : e.bodyStart + i < e'.bodyStart + span.offset + span.count * e'.value.geometry.stride) :
    e' = e ∧ span = e.value.geometry.chunkAt i := by
  have hregular : ∀ x ∈ f₀.worker.objects.toList, x.value.geometry.Regular :=
    fun x hx => h₀.filed.regular hx
  have hend : ∀ x ∈ f₀.worker.objects.toList, x.bodyStart + x.value.geometry.pagedBody =
      x.start + x.len := fun x hx => by
    rw [h₀.filed.len x hx]
    exact Nat.add_assoc ..
  have hholds : e.Holds (e.bodyStart + i) := by
    have hbody := (hregular e he).body_le
    have hstop := hend e he
    unfold Interval.Holds Interval.bodyStart at *
    omega
  have hholds' : e'.Holds (e.bodyStart + i) := by
    obtain ⟨-, hchunk, hspan⟩ := (Geometry.locate_eq_some (hregular e' he')).mp hspan
    have hcontent := Geometry.Regular.content_end_le hchunk
    rw [← hspan] at hcontent
    have hbody := (hregular e' he').body_le
    have hstop := hend e' he'
    unfold Interval.Holds Interval.bodyStart at *
    omega
  obtain rfl := h₀.sound.eq_of_holds he' he hholds' hholds
  exact ⟨rfl, ((hregular e' he').chunkAt_eq hspan (by omega) (by omega)).symm⟩

/-- A chunk with the number and the first element of the chunk of a byte is that chunk. -/
theorem Stocked.eq_of_first (h₀ : f₀.Stocked) (he : e ∈ f₀.worker.objects.toList)
    (he' : e' ∈ f₀.worker.objects.toList) (hid : e'.value.id = e.value.id)
    (hspan : e'.value.geometry.locate span.offset = .ok (some span))
    (hfirst : span.first = (e.value.geometry.chunkAt i).first) :
    e' = e ∧ span = e.value.geometry.chunkAt i := by
  obtain rfl := h₀.ids e' he' e he hid
  have hregular := h₀.filed.regular he'
  obtain ⟨-, -, heq⟩ := (Geometry.locate_eq_some hregular).mp hspan
  rw [heq] at hfirst ⊢
  exact ⟨rfl, hregular.chunk_inj hfirst⟩

/-- What was read last of a byte is what was handed over last for its chunk, unless the
worker has done nothing since. -/
theorem Stocked.handed_of_read (h₀ : f₀.Stocked) (h : Reaches f₀ f)
    (he : e ∈ f₀.worker.objects.toList) (hi : i < e.value.geometry.bodyLen)
    (hlog : f.log = before ++ .deed (.entry (.readResident start len (.ok bytes))) :: after)
    (hle : start ≤ e.bodyStart + i) (hlt : e.bodyStart + i < start + len)
    (hlast : ∀ x ∈ after, x.reads (e.bodyStart + i) = false) : deedsOf after = [] ∨
      start = e.bodyStart + (e.value.geometry.chunkAt i).offset ∧
        (handed e.value.id (e.value.geometry.chunkAt i).first (deedsOf f.log)).getLast? =
          some bytes := by
  have hlawful := (h.attends h₀.toOpens).lawful
  have hdeeds : deedsOf f.log =
      deedsOf before ++ .entry (.readResident start len (.ok bytes)) :: deedsOf after := by
    rw [hlog, deedsOf_append]
    rfl
  change Lawful _ (deedsOf f.log) at hlawful
  rw [hdeeds] at hlawful ⊢
  cases hafter : deedsOf after with
  | nil => exact .inl rfl
  | cons d rest =>
    rw [hafter] at hlawful
    obtain ⟨e', he', span, given, rfl, rfl, hspan, hgiven, rfl⟩ := hlawful.handOver_of_read
    obtain ⟨rfl, rfl⟩ := h₀.eq_of_covers he hi he' hspan hle hlt
    have hlength : bytes.length =
        (e'.value.geometry.chunkAt i).count * e'.value.geometry.stride := by
      obtain ⟨m₁, m₂, hbefore, heffect, -⟩ := (hlog ▸ h.retold h₀.toOpens).at
      exact (heffect.read (hbefore.steady h₀.paged).1).1
    -- To hand the chunk over again is to read it again, and it was not.
    have hrest : handed e'.value.id (e'.value.geometry.chunkAt i).first rest = [] := by
      refine List.eq_nil_iff_forall_not_mem.mpr fun bytes' hbytes' => ?_
      obtain ⟨between, stop, late, rfl⟩ := exists_of_handed hbytes'
      rw [← List.cons_append, ← List.cons_append, ← List.append_assoc] at hlawful
      obtain ⟨e₂, he₂, span₂, bytes₂, hid, hfirst, hspan₂, -, hread⟩ := hlawful.read_of_handOver
      obtain ⟨rfl, rfl⟩ := h₀.eq_of_first he' he₂ hid hspan₂ hfirst
      rw [List.getLast?_append_of_ne_nil _ (List.cons_ne_nil _ _), List.getLast?_cons_cons] at hread
      rcases List.mem_cons.mp (List.mem_of_getLast? hread) with heq | hmem
      · cases heq
      · have hlate := mem_deedsOf.mp (hafter ▸ List.mem_cons_of_mem _ (List.mem_append_left _ hmem))
        exact Bool.false_ne_true ((hlast _ hlate).symm.trans (Event.reads_iff.mpr ⟨hle, hlt⟩))
    refine .inr ⟨rfl, ?_⟩
    have hone : handed e'.value.id (e'.value.geometry.chunkAt i).first
        [.entry (.writeBack e'.value.id (e'.value.geometry.chunkAt i).first
          (e'.value.geometry.chunkAt i).stop given)] = [given] := by
      simp [handed]
    rw [List.append_cons, List.append_cons, handed_append, hrest, List.append_nil,
      handed_append, hone,
      List.getLast?_concat, hgiven hlength]

/-- What was handed over last for the chunk of a byte that was not read since is what was
read before. -/
theorem Stocked.read_of_handed (h₀ : f₀.Stocked) (h : Reaches f₀ f)
    (he : e ∈ f₀.worker.objects.toList) (hi : i < e.value.geometry.bodyLen) {middle : Event}
    (hlog : f.log = before ++ middle :: after) (hmiddle : middle.reads (e.bodyStart + i) = false)
    (hafter : ∀ x ∈ after, x.reads (e.bodyStart + i) = false) {given : Bytes}
    (hgiven : given ∈ handed e.value.id (e.value.geometry.chunkAt i).first (deedsOf f.log)) :
    .deed (.entry (.readResident (e.bodyStart + (e.value.geometry.chunkAt i).offset)
      ((e.value.geometry.chunkAt i).count * e.value.geometry.stride) (.ok given))) ∈ before := by
  have hlawful := (h.attends h₀.toOpens).lawful
  change Lawful _ (deedsOf f.log) at hlawful
  obtain ⟨early, stop, late, hdeeds⟩ := exists_of_handed hgiven
  rw [hdeeds] at hlawful
  obtain ⟨e', he', span, bytes, hid, hfirst, hspan, hsame, hread⟩ := hlawful.read_of_handOver
  obtain ⟨rfl, rfl⟩ := h₀.eq_of_first he he' hid hspan hfirst
  have hmem : .deed (.entry (.readResident _ _ (.ok bytes))) ∈ f.log :=
    mem_deedsOf.mp (hdeeds ▸ List.mem_append_left _ (List.mem_of_getLast? hread))
  obtain ⟨l, r, hsplit⟩ := List.append_of_mem hmem
  obtain ⟨m₁, m₂, hl, heffect, -⟩ := (hsplit ▸ h.retold h₀.toOpens).at
  have hlength := (heffect.read (hl.steady h₀.paged).1).1
  rw [hsame hlength]
  obtain ⟨hle, hlt⟩ := (h₀.filed.regular he').chunkAt_content hi
  have hreads : ∀ x : Event, x.reads (e'.bodyStart + i) = false → x ≠ .deed (.entry
      (.readResident (e'.bodyStart + (e'.value.geometry.chunkAt i).offset)
        ((e'.value.geometry.chunkAt i).count * e'.value.geometry.stride) (.ok bytes))) := by
    rintro x hx rfl
    exact Bool.false_ne_true (hx.symm.trans (Event.reads_iff.mpr ⟨by omega, by omega⟩))
  rw [hlog] at hmem
  rcases List.mem_append.mp hmem with hmem | hmem
  · exact hmem
  · rcases List.mem_cons.mp hmem with heq | hmem
    · exact absurd heq.symm (hreads _ hmiddle)
    · exact absurd rfl (hreads _ (hafter _ hmem))

/-! ### Writes -/

/-- What was handed over last for the chunk of a byte of a body. -/
def handedLast (f : Floor ScriptedMemory γ) (h : Handle) (i : Nat) : Option Bytes :=
  (handed h.id (h.geometry.chunkAt i).first (deedsOf f.log)).getLast?

/-- The byte is there, or what was handed over last has it. -/
def Survives (f : Floor ScriptedMemory γ) (h : Handle) (i : Nat) (b : UInt8) : Prop :=
  load (h.place i) f.worker.pages = some b ∨
    ∃ given, f.handedLast h i = some given ∧ given[i - (h.geometry.chunkAt i).offset]? = some b

/-- The byte is not there, and what was handed over last was read before a moment. -/
structure Lost (f : Floor ScriptedMemory γ) (h : Handle) (i : Nat)
    (before : List Event) : Prop where
  gone : load (h.place i) f.worker.pages = none
  stale : ∀ given, f.handedLast h i = some given →
    .deed (.entry (.readResident (h.place (h.geometry.chunkAt i).offset)
      ((h.geometry.chunkAt i).count * h.geometry.stride) (.ok given))) ∈ before

end Floor

/-- A byte was dropped that was not read meanwhile. -/
def Overlooked (pageSize a : Nat) (since : List Event) : Prop :=
  (∃ e ∈ since, e.drops pageSize a) ∧ ∀ e ∈ since, e.reads a = false

namespace Floor

variable {f f₀ f₁ f₂ : Floor ScriptedMemory γ} {e : Interval (Object γ)} {i call : Nat} {b : UInt8}
  {before after : List Event}

/-- A byte that was stored survives unless it was overlooked. -/
theorem Stocked.survives (h₀ : f₀.Stocked) (h : Reaches f₀ f)
    (he : e ∈ f₀.worker.objects.toList) (hi : i < e.value.geometry.bodyLen)
    (hlog : f.log = before ++ .stored call (e.bodyStart + i) b :: after)
    (hafter : ∀ x ∈ after, x.storesTo (e.bodyStart + i) = false)
    (hseen : ¬Overlooked f.worker.pages.pageSize (e.bodyStart + i) after) :
    load (e.bodyStart + i) f.worker.pages = some b ∨
      ∃ given, (handed e.value.id (e.value.geometry.chunkAt i).first (deedsOf f.log)).getLast? =
        some given ∧ given[i - (e.value.geometry.chunkAt i).offset]? = some b := by
  have hretold := h.retold h₀.toOpens
  rw [(hretold.steady h₀.paged).2] at hseen
  rw [hlog] at hretold
  rcases hretold.load_stored h₀.paged hafter with ⟨hload, -⟩ | ⟨hnone, hdrops⟩
  · exact .inl hload
  · have hread : ∃ x ∈ after, x.reads (e.bodyStart + i) := by
      by_contra hread
      exact hseen ⟨hdrops, fun x hx => Bool.not_eq_true _ ▸ fun h => hread ⟨x, hx, h⟩⟩
    obtain ⟨between, x, late, rfl, hx, hlast⟩ := exists_last hread
    obtain ⟨start, len, bytes, rfl, hle, hlt⟩ := Event.reads_cases hx
    have hbetween : ∀ y ∈ between, y.storesTo (e.bodyStart + i) = false := fun y hy =>
      hafter y (List.mem_append_left _ hy)
    obtain ⟨hbyte, hspared⟩ := hretold.read_stored h₀.paged hbetween hle hlt
    rw [← List.cons_append, ← List.append_assoc] at hlog
    rcases h₀.handed_of_read h he hi hlog hle hlt hlast with hnothing | ⟨rfl, hgiven⟩
    · -- The worker has done nothing since it read the byte, so it has not dropped it.
      obtain ⟨y, hy, hdrop⟩ := hdrops
      rcases List.mem_append.mp hy with hy | hy
      · exact absurd ((hspared y hy).symm.trans hdrop) Bool.false_ne_true
      · obtain ⟨d, rfl⟩ := Event.drops_cases hdrop
        rcases List.mem_cons.mp hy with heq | hy
        · cases heq
          cases hdrop
        · rw [List.eq_nil_iff_forall_not_mem] at hnothing
          exact absurd (mem_deedsOf.mpr hy) (hnothing d)
    · rw [Nat.add_sub_add_left] at hbyte
      exact .inr ⟨bytes, hgiven, hbyte⟩

/-- **A write that has succeeded is lost exactly if it was overlooked.** Let a write have
stored a byte of a body, and nobody have stored to it since. If the byte was dropped and not
read meanwhile, it is not there, and what was handed over last was read before the write.
If not, it is there, or what was handed over last has it. -/
theorem write_survives (h₀ : f₀.Stocked) (h₁ : Reaches f₀ f₁) {handle offset : Nat} {bytes : Bytes}
    (hmove : f₁.move (.call handle (.write .body offset bytes)) = some f₂) (h₂ : Reaches f₂ f)
    {h : Handle} {result : Bytes}
    (hcall : f.calls[f₁.calls.length]? = some ⟨h, .accessed (.ok result)⟩)
    (hoffset : offset ≤ i) (hb : bytes[i - offset]? = some b) :
    .stored f₁.calls.length (h.place i) b ∈ f.log ∧
      ∀ before after, f.log = before ++ .stored f₁.calls.length (h.place i) b :: after →
        (∀ x ∈ after, x.storesTo (h.place i) = false) →
        (Overlooked f.worker.pages.pageSize (h.place i) after → f.Lost h i before) ∧
          (¬Overlooked f.worker.pages.pageSize (h.place i) after → f.Survives h i b) := by
  have hreach : Reaches f₀ f := (h₁.step hmove).trans h₂
  obtain ⟨hh, hfits, hstored⟩ := h₁.wrote h₀.toOpens hmove h₂ hcall
  obtain ⟨e, he, hstart, hid, hgeometry, -⟩ := h₀.handles h hh
  have hplace : ∀ j, h.place j = e.bodyStart + j := fun j => by
    unfold Handle.place Interval.bodyStart
    rw [hstart, hgeometry]
  have hi : i < e.value.geometry.bodyLen := by
    have hlt := (List.getElem?_eq_some_iff.mp hb).1
    change offset + bytes.length ≤ h.geometry.bodyLen at hfits
    rw [hgeometry]
    omega
  refine ⟨?_, fun before after hlog hafter => ⟨fun hlost => ⟨?_, ?_⟩, fun hseen => ?_⟩⟩
  · have hmem := hstored (i - offset) b hb
    rwa [Nat.add_assoc, Nat.add_sub_cancel' hoffset] at hmem
  · have hretold := hreach.retold h₀.toOpens
    obtain ⟨x, hx, hdrops⟩ := hlost.1
    rw [(hretold.steady h₀.paged).2] at hdrops
    rw [hlog] at hretold
    exact hretold.load_dropped h₀.paged (List.mem_append_right _ (List.mem_cons_of_mem _ hx)) hdrops
  · intro given hgiven
    unfold handedLast at hgiven
    rw [hplace] at hlog hlost ⊢
    rw [← hid, ← hgeometry] at hgiven
    rw [← hgeometry]
    exact h₀.read_of_handed hreach he hi hlog rfl hlost.2 (List.mem_of_getLast? hgiven)
  · rw [hplace] at hlog hafter hseen
    unfold Survives handedLast
    rw [hplace, ← hid, ← hgeometry]
    exact h₀.survives hreach he hi hlog hafter hseen

/-- The handle of the sample object. -/
def sampleHandle : Handle := ⟨1, 0x10000000, Worker.sampleObject.geometry, 0⟩

theorem sampleFloor_stocked : sampleFloor.Stocked where
  toOpens := sampleFloor_opens
  filed := Worker.sampleRun_full.inOrder.filed
  ids := by
    have hone : sampleFloor.worker.objects.toList.length = 1 := by decide +kernel
    intro e he e' he' _
    obtain ⟨x, hx⟩ := List.length_eq_one_iff.mp hone
    rw [hx] at he he'
    rw [List.mem_singleton.mp he, List.mem_singleton.mp he']
  paged := ⟨by decide +kernel, by decide +kernel⟩

/-- The event of a number stores a value. -/
def storedAt (log : List Event) (n call a : Nat) (b : UInt8) : Bool :=
  log[n]?.any fun
    | .stored call' a' b' => call' = call ∧ a' = a ∧ b' = b
    | _ => false

theorem split_of_storedAt {log : List Event} {n call a : Nat} {b : UInt8}
    (h : storedAt log n call a b) : log = log.take n ++ .stored call a b :: log.drop (n + 1) := by
  obtain ⟨e, he, hstored⟩ := (Option.any_eq_true _ _).mp h
  obtain ⟨hn, rfl⟩ := List.getElem?_eq_some_iff.mp he
  split at hstored
  · rename_i heq
    obtain ⟨rfl, rfl, rfl⟩ := of_decide_eq_true hstored
    rw [← heq, List.getElem_cons_drop, List.take_append_drop]
  · cases hstored

/-- The first byte is written, and its chunk is read. -/
def sampleRead : List Choice := List.replicate 5 (.advance 0) ++ .evict :: List.replicate 2 .work

/-- The chunk is handed over and dropped after the second byte was written. -/
def sampleDropped : List Choice := List.replicate 5 (.advance 1) ++ List.replicate 2 .work

/-- The first byte was handed over, and the second one is lost. -/
theorem write_survives_sample :
    ∃ f : Floor ScriptedMemory Unit, Reaches sampleFloor f ∧
      f.calls.map (·.progress) = [.accessed (.ok []), .accessed (.ok [])] ∧
      f.Survives sampleHandle 0 7 ∧ ∃ before after,
        f.log = before ++ .stored 1 (sampleHandle.place 1) 9 :: after ∧
          f.Lost sampleHandle 1 before := by
  have hrun : (sampleFloor.move (.call 0 (.write .body 0 [7]))).any fun f₁ =>
      (play sampleRead f₁).any fun f₂ =>
        f₂.calls.length = 1 ∧ (f₂.move (.call 0 (.write .body 1 [9]))).any fun f₃ =>
          (play sampleDropped f₃).any fun f =>
            f.calls.map (·.progress) = [.accessed (.ok []), .accessed (.ok [])] ∧
            f.worker.pages.pageSize = 16 ∧
            storedAt f.log 0 0 0x10000000 7 ∧ storedAt f.log 3 1 0x10000001 9 ∧
            (∀ x ∈ f.log.drop 1, x.storesTo 0x10000000 = false) ∧
            (∃ x ∈ f.log.drop 1, x.reads 0x10000000) ∧
            (∀ x ∈ f.log.drop 4, x.storesTo 0x10000001 = false) ∧
            (∃ x ∈ f.log.drop 4, x.drops 16 0x10000001) ∧
            (∀ x ∈ f.log.drop 4, x.reads 0x10000001 = false) := by
    decide +kernel
  obtain ⟨f₁, hcall, hrun⟩ := (Option.any_eq_true _ _).mp hrun
  obtain ⟨f₂, hread, hrun⟩ := (Option.any_eq_true _ _).mp hrun
  obtain ⟨hone, hrun⟩ := of_decide_eq_true hrun
  obtain ⟨f₃, hcall', hrun⟩ := (Option.any_eq_true _ _).mp hrun
  obtain ⟨f, hdropped, hrun⟩ := (Option.any_eq_true _ _).mp hrun
  obtain ⟨hprogress, hsize, hfirst, hsecond, honce, hseen, honce', hdrops, hunseen⟩ :=
    of_decide_eq_true hrun
  have h₂ : Reaches sampleFloor f₂ := (Reaches.refl.step hcall).play hread
  have h₃ : Reaches f₃ f := Reaches.refl.play hdropped
  have hreach : Reaches sampleFloor f := (h₂.step hcall').trans h₃
  obtain ⟨hsame, hknown⟩ := hreach.handles sampleFloor_opens
  have hhandle : ∀ call ∈ f.calls, call.handle = sampleHandle := fun call hcall =>
    List.mem_singleton.mp (hsame.symm ▸ hknown call hcall : call.handle ∈ sampleFloor.handles)
  obtain ⟨a, rest, hcalls, ha, hrest⟩ := List.map_eq_cons_iff.mp hprogress
  obtain ⟨b, rfl, hb⟩ := List.map_eq_singleton_iff.mp hrest
  rw [hcalls] at hhandle
  have hover : f.calls[0]? = some ⟨sampleHandle, .accessed (.ok [])⟩ := by
    rw [hcalls, ← hhandle a (by simp), ← ha]
    rfl
  have hover' : f.calls[f₂.calls.length]? = some ⟨sampleHandle, .accessed (.ok [])⟩ := by
    rw [hone, hcalls, ← hhandle b (by simp), ← hb]
    rfl
  refine ⟨f, hreach, hprogress, ?_, _, _, split_of_storedAt hsecond, ?_⟩
  · have hkept := write_survives sampleFloor_stocked .refl hcall
      (((Reaches.refl.play hread).step hcall').trans h₃) hover (Nat.le_refl 0) rfl
    refine (hkept.2 _ _ (split_of_storedAt hfirst) honce).2 fun hover => ?_
    obtain ⟨x, hx, hreads⟩ := hseen
    exact Bool.false_ne_true ((hover.2 x hx).symm.trans hreads)
  · have hlost := write_survives sampleFloor_stocked h₂ hcall' h₃ hover' (Nat.le_refl 1) rfl
    rw [hone] at hlost
    refine (hlost.2 _ _ (split_of_storedAt hsecond) honce').1 ?_
    rw [hsize]
    exact ⟨hdrops, hunseen⟩

end Floor
end DemandPager
