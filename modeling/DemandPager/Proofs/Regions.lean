/-
# Two arrays in one buffer

The memory of an object is one buffer, but its accessors treat it as two arrays, each with
bounds of its own: the header, which lies at the end of its padding, and the body right behind
it. This file takes any sequence of accesses, in bounds or not, between which the gate of the
object is turned in any way, and says what each access returns and what it changes
(`Handle.regions_are_arrays`).

The list of copies (`Handle.copies`) is read off the sequence and the gate alone, without a look
at the buffer. The byte at a place of an array is that of the last copy over it
(`Handle.arrayByte`). A write that finds the memory being unmapped reports an error, but it is a
copy all the same.

Key definitions: `Geometry.InRegion`, `Act`, `Handle.run`, `Copy`, `Handle.copies`,
`Handle.arrayByte`, `Handle.TwoArrays`.
Key theorems: `Handle.writeBuffer_eq`, `Handle.Holds.act`, `Handle.regions_are_arrays`.
-/
import DemandPager.Handle
import DemandPager.Proofs.Chunks
import DemandPager.Proofs.Contents

namespace DemandPager

/-! ### Where the regions lie -/

namespace Geometry

variable {g : Geometry} {r r' : Region} {j : Nat}

/-- Whether a place of the buffer belongs to a region. -/
def InRegion (g : Geometry) (r : Region) (j : Nat) : Prop :=
  g.regionStart r ≤ j ∧ j < g.regionStart r + g.regionLen r

instance (g : Geometry) (r : Region) (j : Nat) : Decidable (g.InRegion r j) :=
  inferInstanceAs (Decidable (_ ∧ _))

theorem Built.header_le (hg : g.Built) : g.headerSize ≤ g.paddedHeader := by
  obtain ⟨pageSize, headerSize, count, stride, minLoad, built, writable, hbuild, rfl⟩ := hg
  obtain ⟨ha, -, rfl⟩ := build_eq_ok.mp hbuild
  exact le_ceiling headerSize (Nat.pos_of_isPowerOfTwo ha.page)

/-- The body begins where the header ends. -/
theorem Built.header_stop (hg : g.Built) :
    g.regionStart .header + g.regionLen .header = g.regionStart .body := by
  have hle := hg.header_le
  simp only [regionStart, regionLen]
  omega

theorem Built.region_stop_le (hg : g.Built) (r : Region) :
    g.regionStart r + g.regionLen r ≤ g.trueSize := by
  have hbody : g.regionStart .body + g.regionLen .body ≤ g.trueSize :=
    Nat.add_le_add_left hg.regular.body_le _
  cases r with
  | body => exact hbody
  | header =>
    have hheader := hg.header_stop
    omega

/-- A bound that an access keeps is a word. -/
theorem Built.regionLen_lt (hg : g.Built) (r : Region) : g.regionLen r < wordBound := by
  have hle := hg.region_stop_le r
  have hlt := hg.regular.size_lt
  omega

/-- A place belongs to one region at most. -/
theorem Built.region_unique (hg : g.Built) (h : g.InRegion r j) (h' : g.InRegion r' j) :
    r = r' := by
  have hstop := hg.header_stop
  unfold InRegion at h h'
  cases r <;> cases r' <;> first | rfl | omega

end Geometry

/-! ### A sequence of accesses -/

/-- An object whose memory is a buffer, with its gate. -/
structure Buffered where
  gate : Gate
  buffer : Bytes
deriving DecidableEq

/-- What happens to such an object: an access, or a turn of its gate. -/
inductive Act
  | read (region : Region) (offset len : Nat)
  | write (region : Region) (offset : Nat) (bytes : Bytes)
  | retire
  | revive
  | beginUnmap
  | abortUnmap

/-- What an act makes of the gate. -/
def Act.turn : Act → Gate → Gate
  | .retire, g => g.retire
  | .revive, g => g.revive
  | .beginUnmap, g => g.beginUnmap
  | .abortUnmap, g => g.abortUnmap
  | _, g => g

/-- Bytes that were copied into a region. -/
structure Copy where
  region : Region
  offset : Nat
  bytes : Bytes
deriving DecidableEq

/-- Whether a copy lies over a place of an array. -/
def Copy.Covers (c : Copy) (r : Region) (i : Nat) : Prop :=
  c.region = r ∧ c.offset ≤ i ∧ i < c.offset + c.bytes.length

instance (c : Copy) (r : Region) (i : Nat) : Decidable (c.Covers r i) :=
  inferInstanceAs (Decidable (_ ∧ _))

namespace Handle

variable {h : Handle} {gate : Gate} {region r : Region} {offset len i j : Nat}
  {bytes buffer initial : Bytes} {s : Buffered} {cs : List Copy}

/-- What an act makes of the object. A read leaves it as it is. -/
def act (h : Handle) (s : Buffered) : Act → Buffered
  | .write region offset bytes =>
    { s with buffer := (h.writeBuffer s.gate region offset bytes s.buffer).2 }
  | a => { s with gate := a.turn s.gate }

/-- What a sequence of acts makes of the object. -/
def run (h : Handle) (s : Buffered) (acts : List Act) : Buffered := acts.foldl h.act s

/-- Whether the region may be written at all. -/
def MayWrite (h : Handle) (region : Region) : Prop :=
  region = .body → h.geometry.readOnly = false

instance (h : Handle) (region : Region) : Decidable (h.MayWrite region) :=
  inferInstanceAs (Decidable (_ → _))

/-- The copy that an act makes, if it makes one: a write within bounds to a region that may be
written, while accesses may begin. -/
def copy? (h : Handle) (gate : Gate) : Act → Option Copy
  | .write region offset bytes =>
    if h.MayWrite region ∧ offset + bytes.length ≤ h.geometry.regionLen region ∧ gate.alive then
      some ⟨region, offset, bytes⟩
    else none
  | _ => none

/-- The copies that a sequence of acts makes, in their order. -/
def copies (h : Handle) : Gate → List Act → List Copy
  | _, [] => []
  | gate, a :: rest => (h.copy? gate a).toList ++ copies h (a.turn gate) rest

/-- The byte at a place of an array: that of the last copy over it, or the one that was there at
first. -/
def arrayByte (h : Handle) (initial : Bytes) (cs : List Copy) (r : Region) (i : Nat) :
    Option UInt8 :=
  match cs.reverse.find? (·.Covers r i) with
  | some c => c.bytes[i - c.offset]?
  | none => initial[h.geometry.regionStart r + i]?

theorem arrayByte_append (c : Copy) :
    h.arrayByte initial (cs ++ [c]) r i =
      if c.Covers r i then c.bytes[i - c.offset]? else h.arrayByte initial cs r i := by
  unfold arrayByte
  by_cases hc : c.Covers r i
  · simp [hc]
  · simp [hc]

/-! ### One access -/

/-- What an access needs besides the right to write: its end is a word and within the region, the
object is alive, and nobody unmaps its memory. -/
structure Passes (h : Handle) (gate : Gate) (region : Region) (offset len : Nat) : Prop where
  word : offset + len < wordBound
  fits : offset + len ≤ h.geometry.regionLen region
  alive : gate.alive = true
  mapped : gate.unmapping = false

theorem readBuffer_eq (h : Handle) (gate : Gate) (region : Region) (offset len : Nat)
    (buffer : Bytes) :
    h.readBuffer gate region offset len buffer =
      if h.geometry.regionLen region < offset + len then .error (.outOfBounds offset len)
      else if gate.alive = false then .error (.destroyed gate.owner)
      else if gate.unmapping = true then .error .shuttingDown
      else .ok (buffer.slice (h.geometry.regionStart region + offset) len) := by
  unfold readBuffer permit Gate.enter Gate.leave
  simp only [Bool.false_and, Bool.false_eq_true, if_false]
  by_cases hfits : offset + len ≤ h.geometry.regionLen region
  · rw [if_pos hfits, if_neg (Nat.not_lt.mpr hfits)]
    cases gate.alive <;> cases gate.unmapping <;> rfl
  · rw [if_neg hfits, if_pos (Nat.not_le.mp hfits)]
    rfl

theorem leave_eq_ok : gate.leave = .ok () ↔ gate.unmapping = false := by
  unfold Gate.leave
  cases gate.unmapping <;> simp

theorem leave_mem (gate : Gate) : gate.leave ∈ [.ok (), .error .shuttingDown] := by
  unfold Gate.leave
  cases gate.unmapping <;> simp

/-- The checks of a write, in order. Only after all of them the buffer is changed, and then it is
changed even if the memory is being unmapped. -/
theorem writeBuffer_eq (h : Handle) (gate : Gate) (region : Region) (offset : Nat)
    (bytes buffer : Bytes) :
    h.writeBuffer gate region offset bytes buffer =
      if ¬h.MayWrite region then (.error (.readOnly h.id), buffer)
      else if h.geometry.regionLen region < offset + bytes.length then
        (.error (.outOfBounds offset bytes.length), buffer)
      else if gate.alive = false then (.error (.destroyed gate.owner), buffer)
      else (gate.leave, buffer.splice (h.geometry.regionStart region + offset) bytes) := by
  have hwrite : (true && region == .body && h.geometry.readOnly) = true ↔ ¬h.MayWrite region := by
    simp [MayWrite]
  unfold writeBuffer permit Gate.enter
  simp only [hwrite]
  by_cases hmay : ¬h.MayWrite region
  · rw [if_pos hmay, if_pos hmay]
    rfl
  rw [if_neg hmay, if_neg hmay]
  by_cases hfits : offset + bytes.length ≤ h.geometry.regionLen region
  · rw [if_pos hfits, if_neg (Nat.not_lt.mpr hfits)]
    cases gate.alive <;> rfl
  · rw [if_neg hfits, if_pos (Nat.not_le.mp hfits)]
    rfl

/-- A write is refused and leaves the buffer, or it copies. -/
theorem writeBuffer_cases (h : Handle) (gate : Gate) (region : Region) (offset : Nat)
    (bytes buffer : Bytes) :
    (∃ cause ∈ [.readOnly h.id, .outOfBounds offset bytes.length, .destroyed gate.owner],
      h.writeBuffer gate region offset bytes buffer = (.error cause, buffer)) ∨
    offset + bytes.length ≤ h.geometry.regionLen region ∧
      ∃ result ∈ [.ok (), .error .shuttingDown],
        h.writeBuffer gate region offset bytes buffer =
          (result, buffer.splice (h.geometry.regionStart region + offset) bytes) := by
  rw [writeBuffer_eq]
  by_cases hmay : h.MayWrite region
  · rw [if_neg (not_not.mpr hmay)]
    split_ifs with hfits halive
    · exact .inl ⟨_, by simp, rfl⟩
    · exact .inl ⟨_, by simp, rfl⟩
    · exact .inr ⟨Nat.not_lt.mp hfits, _, leave_mem gate, rfl⟩
  · rw [if_pos hmay]
    exact .inl ⟨_, by simp, rfl⟩

/-- A write changes the buffer exactly if it makes a copy. -/
theorem writeBuffer_snd (h : Handle) (gate : Gate) (region : Region) (offset : Nat)
    (bytes buffer : Bytes) :
    (h.writeBuffer gate region offset bytes buffer).2 =
      if h.MayWrite region ∧ offset + bytes.length ≤ h.geometry.regionLen region ∧ gate.alive then
        buffer.splice (h.geometry.regionStart region + offset) bytes
      else buffer := by
  rw [writeBuffer_eq]
  by_cases hmay : h.MayWrite region
  · by_cases hfits : offset + bytes.length ≤ h.geometry.regionLen region
    · cases hgate : gate.alive <;> simp [hmay, hfits, Nat.not_lt.mpr hfits]
    · simp [hmay, hfits, Nat.not_le.mp hfits]
  · simp [hmay]

/-- The bytes that a copy puts into the buffer, and the ones around it. -/
theorem getElem?_copied (hg : h.geometry.Built) (hbuffer : buffer.length = h.geometry.trueSize)
    (hfits : offset + bytes.length ≤ h.geometry.regionLen region) (j : Nat) :
    (buffer.splice (h.geometry.regionStart region + offset) bytes)[j]? =
      if h.geometry.regionStart region + offset ≤ j ∧
          j < h.geometry.regionStart region + offset + bytes.length then
        bytes[j - (h.geometry.regionStart region + offset)]?
      else buffer[j]? := by
  have hstop := hg.region_stop_le region
  exact Bytes.getElem?_splice (by omega) j

/-! ### What holds after a sequence -/

/-- The buffer after some copies: both arrays have the bytes of the copies, and the padding of the
header and the rest of the last page are as they were. -/
structure Holds (h : Handle) (initial : Bytes) (cs : List Copy) (buffer : Bytes) : Prop where
  length : buffer.length = h.geometry.trueSize
  array : ∀ r, ∀ i < h.geometry.regionLen r,
    buffer[h.geometry.regionStart r + i]? = h.arrayByte initial cs r i
  rest : ∀ j, (∀ r, ¬h.geometry.InRegion r j) → buffer[j]? = initial[j]?

theorem holds_nil (hinitial : initial.length = h.geometry.trueSize) :
    h.Holds initial [] initial :=
  ⟨hinitial, fun _ _ _ => rfl, fun _ _ => rfl⟩

/-- A copy within bounds goes to its own array. -/
theorem Holds.copy (hs : h.Holds initial cs buffer) (hg : h.geometry.Built) {c : Copy}
    (hfits : c.offset + c.bytes.length ≤ h.geometry.regionLen c.region) :
    h.Holds initial (cs ++ [c])
      (buffer.splice (h.geometry.regionStart c.region + c.offset) c.bytes) := by
  refine ⟨(Bytes.length_splice ..).trans hs.length, fun r i hi => ?_, fun j hj => ?_⟩
  · rw [getElem?_copied hg hs.length hfits, arrayByte_append]
    by_cases hcovers : c.Covers r i
    · rw [if_pos hcovers]
      obtain ⟨rfl, hle, hlt⟩ := hcovers
      rw [if_pos (by omega)]
      congr 1
      omega
    · -- a byte of the copy is one of its region, and so of no other
      have hout : ¬(h.geometry.regionStart c.region + c.offset ≤ h.geometry.regionStart r + i ∧
          h.geometry.regionStart r + i <
            h.geometry.regionStart c.region + c.offset + c.bytes.length) := by
        rintro ⟨hle, hlt⟩
        have hcopy : h.geometry.InRegion c.region (h.geometry.regionStart r + i) :=
          ⟨by omega, by omega⟩
        have hown : h.geometry.InRegion r (h.geometry.regionStart r + i) :=
          ⟨by omega, by omega⟩
        obtain rfl := hg.region_unique hcopy hown
        exact hcovers ⟨rfl, by omega, by omega⟩
      rw [if_neg hout, if_neg hcovers]
      exact hs.array r i hi
  · have hout : ¬(h.geometry.regionStart c.region + c.offset ≤ j ∧
        j < h.geometry.regionStart c.region + c.offset + c.bytes.length) := by
      intro hin
      exact hj c.region ⟨by omega, by omega⟩
    rw [getElem?_copied hg hs.length hfits, if_neg hout]
    exact hs.rest j hj

/-- What a single act preserves. -/
theorem Holds.act (hs : h.Holds initial cs s.buffer) (hg : h.geometry.Built) (a : Act) :
    h.Holds initial (cs ++ (h.copy? s.gate a).toList) (h.act s a).buffer := by
  cases a with
  | write region offset bytes =>
    simp only [copy?, Handle.act, writeBuffer_snd]
    by_cases hcopies : h.MayWrite region ∧
        offset + bytes.length ≤ h.geometry.regionLen region ∧ s.gate.alive
    · rw [if_pos hcopies, if_pos hcopies]
      exact hs.copy hg hcopies.2.1
    · rw [if_neg hcopies, if_neg hcopies, Option.toList_none, List.append_nil]
      exact hs
  | _ =>
    show h.Holds initial (cs ++ []) s.buffer
    rw [List.append_nil]
    exact hs

theorem gate_act (h : Handle) (s : Buffered) (a : Act) : (h.act s a).gate = a.turn s.gate := by
  cases a <;> rfl

/-- What a whole sequence preserves. -/
theorem Holds.run (hg : h.geometry.Built) (acts : List Act) :
    ∀ {s : Buffered} {cs : List Copy}, h.Holds initial cs s.buffer →
      h.Holds initial (cs ++ h.copies s.gate acts) (h.run s acts).buffer := by
  induction acts with
  | nil =>
    intro s cs hs
    show h.Holds initial (cs ++ []) s.buffer
    rw [List.append_nil]
    exact hs
  | cons a rest ih =>
    intro s cs hs
    have hrest := ih (hs.act hg a)
    rw [gate_act, List.append_assoc] at hrest
    exact hrest

/-! ### The two arrays -/

/-- An object whose regions are two arrays: what accesses return and change. -/
structure TwoArrays (h : Handle) (s : Buffered) (array : Region → Nat → Option UInt8) : Prop where
  /-- A read succeeds exactly if it passes. -/
  read_ok : ∀ region offset len,
    (∃ bytes, h.readBuffer s.gate region offset len s.buffer = .ok bytes) ↔
      h.Passes s.gate region offset len
  /-- Then it returns the bytes of the array. -/
  read_bytes : ∀ region offset len bytes,
    h.readBuffer s.gate region offset len s.buffer = .ok bytes →
      bytes.length = len ∧ ∀ i < len, bytes[i]? = array region (offset + i)
  /-- A write also needs a region that may be written. -/
  write_ok : ∀ region offset bytes,
    (h.writeBuffer s.gate region offset bytes s.buffer).1 = .ok () ↔
      h.Passes s.gate region offset bytes.length ∧ h.MayWrite region
  /-- A write that is refused says why and changes nothing. -/
  write_refused : ∀ region offset bytes cause,
    (h.writeBuffer s.gate region offset bytes s.buffer).1 = .error cause → cause ≠ .shuttingDown →
      cause ∈ [.readOnly h.id, .outOfBounds offset bytes.length, .destroyed s.gate.owner] ∧
        (h.writeBuffer s.gate region offset bytes s.buffer).2 = s.buffer
  /-- Every other write copies its bytes, within its region, and changes nothing else. -/
  write_copied : ∀ region offset bytes,
    (h.writeBuffer s.gate region offset bytes s.buffer).1 ∈ [.ok (), .error .shuttingDown] →
      offset + bytes.length ≤ h.geometry.regionLen region ∧
        ∀ j, (h.writeBuffer s.gate region offset bytes s.buffer).2[j]? =
          if h.geometry.regionStart region + offset ≤ j ∧
              j < h.geometry.regionStart region + offset + bytes.length then
            bytes[j - (h.geometry.regionStart region + offset)]?
          else s.buffer[j]?

theorem readBuffer_eq_ok (hg : h.geometry.Built) :
    h.readBuffer gate region offset len buffer = .ok bytes ↔
      h.Passes gate region offset len ∧
        bytes = buffer.slice (h.geometry.regionStart region + offset) len := by
  rw [readBuffer_eq]
  constructor
  · intro hread
    split_ifs at hread with hfits halive hmapped
    have hlt := hg.regionLen_lt region
    simp only [Bool.not_eq_false, Bool.not_eq_true] at halive hmapped
    cases hread
    exact ⟨⟨by omega, by omega, halive, hmapped⟩, rfl⟩
  · rintro ⟨hpass, rfl⟩
    have hfits := hpass.fits
    rw [if_neg (by omega), hpass.alive, hpass.mapped]
    rfl

theorem writeBuffer_eq_ok (hg : h.geometry.Built) :
    (h.writeBuffer gate region offset bytes buffer).1 = .ok () ↔
      h.Passes gate region offset bytes.length ∧ h.MayWrite region := by
  rw [writeBuffer_eq]
  by_cases hmay : h.MayWrite region
  · rw [if_neg (not_not.mpr hmay)]
    constructor
    · intro hwrite
      split_ifs at hwrite with hfits halive
      have hlt := hg.regionLen_lt region
      have hmapped := leave_eq_ok.mp hwrite
      exact ⟨⟨by omega, by omega, by simpa using halive, hmapped⟩, hmay⟩
    · rintro ⟨hpass, -⟩
      have hfits := hpass.fits
      rw [if_neg (by omega), if_neg (by simp [hpass.alive])]
      exact leave_eq_ok.mpr hpass.mapped
  · rw [if_pos hmay]
    simp [hmay]

/-- The bytes of a slice that ends within the buffer. -/
theorem slice_spec {start : Nat} (hend : start + len ≤ buffer.length) :
    (buffer.slice start len).length = len ∧
      ∀ i < len, (buffer.slice start len)[i]? = buffer[start + i]? := by
  unfold Bytes.slice
  constructor
  · simp only [List.length_take, List.length_drop]
    omega
  · intro i hi
    rw [List.getElem?_take_of_lt hi, List.getElem?_drop]

theorem Holds.twoArrays (hs : h.Holds initial cs s.buffer) (hg : h.geometry.Built) :
    h.TwoArrays s (h.arrayByte initial cs) where
  read_ok region offset len := by
    constructor
    · rintro ⟨bytes, hread⟩
      exact ((readBuffer_eq_ok hg).mp hread).1
    · intro hpass
      exact ⟨_, (readBuffer_eq_ok hg).mpr ⟨hpass, rfl⟩⟩
  read_bytes region offset len bytes hread := by
    obtain ⟨hpass, rfl⟩ := (readBuffer_eq_ok hg).mp hread
    have hfits := hpass.fits
    have hstop := hg.region_stop_le region
    have hlength := hs.length
    have hend : h.geometry.regionStart region + offset + len ≤ s.buffer.length := by omega
    obtain ⟨hlen, hbytes⟩ := slice_spec hend
    refine ⟨hlen, fun i hi => ?_⟩
    rw [hbytes i hi, Nat.add_assoc]
    exact hs.array region (offset + i) (by omega)
  write_ok region offset bytes := writeBuffer_eq_ok hg
  write_refused region offset bytes cause hwrite hcause := by
    rcases writeBuffer_cases h s.gate region offset bytes s.buffer with
      ⟨reason, hreason, heq⟩ | ⟨-, result, hresult, heq⟩
    · rw [heq] at hwrite ⊢
      cases hwrite
      exact ⟨hreason, rfl⟩
    · rw [heq] at hwrite
      simp only at hwrite
      subst hwrite
      simp [hcause] at hresult
  write_copied region offset bytes hwrite := by
    rcases writeBuffer_cases h s.gate region offset bytes s.buffer with
      ⟨reason, hreason, heq⟩ | ⟨hfits, result, -, heq⟩
    · rw [heq] at hwrite
      simp at hreason hwrite
      rcases hreason with rfl | rfl | rfl <;> cases hwrite
    · rw [heq]
      exact ⟨hfits, getElem?_copied hg hs.length hfits⟩

/-- **The regions of an object are two arrays with bounds.** Take an object of any geometry whose
memory is a buffer, and any sequence of reads and writes of its regions and of turns of its gate.
Afterwards an access succeeds exactly if it ends within its region, at a word, while the object is
alive and not being unmapped, and, for a write to the body, if the body may be written. A read
returns for each place the byte of the last copy over it, or the first one if there is none. A write
that is refused changes nothing, and one that copies changes its place in its own region and nothing
else. No place belongs to both regions, and what belongs to none is as at first. -/
theorem regions_are_arrays (hg : h.geometry.Built) (gate : Gate)
    (hinitial : initial.length = h.geometry.trueSize) (acts : List Act) :
    h.TwoArrays (h.run ⟨gate, initial⟩ acts) (h.arrayByte initial (h.copies gate acts)) ∧
      (∀ j, h.geometry.InRegion .header j → ¬h.geometry.InRegion .body j) ∧
      ∀ j, (∀ r, ¬h.geometry.InRegion r j) →
        (h.run ⟨gate, initial⟩ acts).buffer[j]? = initial[j]? := by
  have hs : h.Holds initial (h.copies gate acts) (h.run ⟨gate, initial⟩ acts).buffer := by
    have hrun := Holds.run hg acts (s := ⟨gate, initial⟩) (holds_nil hinitial)
    rwa [List.nil_append] at hrun
  refine ⟨hs.twoArrays hg, fun j hheader hbody => ?_, hs.rest⟩
  cases hg.region_unique hheader hbody

/-- A writable object of a page for the header and one for the body. -/
def sampleBuffered : Handle :=
  { id := 7, start := 0, gate := 0
    geometry := (Geometry.ofSizes 16 8 4 3 (some 1)).setWritable true }

/-- Two writes, the second while the memory is being unmapped, and one beyond the header. -/
def sampleActs : List Act :=
  [.write .body 1 [1, 2, 3], .beginUnmap, .write .body 2 [4], .abortUnmap, .write .header 7 [5, 6]]

theorem regions_are_arrays_sample :
    sampleBuffered.geometry.Built ∧
      (Bytes.zeros 32).length = sampleBuffered.geometry.trueSize ∧
      sampleBuffered.TwoArrays (sampleBuffered.run ⟨{ owner := 7 }, .zeros 32⟩ sampleActs)
        (sampleBuffered.arrayByte (.zeros 32) [⟨.body, 1, [1, 2, 3]⟩, ⟨.body, 2, [4]⟩]) := by
  have hg : sampleBuffered.geometry.Built := ⟨16, 8, 4, 3, some 1, _, true, rfl, rfl⟩
  have hcopies : sampleBuffered.copies { owner := 7 } sampleActs =
      [⟨.body, 1, [1, 2, 3]⟩, ⟨.body, 2, [4]⟩] := by decide
  rw [← hcopies]
  exact ⟨hg, rfl, (regions_are_arrays hg { owner := 7 } rfl sampleActs).1⟩

/-- The body of the sample after these acts. -/
example : sampleBuffered.readBuffer { owner := 7 } .body 0 5
    (sampleBuffered.run ⟨{ owner := 7 }, .zeros 32⟩ sampleActs).buffer = .ok [0, 1, 4, 3, 0] := by
  decide

end Handle
end DemandPager
