/-
# Calls

What callers do with a handle, cut into steps that no other thread sees half done: an
access to a region of the object, or its release. An access is permitted, takes the gate
if the object is alive, copies one byte after the other, asks whether the memory was being
unmapped, and only then lets go of the gate. A release retires the gate, takes the handle
off the index, sends a request and waits for the answer; after a refusal it revives the
gate and puts the handle back.

A gate that is held by an access is retired and revived by nobody. With nobody else there,
the steps of a call are the operations that callers use (`Call.alone_write`,
`Call.alone_beginDestroy`, `Call.alone_endDestroy`).

Key definitions: `Bytewise`, `Intent`, `Progress`, `Call`, `Call.begin`, `Call.advance`,
`Call.Step`.
Key theorems: `Call.step_of_advance`, `Call.alone_write`, `Call.alone_beginDestroy`,
`Call.alone_endDestroy`.
-/
import DemandPager.Paging.Scripted
import DemandPager.Proofs.Contents
import DemandPager.Proofs.Deeds

namespace DemandPager

/-- A memory whose single bytes are loaded and stored. The result is missing while a byte
cannot be reached. -/
class Bytewise (π : Type) where
  load : Nat → π → Option UInt8
  store : Nat → UInt8 → π → Option π

instance : Bytewise ScriptedMemory where
  load address m := m.table.byte? m.pageSize address
  store address b m :=
    if (m.table.byte? m.pageSize address).isSome then
      some { m with table := (m.table.write m.pageSize address [b]).1 }
    else
      none

instance : Bytewise Bytes where
  load address buffer := buffer[address]?
  store address b buffer := if address < buffer.length then some (buffer.set address b) else none

/-- One byte of an access; it is given a value, or loaded. -/
structure Cell where
  address : Nat
  value : Option UInt8
deriving DecidableEq, Repr

/-- What a caller wants of an object. -/
inductive Intent
  | read (region : Region) (offset len : Nat)
  | write (region : Region) (offset : Nat) (bytes : Bytes)
  | destroy
deriving DecidableEq, Repr

/-- How far a call is. -/
inductive Progress
  /-- The access is permitted. -/
  | arriving (cells : List Cell)
  /-- The gate is held. These bytes are still to be copied, and these were loaded. -/
  | copying (cells : List Cell) (loaded : Bytes)
  /-- The gate is held, and the copy has ended. -/
  | copied (loaded : Bytes)
  /-- The gate is held, and it was asked whether the memory was being unmapped. -/
  | leaving (result : Except PagerError Bytes)
  | accessed (result : Except PagerError Bytes)
  /-- The object is to be released. -/
  | destroying
  /-- The gate was retired. -/
  | retired
  /-- The handle was taken off the index, if it was there. -/
  | unindexed (indexed : Bool)
  /-- The worker was asked. -/
  | waiting (ticket : Nat) (indexed : Bool)
  /-- The worker refused. -/
  | refused (cause : PagerError) (indexed : Bool)
  /-- The gate was revived. -/
  | revived (cause : PagerError) (indexed : Bool)
  | destroyed (result : Except PagerError Unit)
deriving DecidableEq

/-- What happens, in the order in which it happens. -/
inductive Event
  /-- A deed of the worker. -/
  | deed (d : Deed)
  /-- A call gives a byte a value. -/
  | stored (call address : Nat) (value : UInt8)
  /-- The copy of a call has ended. -/
  | copied (call : Nat)
  /-- A call revives the gate of a number. -/
  | revived (call number : Nat)

/-- A call that was made with a handle. -/
structure Call where
  handle : Handle
  progress : Progress

namespace Call

variable {π γ : Type}

/-- The bytes of an access from an address on, each with its value if it has one. -/
def cells : (address : Nat) → List (Option UInt8) → List Cell
  | _, [] => []
  | address, value :: rest => ⟨address, value⟩ :: cells (address + 1) rest

/-- A call begins. An access that is not permitted is over at once. -/
def begin (h : Handle) : Intent → Call
  | .read region offset len => ⟨h,
    match h.permit region false offset len with
    | .error cause => .accessed (.error cause)
    | .ok () => .arriving
      (cells (h.start + h.geometry.regionStart region + offset) (List.replicate len none))⟩
  | .write region offset bytes => ⟨h,
    match h.permit region true offset bytes.length with
    | .error cause => .accessed (.error cause)
    | .ok () => .arriving
      (cells (h.start + h.geometry.regionStart region + offset) (bytes.map some))⟩
  | .destroy => ⟨h, .destroying⟩

/-- Whether a call holds the gate of a number. -/
def holds (c : Call) (number : Nat) : Bool :=
  c.handle.gate == number &&
    match c.progress with
    | .copying .. | .copied _ | .leaving _ => true
    | _ => false

/-- A call after its next step: how far it is, the site, and what happened. The result is
missing while the step cannot be made. `held` says that some call holds the gate, and
`gone` that the pager was given up; `number` is that of the call. -/
def advance [Bytewise π] (number : Nat) (gone held : Bool) (c : Call) (s : Site π γ) :
    Option (Progress × Site π γ × List Event) :=
  let h := c.handle
  match c.progress with
  | .arriving cells =>
    match (s.gate h.gate).enter with
    | .error cause => some (.accessed (.error cause), s, [])
    | .ok () => some (.copying cells [], s, [])
  | .copying [] loaded => some (.copied loaded, s, [.copied number])
  | .copying (⟨address, none⟩ :: rest) loaded => do
    let b ← Bytewise.load address s.pages
    return (.copying rest (loaded ++ [b]), s, [])
  | .copying (⟨address, some b⟩ :: rest) loaded => do
    let pages ← Bytewise.store address b s.pages
    return (.copying rest loaded, { s with pages }, [.stored number address b])
  | .copied loaded => some (.leaving ((s.gate h.gate).leave.map fun () => loaded), s, [])
  | .leaving result => some (.accessed result, s, [])
  | .destroying =>
    if held then
      none
    else if (s.gate h.gate).alive then
      some (.retired, s.modifyGate h.gate Gate.retire, [])
    else
      some (.destroyed (.ok ()), s, [])
  | .retired =>
    if gone then
      some (.destroyed (.ok ()), s, [])
    else
      let (indexed, exchange) := s.exchange.unindex h.start
      some (.unindexed indexed, { s with exchange }, [])
  | .unindexed indexed =>
    match s.exchange.requestFree h.id h.start with
    | (.ok ticket, exchange) => some (.waiting ticket indexed, { s with exchange }, [])
    | (.error _, exchange) => some (.destroyed (.ok ()), { s with exchange }, [])
  | .waiting ticket indexed => do
    match ← s.exchange.answerTo ticket with
    | .placed _ | .released | .refused .shuttingDown => some (.destroyed (.ok ()), s, [])
    | .refused cause => some (.refused cause indexed, s, [])
  | .refused cause indexed =>
    if held then
      none
    else
      some (.revived cause indexed, s.modifyGate h.gate Gate.revive, [.revived number h.gate])
  | .revived cause indexed =>
    match if indexed then s.exchange.enroll h else .ok s.exchange with
    | .ok exchange => some (.destroyed (.error cause), { s with exchange }, [])
    | .error _ => some (.destroyed (.error cause), s, [])
  | .accessed _ | .destroyed _ => none

/-! ### What a step can be -/

/-- A step of a call with the handle `h`, from one progress to the next, with the site that
is reached and what happened. -/
inductive Step [Bytewise π] (number : Nat) (gone held : Bool) (h : Handle) (s : Site π γ) :
    Progress → Progress → Site π γ → List Event → Prop
  | turnedAway {cells : List Cell} {cause : PagerError} (halive : (s.gate h.gate).alive = false) :
      Step number gone held h s (.arriving cells) (.accessed (.error cause)) s []
  | enters {cells : List Cell} (halive : (s.gate h.gate).alive = true) :
      Step number gone held h s (.arriving cells) (.copying cells []) s []
  | loads {address : Nat} {rest : List Cell} {loaded : Bytes} {b : UInt8}
      (hload : Bytewise.load address s.pages = some b) :
      Step number gone held h s (.copying (⟨address, none⟩ :: rest) loaded)
        (.copying rest (loaded ++ [b])) s []
  | stores {address : Nat} {rest : List Cell} {loaded : Bytes} {b : UInt8} {pages : π}
      (hstore : Bytewise.store address b s.pages = some pages) :
      Step number gone held h s (.copying (⟨address, some b⟩ :: rest) loaded)
        (.copying rest loaded) { s with pages } [.stored number address b]
  | copied {loaded : Bytes} :
      Step number gone held h s (.copying [] loaded) (.copied loaded) s [.copied number]
  | asked {loaded : Bytes} {result : Except PagerError Bytes}
      (hresult : result = (s.gate h.gate).leave.map fun () => loaded) :
      Step number gone held h s (.copied loaded) (.leaving result) s []
  | left {result : Except PagerError Bytes} :
      Step number gone held h s (.leaving result) (.accessed result) s []
  | retires (hfree : held = false) (halive : (s.gate h.gate).alive = true) :
      Step number gone held h s .destroying .retired (s.modifyGate h.gate Gate.retire) []
  | isLate (halive : (s.gate h.gate).alive = false) :
      Step number gone held h s .destroying (.destroyed (.ok ())) s []
  | isDetached : Step number gone held h s .retired (.destroyed (.ok ())) s []
  | unindexes {indexed : Bool} {exchange : Exchange γ}
      (h' : s.exchange.unindex h.start = (indexed, exchange)) :
      Step number gone held h s .retired (.unindexed indexed) { s with exchange } []
  | requests {indexed : Bool} {ticket : Nat} {exchange : Exchange γ}
      (h' : s.exchange.requestFree h.id h.start = (.ok ticket, exchange)) :
      Step number gone held h s (.unindexed indexed) (.waiting ticket indexed)
        { s with exchange } []
  | isUnheard {indexed : Bool} {cause : PagerError} {exchange : Exchange γ}
      (h' : s.exchange.requestFree h.id h.start = (.error cause, exchange)) :
      Step number gone held h s (.unindexed indexed) (.destroyed (.ok ())) { s with exchange } []
  | settles {ticket : Nat} {indexed : Bool} {a : Answer}
      (ha : s.exchange.answerTo ticket = some a) :
      Step number gone held h s (.waiting ticket indexed) (.destroyed (.ok ())) s []
  | isRefused {ticket : Nat} {indexed : Bool} {cause : PagerError}
      (ha : s.exchange.answerTo ticket = some (.refused cause)) :
      Step number gone held h s (.waiting ticket indexed) (.refused cause indexed) s []
  | revives {cause : PagerError} {indexed : Bool} (hfree : held = false) :
      Step number gone held h s (.refused cause indexed) (.revived cause indexed)
        (s.modifyGate h.gate Gate.revive) [.revived number h.gate]
  | returns {cause : PagerError} {indexed : Bool} {index : IntervalMap Handle} :
      Step number gone held h s (.revived cause indexed) (.destroyed (.error cause))
        { s with exchange := { s.exchange with index } } []

theorem enroll_eq_ok {x x' : Exchange γ} {h : Handle} (heq : x.enroll h = .ok x') :
    ∃ index, x' = { x with index } := by
  unfold Exchange.enroll at heq
  cases hinsert : x.index.insert h.start h.geometry.trueSize h with
  | ok index =>
    rw [hinsert] at heq
    cases heq
    exact ⟨index, rfl⟩
  | error cause =>
    rw [hinsert] at heq
    cases heq

/-- **Every step is one of those above.** -/
theorem step_of_advance [Bytewise π] {number : Nat} {gone held : Bool} {c : Call}
    {s s' : Site π γ} {progress : Progress} {events : List Event}
    (hstep : c.advance number gone held s = some (progress, s', events)) :
    Step number gone held c.handle s c.progress progress s' events := by
  obtain ⟨h, before⟩ := c
  cases before with
  | arriving cells =>
    simp only [advance, Gate.enter] at hstep
    cases halive : (s.gate h.gate).alive with
    | true =>
      simp only [halive, if_true] at hstep
      cases hstep
      exact .enters halive
    | false =>
      simp only [halive] at hstep
      cases hstep
      exact .turnedAway halive
  | copying cells loaded =>
    match cells with
    | [] =>
      cases hstep
      exact .copied
    | ⟨address, none⟩ :: rest =>
      obtain ⟨b, hload, heq⟩ := Option.bind_eq_some_iff.mp hstep
      cases heq
      exact .loads hload
    | ⟨address, some b⟩ :: rest =>
      obtain ⟨pages, hstore, heq⟩ := Option.bind_eq_some_iff.mp hstep
      cases heq
      exact .stores hstore
  | copied loaded =>
    cases hstep
    exact .asked rfl
  | leaving result =>
    cases hstep
    exact .left
  | accessed result => cases hstep
  | destroying =>
    simp only [advance] at hstep
    split at hstep
    · cases hstep
    · rename_i hfree
      split at hstep
      · rename_i halive
        cases hstep
        exact .retires (Bool.not_eq_true _ ▸ hfree) halive
      · rename_i halive
        cases hstep
        exact .isLate (Bool.not_eq_true _ ▸ halive)
  | retired =>
    simp only [advance] at hstep
    split at hstep
    · cases hstep
      exact .isDetached
    · cases hstep
      exact .unindexes rfl
  | unindexed indexed =>
    simp only [advance] at hstep
    split at hstep
    · rename_i ticket exchange hask
      cases hstep
      exact .requests hask
    · rename_i cause exchange hask
      cases hstep
      exact .isUnheard hask
  | waiting ticket indexed =>
    obtain ⟨a, ha, heq⟩ := Option.bind_eq_some_iff.mp hstep
    split at heq
    · cases heq
      exact .settles ha
    · cases heq
      exact .settles ha
    · cases heq
      exact .settles ha
    · cases heq
      exact .isRefused ha
  | refused cause indexed =>
    simp only [advance] at hstep
    split at hstep
    · cases hstep
    · rename_i hfree
      cases hstep
      exact .revives (Bool.not_eq_true _ ▸ hfree)
  | revived cause indexed =>
    simp only [advance] at hstep
    split at hstep
    · rename_i exchange henroll
      cases hstep
      cases indexed with
      | true =>
        obtain ⟨index, rfl⟩ := enroll_eq_ok henroll
        exact .returns
      | false =>
        cases henroll
        exact .returns
    · cases hstep
      exact .returns
  | destroyed result => cases hstep

/-! ### With nobody else there -/

/-- A call after up to `n` steps, while nobody holds a gate. -/
def alone [Bytewise π] (gone : Bool) : (n : Nat) → Call → Site π γ → Call × Site π γ
  | 0, c, s => (c, s)
  | n + 1, c, s =>
    match c.advance 0 gone false s with
    | none => (c, s)
    | some (progress, s, _) => alone gone n { c with progress } s

variable [Bytewise π] {gone : Bool} {h : Handle} {s s' : Site π γ}

theorem alone_step {n : Nat} {c : Call} {progress : Progress} {events : List Event}
    (hstep : c.advance 0 gone false s = some (progress, s', events)) :
    alone gone (n + 1) c s = alone gone n { c with progress } s' := by
  rw [alone, hstep]

theorem alone_over {n : Nat} {c : Call} (hstep : c.advance 0 gone false s = none) :
    alone gone n c s = (c, s) := by
  cases n with
  | zero => rfl
  | succ n => rw [alone, hstep]

theorem alone_destroyed {n : Nat} {result : Except PagerError Unit} :
    alone gone n ⟨h, .destroyed result⟩ s = (⟨h, .destroyed result⟩, s) := alone_over rfl

/-- **A release begins as it does in one step.** -/
theorem alone_beginDestroy (gone : Bool) : alone gone 3 ⟨h, .destroying⟩ s =
    match s.beginDestroy h (!gone) with
    | (.settled, s) => (⟨h, .destroyed (.ok ())⟩, s)
    | (.waiting ticket indexed, s) => (⟨h, .waiting ticket indexed⟩, s)
    | (.refused cause, s) => (⟨h, .destroyed (.error cause)⟩, s) := by
  unfold Site.beginDestroy
  cases halive : (s.gate h.gate).alive with
  | false =>
    have hstep : advance 0 gone false ⟨h, .destroying⟩ s = some (.destroyed (.ok ()), s, []) := by
      simp [advance, halive]
    rw [alone_step hstep, alone_destroyed]
    rfl
  | true =>
    set u := s.modifyGate h.gate Gate.retire
    have hstep : advance 0 gone false ⟨h, .destroying⟩ s = some (.retired, u, []) := by
      simp [advance, halive, u]
    rw [alone_step hstep]
    cases gone with
    | true => rfl
    | false =>
      have hoff : advance 0 false false ⟨h, .retired⟩ u =
          some (.unindexed (u.exchange.unindex h.start).1,
            { u with exchange := (u.exchange.unindex h.start).2 }, []) := rfl
      rw [alone_step hoff]
      simp only [Bool.not_true, Bool.false_eq_true, if_false, Bool.not_false]
      cases hask : (u.exchange.unindex h.start).2.requestFree h.id h.start with
      | mk result exchange =>
        cases result with
        | ok ticket =>
          have hstep : advance 0 false false ⟨h, .unindexed (u.exchange.unindex h.start).1⟩
              { u with exchange := (u.exchange.unindex h.start).2 } =
              some (.waiting ticket (u.exchange.unindex h.start).1, { u with exchange }, []) := by
            simp only [advance, hask]
          rw [alone_step hstep]
          rfl
        | error cause =>
          have hstep : advance 0 false false ⟨h, .unindexed (u.exchange.unindex h.start).1⟩
              { u with exchange := (u.exchange.unindex h.start).2 } =
              some (.destroyed (.ok ()), { u with exchange }, []) := by
            simp only [advance, hask]
          rw [alone_step hstep, Exchange.requestFree_error hask]
          rfl

/-- **A release ends as it does in one step.** -/
theorem alone_endDestroy (gone : Bool) {ticket : Nat} {indexed : Bool} {a : Answer}
    (ha : s.exchange.answerTo ticket = some a) : alone gone 3 ⟨h, .waiting ticket indexed⟩ s =
      (⟨h, .destroyed (s.endDestroy h indexed a).1⟩, (s.endDestroy h indexed a).2) := by
  have hsettled : ∀ a, a = .released ∨ (∃ start, a = .placed start) ∨ a = .refused .shuttingDown →
      s.exchange.answerTo ticket = some a → alone gone 3 ⟨h, .waiting ticket indexed⟩ s =
        (⟨h, .destroyed (.ok ())⟩, s) := by
    intro a hcases ha
    have hstep : advance 0 gone false ⟨h, .waiting ticket indexed⟩ s =
        some (.destroyed (.ok ()), s, []) := by
      rcases hcases with rfl | ⟨start, rfl⟩ | rfl <;> simp only [advance, ha] <;> rfl
    rw [alone_step hstep, alone_destroyed]
  unfold Site.endDestroy
  split
  · exact hsettled _ (.inr (.inl ⟨_, rfl⟩)) ha
  · exact hsettled _ (.inl rfl) ha
  · exact hsettled _ (.inr (.inr rfl)) ha
  · rename_i cause hcause
    set u := s.modifyGate h.gate Gate.revive
    have hstep : advance 0 gone false ⟨h, .waiting ticket indexed⟩ s =
        some (.refused cause indexed, s, []) := by
      simp only [advance, ha]
      cases cause <;> first | rfl | exact absurd rfl hcause
    have hrevived : advance 0 gone false ⟨h, .refused cause indexed⟩ s =
        some (.revived cause indexed, u, [.revived 0 h.gate]) := rfl
    rw [alone_step hstep, alone_step hrevived]
    unfold Site.reopen
    cases indexed with
    | false => rfl
    | true =>
      simp only [if_true]
      cases henroll : u.exchange.enroll h with
      | ok exchange =>
        have hback : advance 0 gone false ⟨h, .revived cause true⟩ u =
            some (.destroyed (.error cause), { u with exchange }, []) := by
          simp only [advance, if_true, henroll]
        rw [alone_step hback]
        simp only [u]
        rfl
      | error why =>
        have hback : advance 0 gone false ⟨h, .revived cause true⟩ u =
            some (.destroyed (.error cause), u, []) := by
          simp only [advance, if_true, henroll]
        rw [alone_step hback]
        simp only [u]
        rfl

/-! ### Accesses to a buffer -/

theorem set_splice {buffer : Bytes} {a : Nat} {b : UInt8} {rest : Bytes}
    (h : a + (rest.length + 1) ≤ buffer.length) :
    Bytes.splice (buffer.set a b) (a + 1) rest = buffer.splice a (b :: rest) := by
  apply List.ext_getElem?
  intro j
  rw [Bytes.getElem?_splice (by rw [List.length_set]; omega), Bytes.getElem?_splice
    (by rw [List.length_cons]; omega), List.getElem?_set, List.length_cons]
  by_cases hj : j = a
  · subst hj
    rw [if_neg (by omega), if_pos rfl, if_pos (by omega), if_pos (by omega), Nat.sub_self]
    rfl
  · by_cases hin : a ≤ j ∧ j < a + (rest.length + 1)
    · rw [if_pos hin, if_pos (by omega), show j - a = j - (a + 1) + 1 by omega,
        List.getElem?_cons_succ]
    · rw [if_neg hin, if_neg (by omega), if_neg (fun heq => hj heq.symm)]

/-- The bytes are stored in place of those that were there. -/
theorem alone_stores (gone : Bool) (h : Handle) (loaded : Bytes) (n : Nat) :
    ∀ (bytes : Bytes) (a : Nat) (s : Site Bytes γ), a + bytes.length ≤ s.pages.length →
    alone gone (bytes.length + n) ⟨h, .copying (cells a (bytes.map some)) loaded⟩ s =
      alone gone n ⟨h, .copying [] loaded⟩ { s with pages := s.pages.splice a bytes }
  | [], a, s, _ => by
    have hnone : s.pages.splice a [] = s.pages := by
      simp [Bytes.splice, Bytes.overlay]
    rw [hnone, List.length_nil, Nat.zero_add]
    rfl
  | b :: rest, a, s, hfits => by
    rw [List.length_cons] at hfits
    have hstep : advance 0 gone false ⟨h, .copying (cells a ((b :: rest).map some)) loaded⟩ s =
        some (.copying (cells (a + 1) (rest.map some)) loaded,
          { s with pages := s.pages.set a b }, [.stored 0 a b]) := by
      have hstore : (Bytewise.store a b s.pages : Option Bytes) = some (s.pages.set a b) :=
        if_pos (by omega)
      simp only [advance, List.map_cons, cells, hstore]
      rfl
    rw [List.length_cons, Nat.add_right_comm, alone_step hstep,
      alone_stores gone h loaded n rest (a + 1) _ (by simp only [List.length_set]; omega)]
    simp only [set_splice hfits]

/-- The bytes that are there are loaded. -/
theorem alone_loads (gone : Bool) (h : Handle) (n : Nat) (s : Site Bytes γ) :
    ∀ (len a : Nat) (loaded : Bytes), a + len ≤ s.pages.length →
    alone gone (len + n) ⟨h, .copying (cells a (List.replicate len none)) loaded⟩ s =
      alone gone n ⟨h, .copying [] (loaded ++ s.pages.slice a len)⟩ s
  | 0, a, loaded, _ => by
    rw [Nat.zero_add, show s.pages.slice a 0 = [] from List.take_zero, List.append_nil]
    rfl
  | len + 1, a, loaded, hfits => by
    have hlt : a < s.pages.length := by omega
    have hstep :
      advance 0 gone false ⟨h, .copying (cells a (List.replicate (len + 1) none)) loaded⟩ s =
        some (.copying (cells (a + 1) (List.replicate len none)) (loaded ++ [s.pages[a]]),
          s, []) := by
      have hload : (Bytewise.load a s.pages : Option UInt8) = some s.pages[a] :=
        List.getElem?_eq_getElem hlt
      simp only [advance, List.replicate_succ, cells, hload]
      rfl
    have hslice : s.pages.slice a (len + 1) = s.pages[a] :: s.pages.slice (a + 1) len := by
      unfold Bytes.slice
      rw [List.drop_eq_getElem_cons hlt, List.take_succ_cons]
    rw [Nat.add_right_comm, alone_step hstep,
      alone_loads gone h n s len (a + 1) _ (by omega), hslice,
      List.append_assoc]
    rfl

/-- **A write is the write of a buffer.** -/
theorem alone_write (gone : Bool) {h : Handle} {region : Region} {offset : Nat} {bytes : Bytes}
    {s : Site Bytes γ} (hstart : h.start = 0)
    (hfits : h.geometry.regionStart region + offset + bytes.length ≤ s.pages.length) :
    alone gone (bytes.length + 4) (begin h (.write region offset bytes)) s =
      (⟨h, .accessed
        ((h.writeBuffer (s.gate h.gate) region offset bytes s.pages).1.map fun () => [])⟩,
        { s with pages := (h.writeBuffer (s.gate h.gate) region offset bytes s.pages).2 }) := by
  unfold Handle.writeBuffer begin
  dsimp only
  cases h.permit region true offset bytes.length with
  | error cause => exact alone_over rfl
  | ok =>
    have hcell : h.start + h.geometry.regionStart region + offset =
        h.geometry.regionStart region + offset := by rw [hstart, Nat.zero_add]
    rw [hcell]
    set a := h.geometry.regionStart region + offset
    cases henter : (s.gate h.gate).enter with
    | error cause =>
      have hstep : advance 0 gone false ⟨h, .arriving (cells a (bytes.map some))⟩ s =
          some (.accessed (.error cause), s, []) := by simp only [advance, henter]
      exact (alone_step hstep).trans (alone_over rfl)
    | ok =>
      have hstep : advance 0 gone false ⟨h, .arriving (cells a (bytes.map some))⟩ s =
          some (.copying (cells a (bytes.map some)) [], s, []) := by simp only [advance, henter]
      refine (alone_step hstep).trans ((alone_stores gone h [] 3 bytes a s hfits).trans ?_)
      rw [alone_step rfl, alone_step rfl, alone_step rfl]
      rfl

/-- **A read is the read of a buffer.** -/
theorem alone_read (gone : Bool) {h : Handle} {region : Region} {offset len : Nat}
    {s : Site Bytes γ} (hstart : h.start = 0)
    (hfits : h.geometry.regionStart region + offset + len ≤ s.pages.length) :
    alone gone (len + 4) (begin h (.read region offset len)) s =
      (⟨h, .accessed (h.readBuffer (s.gate h.gate) region offset len s.pages)⟩, s) := by
  unfold Handle.readBuffer begin
  dsimp only
  cases h.permit region false offset len with
  | error cause => exact alone_over rfl
  | ok =>
    have hcell : h.start + h.geometry.regionStart region + offset =
        h.geometry.regionStart region + offset := by rw [hstart, Nat.zero_add]
    rw [hcell]
    set a := h.geometry.regionStart region + offset
    cases henter : (s.gate h.gate).enter with
    | error cause =>
      have hstep : advance 0 gone false ⟨h, .arriving (cells a (List.replicate len none))⟩ s =
          some (.accessed (.error cause), s, []) := by simp only [advance, henter]
      exact (alone_step hstep).trans (alone_over rfl)
    | ok =>
      have hstep : advance 0 gone false ⟨h, .arriving (cells a (List.replicate len none))⟩ s =
          some (.copying (cells a (List.replicate len none)) [], s, []) := by
        simp only [advance, henter]
      refine (alone_step hstep).trans ((alone_loads gone h 3 s len a [] hfits).trans ?_)
      rw [alone_step rfl, alone_step rfl, alone_step rfl]
      cases (s.gate h.gate).leave with
      | error cause => rfl
      | ok => rfl

end Call
end DemandPager
