/-
# The course of a release

The release of an object passes milestones. Its unmapping is begun, and then either the
registration is taken back and the accesses are let go, or that is refused. A refused
release is withdrawn and may begin again; after the accesses are let go the gate is retired
and the memory is released. `course start deeds` are the milestones of the object at
`start`; it is `Legal` if each milestone may follow the one before. So a legal course is a
number of refused tries and one last try (`Legal.shape`), and once the accesses are let go
there is no way back (`Legal.letGo_last`).

Deeds are `Lawful` if all courses are legal, every gate that is turned is that of its
object, and every chunk that was read is what is handed over next.

Key definitions: `Milestone`, `course`, `Legal`, `Lawful`.
Key theorems: `Legal.shape`, `Legal.letGo_last`, `Lawful.snoc`.
-/
import Mathlib.Data.List.Induction
import DemandPager.Proofs.Deeds
import DemandPager.Proofs.Moves
import DemandPager.Proofs.Releases

namespace DemandPager

variable {π γ α : Type}

/-! ### Lists whose elements follow on each other -/

/-- Every element may come after the one before it, and the first one after none. -/
inductive InTurn (R : Option α → α → Prop) : List α → Prop
  | nil : InTurn R []
  | snoc {l : List α} {x : α} (h : InTurn R l) (hx : R l.getLast? x) : InTurn R (l ++ [x])

theorem inTurn_snoc {R : Option α → α → Prop} {l : List α} {x : α} :
    InTurn R (l ++ [x]) ↔ InTurn R l ∧ R l.getLast? x := by
  refine ⟨fun h => ?_, fun h => .snoc h.1 h.2⟩
  generalize heq : l ++ [x] = l' at h
  cases h with
  | nil => exact absurd heq (by simp)
  | snoc h hx =>
    obtain ⟨rfl, rfl⟩ := List.append_inj' heq rfl |>.imp id List.singleton_inj.mp
    exact ⟨h, hx⟩

/-- An element in the middle comes after the one before it. -/
theorem InTurn.at {R : Option α → α → Prop} {l r : List α} {x : α} (h : InTurn R (l ++ x :: r)) :
    R l.getLast? x := by
  induction r using List.reverseRecOn with
  | nil => exact (inTurn_snoc.mp h).2
  | append_singleton r y ih =>
    rw [← List.cons_append, ← List.append_assoc] at h
    exact ih (inTurn_snoc.mp h).1

/-- What comes in turn comes after what it may come after. -/
theorem InTurn.before_mem {R : Option α → α → Prop} {l : List α} {x : α} (h : InTurn R l)
    (hx : x ∈ l) : ∃ before, R before x ∧ ∀ y ∈ before, y ∈ l := by
  obtain ⟨l₁, l₂, rfl⟩ := List.append_of_mem hx
  refine ⟨_, h.at, fun y hy => List.mem_append_left _ ?_⟩
  exact List.mem_of_getLast? hy

/-- What comes first is in turn by itself. -/
theorem InTurn.left {R : Option α → α → Prop} {l r : List α} (h : InTurn R (l ++ r)) :
    InTurn R l := by
  induction r using List.reverseRecOn with
  | nil => rwa [List.append_nil] at h
  | append_singleton r y ih =>
    rw [← List.append_assoc] at h
    exact ih (inTurn_snoc.mp h).1

/-! ### Milestones -/

/-- How far a release is. -/
inductive Milestone
  /-- The gate says that the memory is being unmapped. -/
  | begun
  /-- The registration was not taken back. -/
  | refused
  /-- The gate does not say any more that the memory is being unmapped. -/
  | withdrawn
  /-- The registration was taken back. -/
  | letGo
  /-- The gate was retired. -/
  | retired
  /-- The memory was given back. -/
  | released
deriving DecidableEq, Repr

/-- The milestone that a turn of the gate is. -/
def GateTurn.milestone : GateTurn → Milestone
  | .beginUnmap => .begun
  | .abortUnmap => .withdrawn
  | .retire => .retired

/-- The object that a deed is a milestone for, and the milestone. -/
def Deed.mark? : Deed → Option (Nat × Milestone)
  | .turn start _ t => some (start, t.milestone)
  | .entry (.unregister start _ (.ok _)) => some (start, .letGo)
  | .entry (.unregister start _ (.error _)) => some (start, .refused)
  | .entry (.release start _ _) => some (start, .released)
  | .entry _ => none

/-- The milestones of the object at `start`. -/
def course (start : Nat) (deeds : List Deed) : List Milestone :=
  (deeds.filterMap Deed.mark?).filterMap fun mark => if mark.1 = start then some mark.2 else none

/-- The last milestone of the object at `start`. -/
def stage (start : Nat) (deeds : List Deed) : Option Milestone := (course start deeds).getLast?

/-- The milestones that may follow on each other. -/
inductive Milestone.Follows : Option Milestone → Milestone → Prop
  | begin : Follows none .begun
  | beginAgain : Follows (some .withdrawn) .begun
  | letGo : Follows (some .begun) .letGo
  | refuse : Follows (some .begun) .refused
  | withdraw : Follows (some .refused) .withdrawn
  | retire : Follows (some .letGo) .retired
  | release : Follows (some .retired) .released

/-- A course that a release may take. -/
abbrev Legal (ms : List Milestone) : Prop := InTurn Milestone.Follows ms

/-- A release that was refused, so many times. -/
def tries (n : Nat) : List Milestone := (List.replicate n [.begun, .refused, .withdrawn]).flatten

theorem tries_succ (n : Nat) : tries (n + 1) = tries n ++ [.begun, .refused, .withdrawn] := by
  unfold tries
  rw [List.replicate_succ', List.flatten_append, List.flatten_singleton]

/-- The beginnings of a last try. -/
def lastTry : List (List Milestone) :=
  [[], [.begun], [.begun, .refused], [.begun, .letGo], [.begun, .letGo, .retired],
    [.begun, .letGo, .retired, .released]]

/-- **A legal course is a number of refused tries and one last try.** -/
theorem Legal.shape {ms : List Milestone} (h : Legal ms) :
    ∃ n, ∃ last ∈ lastTry, ms = tries n ++ last ∧
      (last = [] → ms.getLast? = none ∨ ms.getLast? = some .withdrawn) := by
  induction h with
  | nil => exact ⟨0, [], by simp [lastTry], rfl, fun _ => .inl rfl⟩
  | @snoc ms m _ hm ih =>
    obtain ⟨n, last, hlast, rfl, hend⟩ := ih
    have hgo : ∀ next ∈ lastTry, next ≠ [] → last ++ [m] = next →
        ∃ n', ∃ l ∈ lastTry, tries n ++ last ++ [m] = tries n' ++ l ∧
          (l = [] → (tries n ++ last ++ [m]).getLast? = none ∨
            (tries n ++ last ++ [m]).getLast? = some .withdrawn) := by
      rintro next hnext hne rfl
      exact ⟨n, _, hnext, List.append_assoc .., fun h => absurd h hne⟩
    simp only [lastTry, List.mem_cons, List.not_mem_nil, or_false] at hlast
    rcases hlast with rfl | rfl | rfl | rfl | rfl | rfl
    · rcases hend rfl with heq | heq
      all_goals
        rw [heq] at hm
        cases hm
        exact hgo [.begun] (by simp [lastTry]) (by simp) rfl
    · rw [List.getLast?_append] at hm
      cases hm with
      | letGo => exact hgo [.begun, .letGo] (by simp [lastTry]) (by simp) rfl
      | refuse => exact hgo [.begun, .refused] (by simp [lastTry]) (by simp) rfl
    · rw [List.getLast?_append] at hm
      cases hm
      refine ⟨n + 1, [], by simp [lastTry], ?_, fun _ => .inr ?_⟩
      · rw [tries_succ, List.append_nil, List.append_assoc]
        rfl
      · rw [List.getLast?_concat]
    · rw [List.getLast?_append] at hm
      cases hm
      exact hgo [.begun, .letGo, .retired] (by simp [lastTry]) (by simp) rfl
    · rw [List.getLast?_append] at hm
      cases hm
      exact hgo [.begun, .letGo, .retired, .released] (by simp [lastTry]) (by simp) rfl
    · rw [List.getLast?_append] at hm
      cases hm

/-- **Once the accesses are let go there is no way back.** -/
theorem Legal.letGo_last {ms : List Milestone} (h : Legal ms) (hmem : .letGo ∈ ms) :
    ms.getLast? = some .letGo ∨ ms.getLast? = some .retired ∨ ms.getLast? = some .released := by
  induction h with
  | nil => cases hmem
  | @snoc ms m _ hm ih =>
    rw [List.getLast?_concat]
    rcases List.mem_append.mp hmem with hmem | hmem
    · rcases ih hmem with heq | heq | heq
      all_goals
        rw [heq] at hm
        cases hm
      · exact .inr (.inl rfl)
      · exact .inr (.inr rfl)
    · rw [List.mem_singleton.mp hmem]
      exact .inl rfl

/-- Memory is given back after the accesses to it were let go. -/
theorem Legal.letGo_of_released {ms : List Milestone} (h : Legal ms) (hmem : .released ∈ ms) :
    .letGo ∈ ms := by
  obtain ⟨before, hfollows, hbefore⟩ := h.before_mem hmem
  cases hfollows
  obtain ⟨before, hfollows, hbefore⟩ := h.before_mem (hbefore .retired rfl)
  cases hfollows
  exact hbefore .letGo rfl

/-- The object is mapped: no release was begun, or the last one was withdrawn. -/
def Mapped (start : Nat) (deeds : List Deed) : Prop :=
  stage start deeds = none ∨ stage start deeds = some .withdrawn

/-- While an object is mapped its accesses were not let go. -/
theorem Mapped.letGo_not_mem {start : Nat} {deeds : List Deed} (h : Mapped start deeds)
    (hlegal : Legal (course start deeds)) : .letGo ∉ course start deeds := by
  intro hmem
  have hlast := hlegal.letGo_last hmem
  rcases h with h | h
  all_goals
    unfold stage at h
    rw [h] at hlast
    simp at hlast

@[simp] theorem course_append (start : Nat) (deeds new : List Deed) :
    course start (deeds ++ new) = course start deeds ++ course start new := by
  unfold course
  rw [List.filterMap_append, List.filterMap_append]

theorem course_of_mark {start s : Nat} {d : Deed} {ms : Milestone} (h : d.mark? = some (s, ms)) :
    course start [d] = if s = start then [ms] else [] := by
  unfold course
  rw [List.filterMap_cons_some h, List.filterMap_nil]
  split
  · rename_i heq
    exact List.filterMap_cons_some (if_pos heq)
  · rename_i hne
    exact List.filterMap_cons_none (if_neg hne)

theorem mem_course {start : Nat} {ms : Milestone} {deeds : List Deed} :
    ms ∈ course start deeds ↔ ∃ d ∈ deeds, d.mark? = some (start, ms) := by
  unfold course
  constructor
  · intro h
    obtain ⟨⟨s, ms'⟩, hmark, heq⟩ := List.mem_filterMap.mp h
    obtain ⟨d, hd, hm⟩ := List.mem_filterMap.mp hmark
    split at heq
    · rename_i hs
      cases heq
      exact ⟨d, hd, hs ▸ hm⟩
    · cases heq
  · rintro ⟨d, hd, hm⟩
    exact List.mem_filterMap.mpr ⟨_, List.mem_filterMap.mpr ⟨d, hd, hm⟩, if_pos rfl⟩

theorem course_of_unmarked {start : Nat} {new : List Deed} (h : ∀ d ∈ new, d.mark? = none) :
    course start new = [] := by
  unfold course
  rw [List.filterMap_eq_nil_iff.mpr h, List.filterMap_nil]

/-- A milestone is the last one when it was just passed. -/
theorem stage_snoc {start : Nat} {deeds : List Deed} {d : Deed} {ms : Milestone}
    (h : d.mark? = some (start, ms)) : stage start (deeds ++ [d]) = some ms := by
  unfold stage
  rw [course_append, course_of_mark h, if_pos rfl, List.getLast?_concat]

/-- The milestones that are entered. -/
theorem Deed.mark_entry {e : JournalEntry} {start : Nat} {ms : Milestone}
    (h : (Deed.entry e).mark? = some (start, ms)) :
    ms = .letGo ∨ ms = .refused ∨ ms = .released := by
  unfold mark? at h
  split at h
  · rename_i heq
    cases heq
  · cases h
    exact .inl rfl
  · cases h
    exact .inr (.inl rfl)
  · cases h
    exact .inr (.inr rfl)
  · cases h

/-- The last milestone is entered. -/
theorem Deed.mark_released {d : Deed} {start : Nat} (h : d.mark? = some (start, .released)) :
    ∃ len result, d = .entry (.release start len result) := by
  unfold mark? at h
  split at h
  · rename_i t
    cases t <;> cases h
  · cases h
  · cases h
  · cases h
    exact ⟨_, _, rfl⟩
  · cases h

/-! ### Lawful deeds -/

/-- The destructor that a deed runs. -/
def Deed.destructor? : Deed → Option Nat
  | .entry (.destructor id) => some id
  | _ => none

/-- The answer that a deed gives. -/
def Deed.answer? : Deed → Option (Nat × Answer)
  | .entry (.answer ticket a) => some (ticket, a)
  | _ => none

/-- The deed is a chunk that was read. -/
def Deed.isRead : Deed → Bool
  | .entry (.readResident _ _ (.ok _)) => true
  | _ => false

/-- The deed is a chunk that is handed over. -/
def Deed.isHandOver : Deed → Bool
  | .entry (.writeBack ..) => true
  | _ => false

/-- The deed is none that is seen outside: no milestone, no destructor and no answer. -/
def Deed.isMute : Deed → Bool
  | .entry (.readResident ..) | .entry (.writeBack ..) | .entry (.discard ..)
  | .entry (.serve _) => true
  | _ => false

theorem Deed.unseen_of_isMute {d : Deed} (h : d.isMute) :
    d.mark? = none ∧ d.destructor? = none ∧ d.answer? = none := by
  unfold isMute at h
  split at h
  · exact ⟨rfl, rfl, rfl⟩
  · exact ⟨rfl, rfl, rfl⟩
  · exact ⟨rfl, rfl, rfl⟩
  · exact ⟨rfl, rfl, rfl⟩
  · cases h

theorem course_mute {new : List Deed} (h : ∀ d ∈ new, d.isMute) (start : Nat) :
    course start new = [] :=
  course_of_unmarked fun d hd => (d.unseen_of_isMute (h d hd)).1

theorem destructors_mute {new : List Deed} (h : ∀ d ∈ new, d.isMute) :
    new.filterMap Deed.destructor? = [] :=
  List.filterMap_eq_nil_iff.mpr fun d hd => (d.unseen_of_isMute (h d hd)).2.1

theorem answers_mute {new : List Deed} (h : ∀ d ∈ new, d.isMute) :
    new.filterMap Deed.answer? = [] :=
  List.filterMap_eq_nil_iff.mpr fun d hd => (d.unseen_of_isMute (h d hd)).2.2

/-- What was read of a chunk of one of the objects is what is handed over next, and
nothing else is handed over. -/
inductive HandsOn (O : List (Interval (Object γ))) : Option Deed → Deed → Prop
  | handOver {e : Interval (Object γ)} {span : Span} {bytes given : Bytes} (he : e ∈ O)
      (hspan : e.value.geometry.locate span.offset = .ok (some span))
      (hgiven : bytes.length = span.count * e.value.geometry.stride → given = bytes) :
      HandsOn O
        (some (.entry (.readResident (e.bodyStart + span.offset)
          (span.count * e.value.geometry.stride) (.ok bytes))))
        (.entry (.writeBack e.value.id span.first span.stop given))
  | other {last : Option Deed} {d : Deed} (hlast : ∀ x ∈ last, x.isRead = false)
      (hd : d.isHandOver = false) : HandsOn O last d

/-- What was read was handed over. -/
def HandedOver (deeds : List Deed) : Prop := ∀ x ∈ deeds.getLast?, x.isRead = false

/-- Deeds in accordance with the objects that were there at first. -/
structure Lawful (O : List (Interval (Object γ))) (deeds : List Deed) : Prop where
  legal : ∀ start, Legal (course start deeds)
  turns : ∀ start number t, .turn start number t ∈ deeds →
    ∃ e ∈ O, e.start = start ∧ e.value.gate = number
  reads : InTurn (HandsOn O) deeds

variable {O : List (Interval (Object γ))} {deeds : List Deed}

theorem lawful_nil : Lawful O [] := ⟨fun _ => .nil, fun _ _ _ h => (by cases h), .nil⟩

theorem handedOver_nil : HandedOver [] := fun _ h => by cases h

theorem handedOver_snoc {d : Deed} (h : d.isRead = false) : HandedOver (deeds ++ [d]) := by
  intro x hx
  rw [List.getLast?_concat] at hx
  cases hx
  exact h

theorem handedOver_append {new : List Deed} {d : Deed} (hlast : new.getLast? = some d)
    (h : d.isRead = false) : HandedOver (deeds ++ new) := by
  intro x hx
  rw [List.getLast?_append, hlast] at hx
  cases hx
  exact h

/-- A deed is lawful if it comes in turn, as what it is for its object and after what was
read. -/
theorem Lawful.snoc (h : Lawful O deeds) {d : Deed}
    (hmark : ∀ start ms, d.mark? = some (start, ms) → Milestone.Follows (stage start deeds) ms)
    (hturn : ∀ start number t, d = .turn start number t →
      ∃ e ∈ O, e.start = start ∧ e.value.gate = number)
    (hreads : HandsOn O deeds.getLast? d) : Lawful O (deeds ++ [d]) where
  legal := fun start => by
    rw [course_append]
    cases hm : d.mark? with
    | none =>
      rw [course_of_unmarked fun x hx => List.mem_singleton.mp hx ▸ hm, List.append_nil]
      exact h.legal start
    | some mark =>
      rw [course_of_mark hm]
      split
      · rename_i heq
        exact .snoc (h.legal start) (heq ▸ hmark mark.1 mark.2 hm)
      · rw [List.append_nil]
        exact h.legal start
  turns := fun start number t hmem => by
    rcases List.mem_append.mp hmem with hmem | hmem
    · exact h.turns start number t hmem
    · exact hturn start number t (List.mem_singleton.mp hmem).symm
  reads := .snoc h.reads hreads

/-- An entry that is no milestone. -/
theorem Lawful.snoc_entry (h : Lawful O deeds) {e : JournalEntry}
    (hmark : (Deed.entry e).mark? = none) (hreads : HandsOn O deeds.getLast? (.entry e)) :
    Lawful O (deeds ++ [.entry e]) :=
  h.snoc (fun start ms hm => by rw [hmark] at hm; cases hm) (fun _ _ _ h => by cases h) hreads

/-- An entry that is a milestone. -/
theorem Lawful.snoc_mark (h : Lawful O deeds) (hs : HandedOver deeds) {e : JournalEntry}
    {start : Nat}
    {ms : Milestone} (hmark : (Deed.entry e).mark? = some (start, ms))
    (hfollows : Milestone.Follows (stage start deeds) ms)
    (hhand : (Deed.entry e).isHandOver = false) : Lawful O (deeds ++ [.entry e]) := by
  refine h.snoc (fun start' ms' hm => ?_) (fun _ _ _ h => by cases h) (.other hs hhand)
  rw [hmark] at hm
  cases hm
  exact hfollows

/-- A turn of the gate of one of the objects. -/
theorem Lawful.snoc_turn (h : Lawful O deeds) (hs : HandedOver deeds) {e : Interval (Object γ)}
    (he : e ∈ O) {t : GateTurn} (hfollows : Milestone.Follows (stage e.start deeds) t.milestone) :
    Lawful O (deeds ++ [.turn e.start e.value.gate t]) := by
  refine h.snoc (fun start ms hm => ?_) (fun start number t' ht => ?_) (.other hs rfl)
  · cases hm
    exact hfollows
  · cases ht
    exact ⟨e, he, rfl, rfl⟩

theorem Mapped.follows {start : Nat} (h : Mapped start deeds) :
    Milestone.Follows (stage start deeds) .begun := by
  rcases h with h | h
  · rw [h]
    exact .begin
  · rw [h]
    exact .beginAgain

end DemandPager
