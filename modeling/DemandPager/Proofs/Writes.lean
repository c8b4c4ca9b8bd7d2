/-
# What a write has stored

A write that is permitted copies its bytes one after the other, and each store is logged. So
a write that has succeeded has stored all its bytes, whatever else happened meanwhile
(`Floor.Reaches.wrote`).

Key definitions: `Call.Stored`, `Call.Copies`.
Key theorems: `Call.Step.copies`, `Floor.Reaches.copies`, `Floor.Reaches.wrote`.
-/
import DemandPager.Proofs.Gates

namespace DemandPager

variable {π γ : Type}

namespace Call

variable {number : Nat} {log new : List Event} {region : Region} {offset : Nat} {bytes : Bytes}

/-- The cells that have a value were stored by the call. -/
def Stored (number : Nat) (log : List Event) (cells : List Cell) : Prop :=
  ∀ x ∈ cells, ∀ b ∈ x.value, .stored number x.address b ∈ log

/-- The call was `allowed`, and it copies the cells; the log has those that are done. -/
def Copies (number : Nat) (allowed : Prop) (all : List Cell) (log : List Event) (c : Call) : Prop :=
  match c.progress with
  | .arriving cells => allowed ∧ cells = all
  | .copying cells _ => allowed ∧ ∃ done, all = done ++ cells ∧ Stored number log done
  | .copied _ | .leaving (.ok _) | .accessed (.ok _) => allowed ∧ Stored number log all
  | _ => True

theorem Stored.append {cells : List Cell} (h : Stored number log cells) :
    Stored number (log ++ new) cells := fun x hx b hb => List.mem_append_left _ (h x hx b hb)

theorem Stored.snoc {cells : List Cell} {x : Cell} (h : Stored number log cells)
    (hx : ∀ b ∈ x.value, .stored number x.address b ∈ log) : Stored number log (cells ++ [x]) := by
  intro y hy
  rcases List.mem_append.mp hy with hy | hy
  · exact h y hy
  · rw [List.mem_singleton.mp hy]
    exact hx

variable {allowed : Prop} {all : List Cell}

theorem Copies.append {c : Call} (h : c.Copies number allowed all log) :
    c.Copies number allowed all (log ++ new) := by
  unfold Copies at h ⊢
  split at h
  · exact h
  · obtain ⟨hallowed, done, hall, hdone⟩ := h
    exact ⟨hallowed, done, hall, hdone.append⟩
  · exact ⟨h.1, h.2.append⟩
  · exact ⟨h.1, h.2.append⟩
  · exact ⟨h.1, h.2.append⟩
  · trivial

/-- A step copies the next cell, if it copies. -/
theorem Step.copies [Bytewise π] {gone held : Bool} {h : Handle} {s s' : Site π γ}
    {before after : Progress} {events : List Event}
    (hstep : Step number gone held h s before after s' events)
    (hbefore : Copies number allowed all log ⟨h, before⟩) :
    Copies number allowed all (log ++ events) ⟨h, after⟩ := by
  cases hstep with
  | enters =>
    obtain ⟨hallowed, rfl⟩ := hbefore
    exact ⟨hallowed, [], rfl, fun x hx => by cases hx⟩
  | loads =>
    obtain ⟨hallowed, done, rfl, hdone⟩ := hbefore
    exact ⟨hallowed, _, List.append_cons .., hdone.append.snoc fun b hb => by cases hb⟩
  | stores =>
    obtain ⟨hallowed, done, rfl, hdone⟩ := hbefore
    refine ⟨hallowed, _, List.append_cons .., hdone.append.snoc fun b hb => ?_⟩
    cases hb
    exact List.mem_append_right _ (List.mem_singleton_self _)
  | copied =>
    obtain ⟨hallowed, done, rfl, hdone⟩ := hbefore
    rw [List.append_nil]
    exact ⟨hallowed, hdone.append⟩
  | @asked loaded result hresult =>
    cases result with
    | error cause => trivial
    | ok => exact ⟨hbefore.1, hbefore.2.append⟩
  | @left result =>
    cases result with
    | error cause => trivial
    | ok => exact ⟨hbefore.1, hbefore.2.append⟩
  | _ => trivial

/-- The cells of a write, if it is permitted. -/
theorem copies_begin (number : Nat) (log : List Event) (h : Handle) (region : Region) (offset : Nat)
    (bytes : Bytes) : ∃ progress, begin h (.write region offset bytes) = ⟨h, progress⟩ ∧
      Copies number (offset + bytes.length ≤ h.geometry.regionLen region)
        (cells (h.start + h.geometry.regionStart region + offset) (bytes.map some)) log
        ⟨h, progress⟩ := by
  unfold begin
  refine ⟨_, rfl, ?_⟩
  unfold Handle.permit
  split
  · trivial
  · rename_i hpermit
    split at hpermit
    · cases hpermit
    · split at hpermit
      · rename_i hfits
        exact ⟨hfits, rfl⟩
      · cases hpermit

/-- The cell of a byte. -/
theorem mem_cells {value : Option UInt8} : ∀ {values : List (Option UInt8)} {address i : Nat},
    values[i]? = some value → ⟨address + i, value⟩ ∈ cells address values
  | [], _, _, h => by cases h
  | v :: rest, address, i, h => by
    cases i with
    | zero =>
      cases h
      exact List.mem_cons_self ..
    | succ i =>
      rw [List.getElem?_cons_succ] at h
      rw [← Nat.succ_add_eq_add_succ]
      exact List.mem_cons_of_mem _ (mem_cells h)

end Call

namespace Floor

variable [Paging π] [Bytewise π] {f f' f₀ f₁ f₂ : Floor π γ} {h : Handle} {allowed : Prop}
  {all : List Cell} {number : Nat}

omit [Paging π] in
theorem Shift.copies (hshift : Shift f f') (hf : ∃ progress, f.calls[number]? = some ⟨h, progress⟩ ∧
      Call.Copies number allowed all f.log ⟨h, progress⟩) :
    ∃ progress, f'.calls[number]? = some ⟨h, progress⟩ ∧
      Call.Copies number allowed all f'.log ⟨h, progress⟩ := by
  obtain ⟨progress, hcall, hcopies⟩ := hf
  have hsame : f'.calls = f.calls → ∃ progress, f'.calls[number]? = some ⟨h, progress⟩ ∧
      Call.Copies number allowed all f'.log ⟨h, progress⟩ := by
    intro hcalls
    obtain ⟨new, hlog⟩ := hshift.log
    rw [hcalls, hlog]
    exact ⟨progress, hcall, hcopies.append⟩
  cases hshift with
  | called hh hcalls hgates hlog =>
    rw [hcalls, hlog, List.getElem?_append_left (List.getElem?_eq_some_iff.mp hcall).1]
    exact ⟨progress, hcall, hcopies⟩
  | @advanced c call progress' site events hcall' hstep hcalls hgates hlog =>
    rw [hcalls, hlog]
    by_cases heq : c = number
    · subst heq
      rw [hcall] at hcall'
      cases hcall'
      rw [List.getElem?_set_self (List.getElem?_eq_some_iff.mp hcall).1]
      exact ⟨progress', rfl, hstep.copies hcopies⟩
    · rw [List.getElem?_set_ne heq]
      exact ⟨progress, hcall, hcopies.append⟩
  | retired hcalls hgates hlog => exact hsame hcalls
  | noted hcalls hgates hlog => exact hsame hcalls
  | turned hfree hcalls hgates hlog => exact hsame hcalls

theorem Reaches.trans (h : Reaches f₀ f₁) (h' : Reaches f₁ f) : Reaches f₀ f := by
  induction h' with
  | refl => exact h
  | step _ hmove ih => exact .step ih hmove

variable {handle : Nat} {region : Region} {offset : Nat} {bytes : Bytes}

/-- A write is made with one of the handles, and it copies its bytes if it is permitted. -/
theorem Reaches.copies (h₁ : Reaches f₀ f₁) (h₀ : f₀.Opens)
    (hmove : f₁.move (.call handle (.write region offset bytes)) = some f₂) (h₂ : Reaches f₂ f) :
    ∃ h ∈ f₀.handles, ∃ progress, f.calls[f₁.calls.length]? = some ⟨h, progress⟩ ∧
      Call.Copies f₁.calls.length (offset + bytes.length ≤ h.geometry.regionLen region)
        (Call.cells (h.start + h.geometry.regionStart region + offset) (bytes.map some)) f.log
        ⟨h, progress⟩ := by
  obtain ⟨h, hh, rfl⟩ := Option.map_eq_some_iff.mp hmove
  refine ⟨h, (h₁.handles h₀).1 ▸ List.mem_of_getElem? hh, ?_⟩
  induction h₂ with
  | refl =>
    obtain ⟨progress, hbegin, hcopies⟩ :=
      Call.copies_begin f₁.calls.length f₁.log h region offset bytes
    refine ⟨progress, ?_, hcopies⟩
    rw [List.getElem?_concat_length, hbegin]
  | step hreach hmove' ih =>
    have hattends := ((h₁.step hmove).trans hreach).attends h₀
    exact ((next_of_move hmove').shift hattends).copies ih

/-- **A write that has succeeded was within bounds, and it has stored all its bytes.** -/
theorem Reaches.wrote (h₁ : Reaches f₀ f₁) (h₀ : f₀.Opens)
    (hmove : f₁.move (.call handle (.write region offset bytes)) = some f₂) (h₂ : Reaches f₂ f)
    {result : Bytes} (hcall : f.calls[f₁.calls.length]? = some ⟨h, .accessed (.ok result)⟩) :
    h ∈ f₀.handles ∧ offset + bytes.length ≤ h.geometry.regionLen region ∧
      ∀ i b, bytes[i]? = some b →
        .stored f₁.calls.length
          (h.start + h.geometry.regionStart region + offset + i) b ∈ f.log := by
  obtain ⟨h', hh, progress, hcall', hcopies⟩ := h₁.copies h₀ hmove h₂
  rw [hcall] at hcall'
  cases hcall'
  obtain ⟨hfits, hstored⟩ := hcopies
  refine ⟨hh, hfits, fun i b hb => hstored _ (Call.mem_cells ?_) b rfl⟩
  rw [List.getElem?_map, hb]
  rfl

end Floor
end DemandPager
