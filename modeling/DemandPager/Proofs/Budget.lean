/-
# The budget

A worker begins with books that are empty. Then it creates and releases objects, with
or without success, handles faults and serves messages, in any order, while callers
and the host do what they like to the site in between. In every state that is reached
this way the bytes in use are those of the live records and are within the budget, and
no next operation finds a check of the books failed (`Worker.budget_holds`).

The memory and the callbacks are arbitrary. A run ends where a fault is not handled or
where the worker breaks off.

Key definitions: `Worker.Reachable`.
Key theorems: `Worker.Reachable.inOrder`, `Worker.budget_holds`.
-/
import DemandPager.Paging.Scripted
import DemandPager.Proofs.Serving

namespace DemandPager
namespace Worker

variable {π γ : Type} [Paging π]

/-- The states of a worker between its operations. -/
inductive Reachable : Worker π γ → Prop
  /-- The books are new; the site may be any. -/
  | start {pageSize : Nat} {limits : WaterMarks} {o : Options} {desk : Desk γ} {site : Site π γ}
      (hdesk : Desk.ofOptions pageSize limits o = .ok desk) (hmarks : limits.low < limits.high)
      (hposted : site.Posted) : Reachable { toSite := site, toDesk := desk }
  /-- Callers and the host change the site. -/
  | meanwhile {w : Worker π γ} {site : Site π γ} (h : Reachable w) (hposted : site.Posted) :
      Reachable { w with toSite := site }
  | allocate {w w' : Worker π γ} {object : Object γ} (h : Reachable w)
      (hbuilt : object.geometry.Built) (hstep : Returns (allocate object) w w') : Reachable w'
  | free {w w' : Worker π γ} {id start : Nat} (h : Reachable w)
      (hstep : Returns (free id start) w w') : Reachable w'
  | fault {w w' : Worker π γ} {address : Nat} (h : Reachable w)
      (hstep : handleFault address w = .ok () w') : Reachable w'
  /-- Some of the messages in the queue are served; to drain the queue is to serve as
  many as it holds. -/
  | serve {w w' : Worker π γ} {n : Nat} {flow : Flow} (h : Reachable w)
      (hstep : serveMessages n w = .ok flow w') : Reachable w'

/-- Every state that is reached is in order. -/
theorem Reachable.inOrder {w : Worker π γ} (h : Reachable w) : w.InOrder := by
  induction h with
  | start hdesk hmarks hposted =>
    obtain ⟨hfiled, howes⟩ := Desk.ofOptions_filed hdesk
    obtain ⟨-, -, -, -, rfl, -⟩ := Desk.ofOptions_eq_ok hdesk
    exact ⟨hfiled, howes, hmarks, hposted⟩
  | meanwhile _ hposted ih => exact ⟨ih.filed, ih.owes, ih.marks, hposted⟩
  | allocate _ hbuilt hstep ih =>
    exact ((allocate_inOrder ih hbuilt).mono (fun _ _ h => h) fun _ _ h => h.1).of_returns hstep
  | free _ hstep ih =>
    exact ((free_inOrder ih).mono (fun _ _ h => h) fun _ _ h => h.1).of_returns hstep
  | fault _ hstep ih => exact (handleFault_inOrder ih).of_ok hstep
  | serve _ hstep ih => exact (serveMessages_ends _ _ ih).of_ok hstep

/-- **The bytes in use are those of the live records, and within the budget.** No
operation finds the books out of balance, takes off more than is in use or misses the
place of a chunk; and a fault never finds the ring empty, unless the memory itself
gives that for an answer. -/
theorem budget_holds {w : Worker π γ} (h : Reachable w) :
    w.ring.liveBytes = .ok w.used ∧ w.used ≤ w.limits.high ∧
      (∀ object : Object γ, object.geometry.Built → Safe (Worker.allocate object) w) ∧
      (∀ id start, Safe (Worker.free id start) w) ∧
      (∀ address, Safe (handleFault address) w ∧
        ∀ w', handleFault address w = .error (.error .ringEmpty) w' →
          ∃ es x, w'.journal = w.journal ++ es ∧ es.getLast? = some x ∧
            x.refusal? = some .ringEmpty) ∧
      ∀ n, Safe (serveMessages n) w := by
  have hw := h.inOrder
  obtain ⟨hlive, hle⟩ := Desk.owes_zero_iff.mp hw.owes
  refine ⟨hlive, hle, fun object hbuilt => ?_, fun id start => ?_, fun address => ⟨?_, ?_⟩,
    fun n => ?_⟩
  · exact ((allocate_inOrder hw hbuilt).mono (fun _ _ h => h) fun _ _ h => h.2).safe
  · exact ((free_inOrder hw).mono (fun _ _ h => h) fun _ _ h => h.2).safe
  · exact ((handleFault_inOrder hw).mono (fun _ _ h => h) fun _ _ h => h.2).safe
  · intro w' herr
    obtain ⟨es, he⟩ := ((handleFault_inOrder hw).of_error herr).1 _ rfl
    obtain ⟨x, hx, hrefusal⟩ := he.ringEmpty rfl rfl
    exact ⟨es, x, he.journal, hx, hrefusal⟩
  · refine ((serveMessages_ends n w hw).mono (fun _ _ h => h) ?_).safe
    rintro f _ ⟨breach, rfl, houter⟩ _ ⟨⟩
    exact houter

/-! ### A run -/

/-- An object of eight elements, which are handed back; each is a page and a chunk. -/
def sampleObject : Object Unit where
  id := 1
  geometry :=
    { pageSize := 16, headerSize := 0, paddedHeader := 0, count := 8, stride := 16, loadCount := 1,
      readOnly := false }
  callbacks :=
    { populate := fun _ _ target client => (.filled, target, client)
      writeBack := some fun _ _ _ client => (.taken, client) }
  gate := 0

theorem sampleObject_built : sampleObject.geometry.Built :=
  ⟨16, 0, 8, 16, some 1, _, true, rfl, rfl⟩

/-- Books with a budget of two pages. -/
def sampleDesk {γ : Type} : Desk γ where
  objects := .empty
  ring := .ofCapacity 2
  ringGrowable := true
  used := 0
  limits := { high := 32, low := 16 }
  scratch := { size := 320 }
  spill := {}
  phase := .running

theorem sampleDesk_eq {γ : Type} :
    Desk.ofOptions 16 { high := 32, low := 16 } { ringCapacity := 2 } =
      .ok (sampleDesk : Desk γ) := rfl

/-- A worker with these books. -/
def sampleStart : Worker ScriptedMemory Unit where
  pages := { pageSize := 16 }
  client := ()
  toDesk := sampleDesk

/-- The worker after faults, the latest first, on an object that was created. -/
def sampleRun : List Nat → Worker ScriptedMemory Unit
  | [] => after (allocate sampleObject) sampleStart
  | address :: rest => after (handleFault address) (sampleRun rest)

theorem sampleStart_reachable : Reachable sampleStart := by
  exact .start sampleDesk_eq (by decide) fun _ hm => (List.not_mem_nil hm).elim

theorem sampleRun_nil : Reachable (sampleRun []) := by
  refine .allocate sampleStart_reachable sampleObject_built (.inl ?_)
  exact eq_ok_of_ending (by decide +kernel)

theorem sampleRun_fault {address : Nat} {rest : List Nat} (h : Reachable (sampleRun rest))
    (hok : ending (handleFault address) (sampleRun rest) = none) :
    Reachable (sampleRun (address :: rest)) := by
  obtain ⟨⟨⟩, hstep⟩ := eq_ok_of_ending hok
  exact .fault h hstep

/-- Two chunks are loaded. -/
theorem sampleRun_full : Reachable (sampleRun [0x10000010, 0x10000000]) := by
  have h : Reachable (sampleRun [0x10000000]) := sampleRun_fault sampleRun_nil (by decide +kernel)
  exact sampleRun_fault h (by decide +kernel)

/-- The third of three faults drops the chunks of the first two. -/
theorem budget_holds_sample :
    (sampleRun [0x10000020, 0x10000010, 0x10000000]).used = 16 ∧
      (sampleRun [0x10000020, 0x10000010, 0x10000000]).ring.liveBytes =
        .ok (sampleRun [0x10000020, 0x10000010, 0x10000000]).used := by
  have h : Reachable (sampleRun [0x10000020, 0x10000010, 0x10000000]) :=
    sampleRun_fault sampleRun_full (by decide +kernel)
  exact ⟨by decide +kernel, (budget_holds h).1⟩

end Worker
end DemandPager
