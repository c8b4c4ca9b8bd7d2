/-
# Serving requests keeps the books

A worker is in order if its books balance within a budget whose low mark is below the
high one, and if the messages in its queue ask for objects that were built and have
tickets that were handed out. Serving messages keeps it in order, whatever each
message comes to (`Worker.serveMessages_ends`).

Key definitions: `Message.Posted`, `Site.Posted`, `Worker.InOrder`, `Worker.Safe`.
Key theorems: `Worker.serveMessage_ends`, `Worker.serveMessages_ends`.
-/
import DemandPager.Proofs.Creation
import DemandPager.Proofs.Releases

namespace DemandPager

variable {π γ : Type}

/-- The message asks for an object that was built, and its ticket is one of `tickets`
many. -/
def Message.Posted (tickets : Nat) : Message γ → Prop
  | .allocate object ticket => object.geometry.Built ∧ ticket < tickets
  | .free _ _ ticket => ticket < tickets
  | .shutdown => True

/-- All messages in the queue are posted. -/
def Site.Posted (s : Site π γ) : Prop :=
  ∀ m ∈ s.exchange.channel.pending, m.Posted s.exchange.completions.length

namespace Worker

/-- The books balance within the budget, and the messages are posted. -/
structure InOrder (w : Worker π γ) : Prop where
  filed : w.toDesk.Filed
  owes : w.toDesk.Owes 0
  marks : w.limits.low < w.limits.high
  posted : w.toSite.Posted

/-- The step does not break off, unless a number or a buffer is too large, or a
callback or the memory breaks off. -/
def Safe {α : Type} (act : WorkerM π γ α) (w : Worker π γ) : Prop :=
  ∀ breach w', act w = .error (.abort breach) w' → breach.isOuter

variable {w w' : Worker π γ} {es : List JournalEntry}

theorem Ends.safe {α : Type} {act : WorkerM π γ α} {post : α → Worker π γ → Prop}
    (h : Ends act w post fun f _ => ∀ breach, f = .abort breach → breach.isOuter) : Safe act w :=
  fun breach _ herr => h.of_error herr breach rfl

theorem Kept.posted (h : Kept w w' es) (hw : w.toSite.Posted) : w'.toSite.Posted := by
  unfold Site.Posted at hw ⊢
  rw [h.exchange]
  exact hw

theorem Kept.inOrder (h : Kept w w' es) (hw : w.InOrder) (hfiled : w'.toDesk.Filed)
    (howes : w'.toDesk.Owes 0) : w'.InOrder where
  filed := hfiled
  owes := howes
  marks := by
    rw [h.limits]
    exact hw.marks
  posted := h.posted hw.posted

/-- An answer to a request changes neither the books nor the queue. -/
theorem reply_inOrder {ticket : Nat} {answer : Answer} (hw : w.InOrder) :
    ({ w with
      journal := w.journal ++ [.answer ticket answer]
      exchange := w.exchange.finish ticket answer } : Worker π γ).InOrder := by
  obtain ⟨hfiled, howes, hmarks, hposted⟩ := hw
  refine ⟨hfiled, howes, hmarks, ?_⟩
  unfold Site.Posted at hposted ⊢
  rw [show (w.exchange.finish ticket answer).completions.length = w.exchange.completions.length
    from List.length_modify ..]
  exact hposted

variable [Paging π]

theorem allocate_inOrder {o : Object γ} (hw : w.InOrder) (ho : o.geometry.Built) :
    Ends (allocate o) w (fun _ w' => w'.InOrder)
      (fun f w' => (∀ cause, f = .error cause → w'.InOrder) ∧
        ∀ breach, f = .abort breach → breach.isOuter) := by
  refine (allocate_ends hw.filed hw.owes ho).mono ?_ ?_
  · rintro _ w' ⟨es, ha⟩
    exact ha.toKept.inOrder hw ha.filed ha.owes
  · rintro f w' (⟨breach, rfl, houter⟩ | ⟨cause, es, rfl, ha⟩)
    · exact ⟨fun _ h => (by cases h), fun _ h => by cases h; exact houter⟩
    · exact ⟨fun _ _ => ha.toKept.inOrder hw ha.filed ha.owes, fun _ h => by cases h⟩

theorem free_inOrder {id start : Nat} (hw : w.InOrder) :
    Ends (free id start) w (fun _ w' => w'.InOrder)
      (fun f w' => (∀ cause, f = .error cause → w'.InOrder) ∧
        ∀ breach, f = .abort breach → breach.isOuter) := by
  apply (free_ends hw.filed hw.owes).mono
  · rintro _ w' ⟨-, e, -, -, -, es, hf⟩
    exact hf.toKept.inOrder hw hf.filed hf.owes
  · rintro f w' (⟨rfl, -⟩ | ⟨-, hlost⟩ | ⟨cause, es, rfl, hh⟩)
    · exact ⟨fun _ h => (by cases h), fun _ h => by cases h; rfl⟩
    · exact absurd hlost (Nat.lt_irrefl 0)
    · exact ⟨fun _ _ => hh.toKept.inOrder hw hh.filed hh.owes, fun _ h => by cases h⟩

theorem handleFault_inOrder {address : Nat} (hw : w.InOrder) :
    Ends (handleFault address) w (fun _ w' => w'.InOrder)
      (fun f w' => (∀ cause, f = .error cause → ∃ es, FaultError 0 w w' cause es) ∧
        ∀ breach, f = .abort breach → breach.isOuter) := by
  apply (handleFault_ends hw.filed hw.owes (Nat.le_of_lt hw.marks)).mono
  · rintro _ w' ⟨es, hh⟩
    exact hh.toKept.inOrder hw hh.filed hh.owes
  · rintro f w' (⟨breach, rfl, houter | ⟨-, hlost⟩⟩ | ⟨cause, es, rfl, he⟩)
    · exact ⟨fun _ h => (by cases h), fun _ h => by cases h; exact houter⟩
    · exact absurd hlost (Nat.lt_irrefl 0)
    · exact ⟨fun _ h => by cases h; exact ⟨es, he⟩, fun _ h => by cases h⟩

/-! ### Messages -/

omit [Paging π] in
/-- A request is served and answered, whatever comes of it. -/
theorem serveRequest_inOrder {request : WorkerM π γ Answer} {ticket : Nat} (hw : w.InOrder)
    (hrequest : ∀ v : Worker π γ, v.InOrder → Ends request v (fun _ v' => v'.InOrder)
      (fun f v' => (∀ cause, f = .error cause → v'.InOrder) ∧
        ∀ breach, f = .abort breach → breach.isOuter)) :
    Ends (serveRequest ticket request) w (fun _ w' => w'.InOrder)
      (fun f _ => ∃ breach, f = .abort breach ∧ breach.isOuter) := by
  unfold serveRequest
  simp only [ends_bind, ends_note, ends_attempt]
  set v : Worker π γ := { w with journal := w.journal ++ [.serve ticket] }
  have hv : v.InOrder := ⟨hw.filed, hw.owes, hw.marks, hw.posted⟩
  apply (hrequest v hv).mono
  · intro answer v hv
    exact reply_inOrder hv
  · rintro f v ⟨herr, habort⟩
    exact ⟨fun cause h => reply_inOrder (herr cause h),
      fun breach h => ⟨breach, h, habort breach h⟩⟩

/-- Serving a message keeps the worker in order. -/
theorem serveMessage_ends {m : Message γ} (hw : w.InOrder)
    (hm : m.Posted w.exchange.completions.length) :
    Ends (serveMessage m) w (fun _ w' => w'.InOrder)
      (fun f _ => ∃ breach, f = .abort breach ∧ breach.isOuter) := by
  cases m with
  | allocate object ticket =>
    refine serveRequest_inOrder hw fun v hv => ?_
    rw [ends_bind]
    exact allocate_inOrder hv hm.1
  | free id start ticket =>
    refine serveRequest_inOrder hw fun v hv => ?_
    rw [ends_bind]
    exact free_inOrder hv
  | shutdown => exact ⟨hw.filed.of_eq rfl rfl rfl, hw.owes.of_eq rfl rfl rfl, hw.marks, hw.posted⟩

omit [Paging π] in
/-- The oldest message is taken; it is posted. -/
theorem nextMessage_ends (hw : w.InOrder) :
    Ends nextMessage w
      (fun next w' => w'.InOrder ∧ ∀ m, next = some m → m.Posted w'.exchange.completions.length)
      (fun _ _ => False) := by
  have hposted := hw.posted
  unfold Site.Posted at hposted
  unfold nextMessage Channel.next
  simp only [ends_bind, ends_get]
  cases hpending : w.exchange.channel.pending with
  | nil => exact ⟨hw, fun _ h => by cases h⟩
  | cons m rest =>
    rw [hpending] at hposted
    refine ⟨⟨hw.filed, hw.owes, hw.marks, fun x hx => hposted x (List.mem_cons_of_mem _ hx)⟩, ?_⟩
    rintro _ ⟨⟩
    exact hposted m (List.mem_cons_self ..)

/-- **Serving messages keeps the worker in order.** -/
theorem serveMessages_ends : ∀ (n : Nat) (w : Worker π γ), w.InOrder →
    Ends (serveMessages n) w (fun _ w' => w'.InOrder)
      (fun f _ => ∃ breach, f = .abort breach ∧ breach.isOuter)
  | 0, _, hw => hw
  | n + 1, w, hw => by
    unfold serveMessages
    rw [ends_bind]
    refine (nextMessage_ends hw).mono ?_ fun _ _ h => h.elim
    rintro next v ⟨hv, hposted⟩
    cases next with
    | none => exact hv
    | some m =>
      simp only [ends_bind]
      refine (serveMessage_ends hv (hposted m rfl)).mono ?_ fun _ _ h => h
      intro flow u hu
      cases flow with
      | stop => exact hu
      | proceed => exact serveMessages_ends n u hu

end Worker
end DemandPager
