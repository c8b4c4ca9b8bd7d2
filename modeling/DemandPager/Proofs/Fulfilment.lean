/-
# Answers fill completions

An answer that is entered in the journal is in the completion of its request. A completion
that is there when a part of an errand begins holds afterwards what it held, or the first
answer to its ticket that was entered since (`Fulfilled`). This is so for all that the thread of
the worker does (`Worker.fulfils_threadErrand`), so that an answer cannot be entered without
being given.

Key definitions: `JournalEntry.answerTo?`, `Fulfilled`, `Fulfils`.
Key theorems: `Exchange.answerTo_complete`, `Accounted.fulfilled`, `Worker.fulfils_threadErrand`.
-/
import DemandPager.Proofs.Thread

namespace DemandPager

variable {π γ α : Type}

/-- The answer to a ticket that an entry tells of. -/
def JournalEntry.answerTo? (t : Nat) : JournalEntry → Option Answer
  | .answer ticket a => if ticket = t then some a else none
  | _ => none

theorem JournalEntry.answerTo?_eq_none {e : JournalEntry} (h : e.isDealing = false) (t : Nat) :
    e.answerTo? t = none := by
  cases e with
  | answer => cases h
  | _ => rfl

theorem JournalEntry.answerTo?_eq_some {e : JournalEntry} {t : Nat} {a : Answer} :
    e.answerTo? t = some a ↔ e = .answer t a := by
  cases e with
  | answer ticket b =>
    simp only [answerTo?, Option.ite_none_right_eq_some, Option.some.injEq, answer.injEq]
  | _ => simp [answerTo?]

theorem JournalEntry.length_complete (e : JournalEntry) (completions : List (Completion Answer)) :
    (e.complete completions).length = completions.length := by
  cases e with
  | answer ticket a => exact List.length_modify ..
  | _ => rfl

theorem JournalEntry.length_foldl_complete (es : List JournalEntry) :
    ∀ completions : List (Completion Answer),
      (es.foldl complete completions).length = completions.length := by
  induction es with
  | nil => exact fun _ => rfl
  | cons e es ih =>
    intro completions
    rw [List.foldl_cons, ih, length_complete]

namespace Exchange

variable {x x' : Exchange γ} {t : Nat}

/-- An entry fills the completion that it tells of, if it is empty. -/
theorem answerTo_complete {e : JournalEntry} (h : x'.completions = e.complete x.completions)
    (ht : t < x.completions.length) : x'.answerTo t = (x.answerTo t).or (e.answerTo? t) := by
  have hkept : x'.completions = x.completions → x'.answerTo t = (x.answerTo t).or none := by
    intro hsame
    rw [Option.or_none]
    unfold answerTo
    rw [hsame]
  cases e with
  | answer ticket a =>
    have hfinish : x'.answerTo t = (x.finish ticket a).answerTo t := by
      unfold answerTo
      rw [h]
      rfl
    rw [hfinish, answerTo_finish, List.getElem?_eq_getElem ht, Option.bind_some]
    unfold JournalEntry.answerTo? answerTo
    rw [List.getElem?_eq_getElem ht, Option.bind_some]
    by_cases heq : ticket = t
    · simp only [heq, if_true]
      cases hanswer : x.completions[t].answer <;> simp [Completion.finish, hanswer]
    · simp [heq]
  | _ => exact hkept h

/-- The first entry that tells of a completion fills it, if it is empty. -/
theorem answerTo_foldl_complete : ∀ (es : List JournalEntry) {x x' : Exchange γ},
    x'.completions = es.foldl JournalEntry.complete x.completions → t < x.completions.length →
    x'.answerTo t = (x.answerTo t).or (es.findSome? (·.answerTo? t))
  | [], x, x', h, _ => by
    unfold answerTo
    rw [h, List.findSome?_nil, Option.or_none]
    rfl
  | e :: es, x, x', h, ht => by
    let v : Exchange γ := { x with completions := e.complete x.completions }
    have hlength : t < v.completions.length := (JournalEntry.length_complete e _).symm ▸ ht
    have hfirst : v.answerTo t = (x.answerTo t).or (e.answerTo? t) := answerTo_complete rfl ht
    have hrest : x'.answerTo t = (v.answerTo t).or (es.findSome? (·.answerTo? t)) :=
      answerTo_foldl_complete es h hlength
    rw [hrest, hfirst, Option.or_assoc, ← List.singleton_append, List.findSome?_append]
    simp

end Exchange

/-- The completions that there were hold what they held, or else the first answer to their
ticket that was entered since. -/
structure Fulfilled (w w' : Worker π γ) (es : List JournalEntry) : Prop where
  journal : w'.journal = w.journal ++ es
  opened : w.exchange.completions.length ≤ w'.exchange.completions.length
  answers : ∀ t < w.exchange.completions.length,
    w'.exchange.answerTo t = (w.exchange.answerTo t).or (es.findSome? (·.answerTo? t))

namespace Fulfilled

variable {w v w' : Worker π γ} {es es' : List JournalEntry}

theorem trans (h : Fulfilled w v es) (h' : Fulfilled v w' es') : Fulfilled w w' (es ++ es') where
  journal := by rw [h'.journal, h.journal, List.append_assoc]
  opened := Nat.le_trans h.opened h'.opened
  answers := fun t ht => by
    rw [h'.answers t (Nat.lt_of_lt_of_le ht h.opened), h.answers t ht, Option.or_assoc,
      List.findSome?_append]

theorem refl (w : Worker π γ) : Fulfilled w w [] where
  journal := (List.append_nil _).symm
  opened := Nat.le_refl _
  answers := fun _ _ => (Option.or_none).symm

/-- Completions are opened at most, and no answer is entered. -/
theorem of_silent (hjournal : w'.journal = w.journal ++ es)
    (hsilent : ∀ e ∈ es, ∀ t, e.answerTo? t = none)
    (hopened : w.exchange.completions <+: w'.exchange.completions) : Fulfilled w w' es where
  journal := hjournal
  opened := hopened.length_le
  answers := fun t ht => by
    have hnone : es.findSome? (·.answerTo? t) = none :=
      List.findSome?_eq_none_iff.mpr fun e he => hsilent e he t
    rw [hnone, Option.or_none]
    unfold Exchange.answerTo
    rw [List.prefix_iff_getElem?.mp hopened t ht, List.getElem?_eq_getElem ht]

/-- A request that was answered since has the first answer, unless it had one before. -/
theorem answered (h : Fulfilled w w' es) {t : Nat} {a : Answer} (ha : .answer t a ∈ es) :
    ∃ b, .answer t b ∈ es ∧ (t < w.exchange.completions.length →
      w'.exchange.answerTo t = (w.exchange.answerTo t).or (some b)) := by
  cases hfirst : es.findSome? (·.answerTo? t) with
  | none =>
    have hsome : JournalEntry.answerTo? t (.answer t a) = some a := if_pos rfl
    rw [List.findSome?_eq_none_iff.mp hfirst _ ha] at hsome
    cases hsome
  | some b =>
    obtain ⟨e, he, hb⟩ := List.exists_of_findSome?_eq_some hfirst
    obtain rfl := JournalEntry.answerTo?_eq_some.mp hb
    exact ⟨b, he, fun ht => hfirst ▸ h.answers t ht⟩

end Fulfilled

/-- The journal grew, and the completions have the answers that were entered. -/
def Fulfils (w w' : Worker π γ) : Prop := ∃ es, Fulfilled w w' es

instance : IsPreorder (Worker π γ) Fulfils where
  refl w := ⟨[], .refl w⟩
  trans := fun _ _ _ ⟨_, h⟩ ⟨_, h'⟩ => ⟨_, h.trans h'⟩

theorem AtRest.fulfils {w w' : Worker π γ} (h : AtRest w w') : Fulfils w w' := by
  obtain ⟨es, hstill⟩ := h
  exact ⟨es, .of_silent hstill.journal (fun e he => e.answerTo?_eq_none (hstill.calls e he).1)
    (hstill.completions ▸ List.prefix_rfl)⟩

theorem Discreetly.fulfils {w w' : Worker π γ} (h : Discreetly w w') : Fulfils w w' := by
  obtain ⟨es, hdiscreet⟩ := h
  exact ⟨es, .of_silent hdiscreet.journal
    (fun e he => e.answerTo?_eq_none (hdiscreet.calls e he).1)
    (hdiscreet.completions ▸ List.prefix_rfl)⟩

/-- A change of what no entry tells of. -/
theorem Fulfils.of_eq {w w' : Worker π γ} (hjournal : w'.journal = w.journal)
    (hcompletions : w'.exchange.completions = w.exchange.completions) : Fulfils w w' :=
  ⟨[], .of_silent (by rw [hjournal, List.append_nil]) (fun _ h => by cases h)
    (hcompletions ▸ List.prefix_rfl)⟩

/-- Callers open completions. -/
theorem Site.completions_submit (s : Site π γ) (r : Request γ) :
    s.exchange.completions <+: (s.submit r).2.exchange.completions := by
  cases r with
  | allocate d => exact List.prefix_append ..
  | free id start => exact List.prefix_append ..
  | shutdown => exact List.prefix_rfl

theorem Site.completions_submitAll (requests : List (Request γ)) : ∀ s : Site π γ,
    s.exchange.completions <+: (s.submitAll requests).exchange.completions := by
  induction requests with
  | nil => exact fun _ => List.prefix_rfl
  | cons r rest ih => exact fun s => (s.completions_submit r).trans (ih _)

variable [Paging π]

/-- A step that accounts for what it does gives the answers that it enters. -/
theorem Accounted.fulfilled {w w' : Worker π γ} {es : List JournalEntry}
    (h : Accounted w w' es) : Fulfilled w w' es where
  journal := h.journal
  opened := by rw [h.completions, JournalEntry.length_foldl_complete]
  answers := fun _ ht => Exchange.answerTo_foldl_complete es h.completions ht

theorem AccountedFor.fulfils {w w' : Worker π γ} (h : AccountedFor w w') : Fulfils w w' :=
  h.imp fun _ => Accounted.fulfilled

/-! ### The thread gives the answers that it enters -/

namespace Worker

open Errand (lift leads_lift)

omit [Paging π] in
theorem fulfils_note {e : JournalEntry} (he : ∀ t, e.answerTo? t = none) (w : Worker π γ) :
    Leads Fulfils (note e) w :=
  ⟨[e], .of_silent rfl (List.forall_mem_singleton.mpr he) List.prefix_rfl⟩

omit [Paging π] in
theorem fulfils_arrive (turn : Turn π γ) (w : Worker π γ) : Leads Fulfils (arrive turn) w := by
  let s : Site π γ := { w.toSite with pages := turn.meanwhile w.pages }
  refine leads_modify ⟨[], .of_silent ?_ (fun _ h => by cases h) ?_⟩
  · rw [List.append_nil]
    exact (Site.interferes_submitAll turn.requests s).journal
  · exact s.completions_submitAll turn.requests

omit [Paging π] in
theorem fulfils_bearInterrupt (o : Options) (interrupts : Nat) (w : Worker π γ) :
    Leads Fulfils (bearInterrupt o interrupts) w :=
  ends_bearInterrupt (fun _ => refl_of Fulfils w) fun _ => refl_of Fulfils w

theorem fulfils_serveErrand (m : Message γ) : (serveErrand m : Errand π γ Flow).Leads Fulfils := by
  cases m with
  | free id start ticket => exact (tame_serveErrand rfl).mono fun _ _ => AccountedFor.fulfils
  | shutdown => exact (tame_serveErrand rfl).mono fun _ _ => AccountedFor.fulfils
  | allocate object ticket =>
    have hreply : ∀ (a : Answer) (w : Worker π γ), Leads Fulfils (reply ticket a) w :=
      fun a w => (accounts_reply ticket a).mono fun _ => AccountedFor.fulfils
    refine leads_lift fun w => leads_bind (fulfils_note (fun _ => rfl) w) fun _ v => ?_
    refine leads_bind (leads_attempt (leads_bind ?_ fun _ _ => leads_pure _)) fun result v => ?_
    · exact (discreet_allocate object).mono fun _ => Discreetly.fulfils
    · cases result with
      | ok a => exact leads_bind (hreply a v) fun _ _ => leads_pure _
      | error cause => exact leads_bind (hreply _ v) fun _ _ => leads_pure _

theorem fulfils_serveMessagesErrand : ∀ n : Nat,
    (serveMessagesErrand n : Errand π γ Flow).Leads Fulfils
  | 0 => Errand.leads_pure _
  | n + 1 => by
    refine Errand.leads_bind (leads_lift fun w => ?_) fun taken => ?_
    · unfold nextMessage
      refine leads_get_bind ?_
      cases w.exchange.channel.next with
      | none => exact leads_pure _
      | some taken => exact leads_bind (leads_set (.of_eq rfl rfl)) fun _ _ => leads_pure _
    · cases taken with
      | none => exact Errand.leads_pure _
      | some m =>
        refine Errand.leads_bind (fulfils_serveErrand m) fun flow => ?_
        cases flow with
        | stop => exact Errand.leads_pure _
        | proceed => exact fulfils_serveMessagesErrand n

theorem fulfils_drainErrand : (drainErrand : Errand π γ Flow).Leads Fulfils :=
  Errand.leads_bind (leads_lift fun _ => leads_get_bind (leads_pure _)) fun n =>
    fulfils_serveMessagesErrand n

theorem fulfils_serveTokensErrand (bell : Except IoCause Unit) : ∀ tokens : List Nat,
    (serveTokensErrand bell tokens : Errand π γ Unit).Leads Fulfils
  | [] => Errand.leads_pure _
  | token :: rest => by
    have hrest := fulfils_serveTokensErrand bell rest
    unfold serveTokensErrand
    split
    · refine Errand.leads_bind ?_ fun _ => hrest
      exact quiet_serveFaultsErrand.leads.mono fun _ _ => AtRest.fulfils
    split
    · refine Errand.leads_bind (leads_lift fun w => ?_) fun _ =>
        Errand.leads_bind fulfils_drainErrand fun flow => ?_
      · cases bell with
        | ok u => exact leads_modify (.of_eq rfl rfl)
        | error cause => exact leads_refuse _
      · cases flow with
        | stop => exact Errand.leads_pure _
        | proceed => exact hrest
    · exact hrest

theorem fulfils_eventLoopErrand (o : Options) : ∀ (script : List (Turn π γ)) (interrupts : Nat),
    (eventLoopErrand o script interrupts).Leads Fulfils
  | script, interrupts => by
    unfold eventLoopErrand
    refine Errand.leads_bind (leads_lift fun w => leads_get) fun w => ?_
    split
    · refine Errand.leads_bind (leads_lift fun w => fulfils_note (fun _ => rfl) w) fun _ => ?_
      cases script with
      | nil => exact leads_lift fun w => leads_refuse _
      | cons turn rest =>
        refine Errand.leads_bind (leads_lift fun w => fulfils_arrive turn w) fun _ => ?_
        cases turn.outcome with
        | failed cause => exact leads_lift fun w => leads_refuse _
        | interrupted =>
          exact Errand.leads_bind (leads_lift fun w => fulfils_bearInterrupt o interrupts w)
            fun more => fulfils_eventLoopErrand o rest more
        | timedOut =>
          refine Errand.leads_bind fulfils_drainErrand fun flow => ?_
          cases flow with
          | stop => exact Errand.leads_pure _
          | proceed => exact fulfils_eventLoopErrand o rest 0
        | ready tokens =>
          exact Errand.leads_bind (fulfils_serveTokensErrand turn.bell tokens) fun _ =>
            fulfils_eventLoopErrand o rest 0
    · exact Errand.leads_pure _

/-- **Whatever the thread of the worker enters as an answer it gives.** -/
theorem fulfils_threadErrand (o : Options) (script : List (Turn π γ))
    (forgotten : Except PagerError Unit) :
    (threadErrand o script forgotten).Leads Fulfils := by
  unfold threadErrand
  refine Errand.leads_bind (Errand.leads_attempt (fulfils_eventLoopErrand o script 0))
    fun outcome => Errand.leads_bind (leads_lift fun w => fulfils_note (fun _ => rfl) w) fun _ =>
      Errand.leads_bind ?_ fun _ => leads_lift fun w => leads_settle _
  exact tame_shutdownErrand.mono fun _ _ => AccountedFor.fulfils

end Worker
end DemandPager
