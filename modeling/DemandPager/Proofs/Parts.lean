/-
# What parts do to the site

The parts of an errand leave the gates to its turns. What a part does to the memory and to
the completions is what it enters in the journal, and from the queue it takes nothing, or
everything (`Accounted`). So the memory and the completions can be told from the journal,
whatever other threads did in between.

Key definitions: `JournalEntry.isSupply`, `Accounted`, `Worker.Accounts`, `Errand.Leads`,
`Errand.Tame`.
Key theorems: `Errand.leads_bind`, `Errand.leads_attempt`, `Worker.tame_evictErrand`,
`Worker.tame_serveErrand`, `Worker.tame_shutdownErrand`.
-/
import DemandPager.Proofs.Ends
import DemandPager.Proofs.Errands

namespace DemandPager

variable {π γ α β : Type} [Paging π]

open Worker (Called Ends)

omit [Paging π] in
/-- Whether an entry tells of a call that lays out memory, fills it or takes its reports. Errands
that let go of objects make no such call. -/
def JournalEntry.isSupply : JournalEntry → Bool
  | .reserve .. | .register .. | .zero .. | .install .. | .readFaults .. => true
  | _ => false

omit [Paging π] in
/-- The completions after an entry: an answer fills the one of its ticket. -/
def JournalEntry.complete (completions : List (Completion Answer)) :
    JournalEntry → List (Completion Answer)
  | .answer ticket a => completions.modify ticket (·.finish a)
  | _ => completions

/-- The gates are left alone, and the journal tells what was done to the memory and to the
completions. From the queue nothing is taken, or everything. -/
structure Accounted (w w' : Worker π γ) (es : List JournalEntry) : Prop where
  journal : w'.journal = w.journal ++ es
  spare : ∀ e ∈ es, e.isSupply = false
  gates : w'.gates = w.gates
  pages : Replays w.pages es w'.pages
  completions : w'.exchange.completions =
    es.foldl JournalEntry.complete w.exchange.completions
  pending : w'.exchange.channel.pending = w.exchange.channel.pending ∨
    w'.exchange.channel.pending = []

theorem Accounted.refl (w : Worker π γ) : Accounted w w [] :=
  ⟨(List.append_nil _).symm, fun _ h => (by cases h), rfl, .nil, rfl, .inl rfl⟩

theorem Accounted.trans {w v w' : Worker π γ} {es es' : List JournalEntry}
    (h : Accounted w v es) (h' : Accounted v w' es') : Accounted w w' (es ++ es') where
  journal := by rw [h'.journal, h.journal, List.append_assoc]
  spare := List.forall_mem_append.mpr ⟨h.spare, h'.spare⟩
  gates := h'.gates.trans h.gates
  pages := h.pages.append h'.pages
  completions := by rw [List.foldl_append, ← h.completions, h'.completions]
  pending := by
    rcases h'.pending with heq | heq
    · rw [heq]
      exact h.pending
    · exact .inr heq

/-- What is done to the site is accounted for by some entries. -/
def AccountedFor (w w' : Worker π γ) : Prop := ∃ es, Accounted w w' es

instance : IsPreorder (Worker π γ) AccountedFor where
  refl w := ⟨[], .refl w⟩
  trans := fun _ _ _ ⟨_, h⟩ ⟨_, h'⟩ => ⟨_, h.trans h'⟩

/-- A change of the books and of what no other thread looks at here. -/
theorem Accounted.of_eq {w w' : Worker π γ} (hjournal : w'.journal = w.journal)
    (hgates : w'.gates = w.gates) (hpages : w'.pages = w.pages)
    (hcompletions : w'.exchange.completions = w.exchange.completions)
    (hpending : w'.exchange.channel.pending = w.exchange.channel.pending ∨
      w'.exchange.channel.pending = []) : Accounted w w' [] where
  journal := by rw [hjournal, List.append_nil]
  spare := fun _ h => by cases h
  gates := hgates
  pages := hpages ▸ .nil
  completions := hcompletions
  pending := hpending

/-- An entry is made. -/
theorem Accounted.entry {w w' : Worker π γ} {e : JournalEntry}
    (he : e.isSupply = false) (hjournal : w'.journal = w.journal ++ [e])
    (hgates : w'.gates = w.gates) (hpages : e.Effect w.pages w'.pages)
    (hcompletions : w'.exchange.completions = e.complete w.exchange.completions)
    (hpending : w'.exchange.channel.pending = w.exchange.channel.pending) :
    Accounted w w' [e] :=
  ⟨hjournal, List.forall_mem_singleton.mpr he, hgates, .single hpages, hcompletions,
    .inl hpending⟩

omit [Paging π] in
/-- Whether a message asks for a new object. -/
def Message.asksObject : Message γ → Bool
  | .allocate .. => true
  | _ => false

namespace Worker

variable {w : Worker π γ}

/-- All that the step does to the site is accounted for. -/
def Accounts (act : WorkerM π γ α) (w : Worker π γ) : Prop := Leads AccountedFor act w

theorem accounts_bind {act : WorkerM π γ α} {next : α → WorkerM π γ β} (h : Accounts act w)
    (hnext : ∀ a v, Accounts (next a) v) : Accounts (act >>= next) w :=
  leads_bind (R := AccountedFor) h hnext

theorem accounts_get_bind {next : Worker π γ → WorkerM π γ α} (h : Accounts (next w) w) :
    Accounts (get >>= next) w := h

theorem accounts_pure (a : α) : Accounts (pure a : WorkerM π γ α) w :=
  leads_pure (R := AccountedFor) a

theorem accounts_refuse (cause : PagerError) : Accounts (refuse cause : WorkerM π γ α) w :=
  leads_refuse (R := AccountedFor) cause

theorem accounts_ensure (holds : Bool) (breach : Breach) :
    Accounts (ensure holds breach : WorkerM π γ Unit) w :=
  leads_ensure (R := AccountedFor) holds breach

theorem accounts_checked (result : Checked α) : Accounts (checked result : WorkerM π γ α) w :=
  leads_checked (R := AccountedFor) result

theorem accounts_settle (result : Except PagerError α) :
    Accounts (settle result : WorkerM π γ α) w :=
  leads_settle (R := AccountedFor) result

theorem accounts_modify {f : Worker π γ → Worker π γ} {es : List JournalEntry}
    (h : Accounted w (f w) es) : Accounts (modify f : WorkerM π γ Unit) w := ⟨es, h⟩

theorem accounts_set {v : Worker π γ} {es : List JournalEntry} (h : Accounted w v es) :
    Accounts (set v : WorkerM π γ Unit) w := ⟨es, h⟩

theorem accounts_callPages {call : EStateM PagerError π α}
    {entry : Except PagerError α → JournalEntry}
    (hspare : ∀ result, (entry result).isSupply = false)
    (heffect : ∀ result p p', Called call p result p' → (entry result).Effect p p')
    (hcomplete : ∀ result completions, (entry result).complete completions = completions) :
    Accounts (callPages call entry : WorkerM π γ _) w :=
  leads_callPages fun result _ hcalled =>
    ⟨_, .entry (hspare result) rfl rfl (heffect result _ _ hcalled) (hcomplete result _).symm rfl⟩

theorem accounts_count (event : WorkEvent) : Accounts (count event : WorkerM π γ Unit) w :=
  accounts_modify (.of_eq rfl rfl rfl rfl (.inl rfl))

/-! ### The parts of the errands -/

theorem accounts_spillResident (address len : Nat) :
    Accounts (spillResident address len : WorkerM π γ Bytes) w := by
  unfold spillResident
  refine accounts_get_bind (accounts_bind (accounts_checked _) fun spill v => ?_)
  refine accounts_bind (accounts_modify (.of_eq rfl rfl rfl rfl (.inl rfl))) fun _ v => ?_
  refine accounts_bind (accounts_callPages (fun _ => rfl) (fun _ _ _ h => h) fun _ _ => rfl)
    fun result v => ?_
  refine accounts_bind (accounts_settle _) fun bytes v => ?_
  refine accounts_bind (accounts_modify (.of_eq rfl rfl rfl rfl (.inl rfl))) fun _ v => ?_
  exact accounts_get_bind (accounts_pure _)

theorem accounts_snapshot (address : Nat) :
    Accounts (snapshot address : WorkerM π γ (Option (FaultSite γ × Bytes))) w := by
  unfold snapshot
  apply accounts_get_bind
  cases w.objects.find? address with
  | none => exact accounts_refuse _
  | some entry =>
    dsimp only
    split
    · refine accounts_bind (accounts_checked _) fun chunk v => ?_
      refine accounts_bind (accounts_ensure _ _) fun _ v => ?_
      exact accounts_bind (accounts_spillResident ..) fun _ v => accounts_pure _
    · exact accounts_pure _

theorem accounts_deliver (chunk : FaultSite γ) (bytes : Bytes) :
    Accounts (deliver chunk bytes : WorkerM π γ Unit) w := by
  unfold deliver handOver
  refine accounts_bind ?_ fun _ v => accounts_count _
  split
  · exact accounts_pure _
  · refine accounts_bind (accounts_modify (.entry rfl rfl rfl rfl rfl rfl)) fun _ v => ?_
    refine accounts_get_bind (accounts_bind ?_ fun _ u => accounts_ensure _ _)
    exact accounts_set (.of_eq rfl rfl rfl rfl (.inl rfl))

theorem accounts_checkTotals : Accounts (checkTotals : WorkerM π γ Unit) w := by
  unfold checkTotals
  refine accounts_get_bind (accounts_bind (accounts_checked _) fun _ v => ?_)
  exact accounts_bind (accounts_ensure _ _) fun _ u => accounts_ensure _ _

theorem accounts_dropChunk (record : ChunkRecord) :
    Accounts (dropChunk record : WorkerM π γ Unit) w := by
  unfold dropChunk
  refine accounts_get_bind (accounts_bind (accounts_checked _) fun _ v => ?_)
  refine accounts_bind (accounts_modify (.of_eq rfl rfl rfl rfl (.inl rfl))) fun _ v => ?_
  refine accounts_bind (accounts_callPages (fun _ => rfl) (fun _ _ _ h => h) fun _ _ => rfl)
    fun result v => ?_
  refine accounts_bind (accounts_settle _) fun _ v => ?_
  exact accounts_bind (accounts_count _) fun _ v => accounts_checkTotals

theorem accounts_strike (id start : Nat) :
    Accounts (strike id start : WorkerM π γ (Object γ)) w := by
  unfold strike
  refine accounts_get_bind (accounts_bind (accounts_settle _) fun struck v => ?_)
  refine accounts_bind (accounts_modify (.of_eq rfl rfl rfl rfl (.inl rfl))) fun _ v =>
    accounts_get_bind ?_
  refine accounts_bind (accounts_set (.of_eq rfl rfl rfl rfl (.inl rfl))) fun _ v => ?_
  refine accounts_bind (accounts_checked _) fun _ v =>
    accounts_bind (accounts_checked _) fun _ v => ?_
  exact accounts_bind (accounts_modify (.of_eq rfl rfl rfl rfl (.inl rfl))) fun _ v =>
    accounts_pure _

theorem accounts_finish (object : Object γ) : Accounts (finish object : WorkerM π γ Unit) w := by
  unfold finish
  cases object.callbacks.destructor with
  | none => exact accounts_pure _
  | some destructor =>
    refine accounts_bind (accounts_modify (.entry rfl rfl rfl rfl rfl rfl)) fun _ v => ?_
    exact accounts_modify (.of_eq rfl rfl rfl rfl (.inl rfl))

theorem accounts_reply (ticket : Nat) (answer : Answer) :
    Accounts (reply ticket answer : WorkerM π γ Unit) w :=
  ⟨[.answer ticket answer], .entry rfl rfl rfl rfl rfl rfl⟩

theorem accounts_dismiss (message : Message γ) :
    Accounts (dismiss message : WorkerM π γ Unit) w := by
  cases message with
  | allocate object ticket => exact accounts_reply ..
  | free id start ticket => exact accounts_reply ..
  | shutdown => exact accounts_pure _

end Worker

/-! ### Errands whose parts keep to a relation -/

namespace Errand

omit [Paging π] in
/-- All parts keep to the relation; of the turns of gates nothing is said. -/
def Leads (R : Worker π γ → Worker π γ → Prop) : Errand π γ α → Prop
  | .ret _ => True
  | .part step next => (∀ w, Worker.Leads R step w) ∧ ∀ b, (next b).Leads R
  | .turn _ _ _ next => next.Leads R

section Leads

omit [Paging π]

variable {R R' : Worker π γ → Worker π γ → Prop}

theorem leads_pure (a : α) : (pure a : Errand π γ α).Leads R := trivial

theorem leads_lift {step : WorkerM π γ α} (h : ∀ w, Worker.Leads R step w) : (lift step).Leads R :=
  ⟨h, fun _ => trivial⟩

theorem leads_gate (start number : Nat) (t : GateTurn) :
    (gate start number t : Errand π γ Unit).Leads R := trivial

theorem leads_bind {p : Errand π γ α} {next : α → Errand π γ β} (h : p.Leads R)
    (hnext : ∀ a, (next a).Leads R) : (p >>= next).Leads R := by
  show (p.bind next).Leads R
  induction p with
  | ret a => exact hnext a
  | part step rest ih => exact ⟨h.1, fun b => ih b (h.2 b)⟩
  | turn start number t rest ih => exact ih h

theorem leads_attempt {p : Errand π γ α} (h : p.Leads R) : p.attempt.Leads R := by
  induction p with
  | ret a => trivial
  | part step next ih =>
    unfold attempt
    refine ⟨fun w => Worker.leads_attempt (h.1 w), fun result => ?_⟩
    cases result with
    | ok b => exact ih b (h.2 b)
    | error cause => trivial
  | turn start number t next ih => exact ih h

theorem Leads.mono {p : Errand π γ α} (h : p.Leads R) (hR : ∀ w w', R w w' → R' w w') :
    p.Leads R' := by
  induction p with
  | ret a => trivial
  | part step next ih => exact ⟨fun w => (h.1 w).mono fun v => hR w v, fun b => ih b (h.2 b)⟩
  | turn start number t next ih => exact ih h

end Leads

/-- All parts are tame. -/
def Tame (p : Errand π γ α) : Prop := p.Leads AccountedFor

theorem tame_pure (a : α) : (pure a : Errand π γ α).Tame := leads_pure a

theorem tame_lift {step : WorkerM π γ α} (h : ∀ w, Worker.Accounts step w) : (lift step).Tame :=
  leads_lift h

/-- To ask the books for something is tame. -/
theorem tame_ask (f : Worker π γ → α) : (lift (return f (← get)) : Errand π γ α).Tame :=
  tame_lift fun _ => Worker.accounts_get_bind (Worker.accounts_pure _)

theorem tame_gate (start number : Nat) (t : GateTurn) :
    (gate start number t : Errand π γ Unit).Tame := leads_gate start number t

theorem tame_bind {p : Errand π γ α} {next : α → Errand π γ β} (h : p.Tame)
    (hnext : ∀ a, (next a).Tame) : (p >>= next).Tame := leads_bind h hnext

theorem tame_attempt {p : Errand π γ α} (h : p.Tame) : p.attempt.Tame := leads_attempt h

end Errand

namespace Worker

open Errand (tame_bind tame_lift tame_ask tame_gate tame_pure tame_attempt)

theorem tame_writeBackErrand (address : Nat) :
    (writeBackErrand address : Errand π γ Unit).Tame := by
  refine tame_bind (tame_lift fun w => accounts_snapshot address) fun read => ?_
  cases read with
  | none => exact tame_pure _
  | some read => exact tame_lift fun w => accounts_deliver ..

theorem tame_evictErrand : (evictErrand : Errand π γ Unit).Tame := by
  refine tame_bind (tame_lift fun w => ?_) fun record => ?_
  · refine accounts_get_bind (accounts_bind (accounts_settle _) fun popped v => ?_)
    refine accounts_bind (accounts_modify (.of_eq rfl rfl rfl rfl (.inl rfl))) fun _ v => ?_
    exact accounts_pure _
  · split
    · exact tame_bind (tame_writeBackErrand _) fun _ => tame_lift fun w => accounts_dropChunk record
    · exact tame_pure _

theorem tame_writeBackAllErrand : ∀ addresses : List Nat,
    (writeBackAllErrand addresses : Errand π γ Unit).Tame
  | [] => tame_pure _
  | address :: rest =>
    tame_bind (tame_writeBackErrand address) fun _ => tame_writeBackAllErrand rest

theorem tame_freeErrand (id start : Nat) : (freeErrand id start : Errand π γ Unit).Tame := by
  refine tame_bind (tame_ask _) fun found => ?_
  cases found with
  | none => exact tame_lift fun w => accounts_refuse _
  | some _ =>
    refine tame_bind ?_ fun _ => tame_bind ?_ fun _ => ?_
    · unfold handOverAllErrand
      split
      · exact tame_bind (tame_ask _) fun addresses => tame_writeBackAllErrand addresses
      · exact tame_pure _
    · refine tame_bind (tame_gate ..) fun _ => tame_bind (tame_lift fun w => ?_) fun result => ?_
      · exact accounts_callPages (fun _ => rfl) (fun _ _ _ h => h) fun _ _ => rfl
      · cases result with
        | ok => exact tame_gate ..
        | error cause =>
          exact tame_bind (tame_gate ..) fun _ => tame_lift fun w => accounts_refuse _
    · refine tame_bind (tame_lift fun w => accounts_strike ..) fun object => ?_
      refine tame_bind (tame_lift fun w => ?_) fun _ => tame_lift fun w => ?_
      · exact accounts_callPages (fun _ => rfl) (fun _ _ _ h => h) fun _ _ => rfl
      · refine accounts_bind (accounts_finish object) fun _ v => ?_
        exact accounts_bind (accounts_count _) fun _ v => accounts_checkTotals

theorem tame_freeAllErrand : ∀ entries : List (Interval (Object γ)),
    (freeAllErrand entries : Errand π γ Unit).Tame
  | [] => tame_pure _
  | _ :: rest => tame_bind (tame_attempt (tame_freeErrand ..)) fun _ => tame_freeAllErrand rest

theorem tame_abandonErrand (entry : Interval (Object γ)) :
    (abandonErrand entry : Errand π γ Unit).Tame := by
  unfold abandonErrand
  refine tame_bind (tame_gate ..) fun _ => ?_
  refine tame_bind (tame_lift fun w => ?_) fun result => ?_
  · exact accounts_callPages (fun _ => rfl) (fun _ _ _ h => h) fun _ _ => rfl
  · cases result with
    | ok =>
      refine tame_bind (tame_gate ..) fun _ => tame_bind (tame_lift fun w => ?_) fun _ => ?_
      · exact accounts_callPages (fun _ => rfl) (fun _ _ _ h => h) fun _ _ => rfl
      · exact tame_lift fun w => accounts_finish _
    | error cause => exact tame_lift fun w => accounts_finish _

theorem tame_abandonAllErrand : ∀ entries : List (Interval (Object γ)),
    (abandonAllErrand entries : Errand π γ Unit).Tame
  | [] => tame_pure _
  | entry :: rest => tame_bind (tame_abandonErrand entry) fun _ => tame_abandonAllErrand rest

theorem tame_dismissAllErrand : ∀ messages : List (Message γ),
    (dismissAllErrand messages : Errand π γ Unit).Tame
  | [] => tame_pure _
  | message :: rest =>
    tame_bind (tame_lift fun _ => accounts_dismiss message) fun _ => tame_dismissAllErrand rest

theorem tame_shutdownErrand : (shutdownErrand : Errand π γ Unit).Tame := by
  have hquiet : ∀ f : Worker π γ → Worker π γ, (∀ w, Accounted w (f w) []) →
      (Errand.lift (modify f) : Errand π γ Unit).Tame :=
    fun f hf => tame_lift fun w => accounts_modify (hf w)
  unfold shutdownErrand
  refine tame_bind (hquiet _ fun w => .of_eq rfl rfl rfl rfl (.inl rfl)) fun _ => ?_
  refine tame_bind (hquiet _ fun w => .of_eq rfl rfl rfl rfl (.inl rfl)) fun _ => ?_
  refine tame_bind (tame_ask _) fun entries => ?_
  refine tame_bind (tame_freeAllErrand entries) fun _ => ?_
  refine tame_bind (tame_lift fun w => accounts_get_bind ?_) fun left => ?_
  · refine accounts_bind (accounts_modify (.of_eq rfl rfl rfl rfl (.inl rfl))) fun _ v => ?_
    exact accounts_pure _
  refine tame_bind (tame_abandonAllErrand left) fun _ => ?_
  refine tame_bind (hquiet _ fun w => .of_eq rfl rfl rfl rfl (.inl rfl)) fun _ => ?_
  refine tame_bind (hquiet _ fun w => .of_eq rfl rfl rfl rfl (.inl rfl)) fun _ => ?_
  refine tame_bind (tame_lift fun w => accounts_get_bind ?_) fun late => ?_
  · refine accounts_bind (accounts_modify (.of_eq rfl rfl rfl rfl (.inr rfl))) fun _ v => ?_
    exact accounts_pure _
  refine tame_bind (tame_dismissAllErrand late) fun _ => ?_
  exact hquiet _ fun w => .of_eq rfl rfl rfl rfl (.inl rfl)

/-- Serving a message that asks for no new object is tame. -/
theorem tame_serveErrand {message : Message γ} (h : message.asksObject = false) :
    (serveErrand message : Errand π γ Flow).Tame := by
  cases message with
  | allocate object ticket => cases h
  | free id start ticket =>
    refine tame_bind
      (tame_lift fun w => accounts_modify (.entry rfl rfl rfl rfl rfl rfl)) fun _ => ?_
    refine tame_bind (tame_attempt (tame_freeErrand id start)) fun result => ?_
    cases result with
    | ok => exact tame_bind (tame_lift fun w => accounts_reply ..) fun _ => tame_pure _
    | error cause => exact tame_bind (tame_lift fun w => accounts_reply ..) fun _ => tame_pure _
  | shutdown =>
    refine tame_lift fun w => accounts_bind ?_ fun _ v => accounts_pure _
    exact accounts_modify (.of_eq rfl rfl rfl rfl (.inl rfl))

end Worker
end DemandPager
