/-
# What the worker leaves alone

Only the serving of messages deals with requests. Faults, creations, releases and the giving
up of objects take nothing from the queue and answer nothing. Of the exchange they change
only the statistics, and they open no gate. What they enter in the journal tells of calls
and callbacks (`Discreet`). Most of what they do leaves also the objects and the gates as they
are (`Still`). This holds of every worker, whatever its books are.

Key definitions: `JournalEntry.isDealing`, `JournalEntry.isWait`, `Discreet`, `Still`,
`Worker.Furnished`.
Key theorems: `Worker.still_handleFault`, `Worker.still_serveFaults`,
`Worker.furnished_allocate`, `Worker.discreet_free`, `Worker.discreet_freeAll`,
`Worker.discreet_abandonAll`.
-/
import DemandPager.Proofs.Easing
import DemandPager.Proofs.Intervals
import DemandPager.Worker.Loop

namespace DemandPager

variable {π γ α β : Type}

/-- Whether an entry tells of a request that is taken up or answered. -/
def JournalEntry.isDealing : JournalEntry → Bool
  | .serve _ | .answer .. => true
  | _ => false

/-- Whether an entry tells of a wait. -/
def JournalEntry.isWait : JournalEntry → Bool
  | .wait _ => true
  | _ => false

/-- The queue, the completions and the number of gates are the same, and no entry tells of
a request or of a wait. -/
structure Discreet (w w' : Worker π γ) (es : List JournalEntry) : Prop where
  journal : w'.journal = w.journal ++ es
  calls : ∀ e ∈ es, e.isDealing = false ∧ e.isWait = false
  exchange : w'.exchange = { w.exchange with stats := w'.exchange.stats }
  gates : w'.gates.length = w.gates.length

namespace Discreet

variable {w v w' : Worker π γ} {es es' : List JournalEntry}

theorem of_eq (hjournal : w'.journal = w.journal)
    (hexchange : w'.exchange = { w.exchange with stats := w'.exchange.stats })
    (hgates : w'.gates.length = w.gates.length) : Discreet w w' [] :=
  ⟨by rw [hjournal, List.append_nil], fun _ h => (by cases h), hexchange, hgates⟩

theorem refl (w : Worker π γ) : Discreet w w [] := of_eq rfl rfl rfl

/-- An entry about a call or a callback is made. -/
theorem entry {e : JournalEntry} (he : e.isDealing = false ∧ e.isWait = false)
    (hjournal : w'.journal = w.journal ++ [e]) (hexchange : w'.exchange = w.exchange)
    (hgates : w'.gates.length = w.gates.length) : Discreet w w' [e] where
  journal := hjournal
  calls := fun x hx => by rwa [List.mem_singleton.mp hx]
  exchange := by rw [hexchange]
  gates := hgates

theorem trans (h : Discreet w v es) (h' : Discreet v w' es') : Discreet w w' (es ++ es') where
  journal := by rw [h'.journal, h.journal, List.append_assoc]
  calls := List.forall_mem_append.mpr ⟨h.calls, h'.calls⟩
  exchange := by rw [h'.exchange, h.exchange]
  gates := h'.gates.trans h.gates

theorem channel (h : Discreet w w' es) : w'.exchange.channel = w.exchange.channel := by
  rw [h.exchange]

theorem completions (h : Discreet w w' es) :
    w'.exchange.completions = w.exchange.completions := by
  rw [h.exchange]

theorem filter_isDealing (h : Discreet w w' es) : es.filter (·.isDealing) = [] :=
  List.filter_eq_nil_iff.mpr fun e he => by rw [(h.calls e he).1]; exact Bool.false_ne_true

theorem filter_isWait (h : Discreet w w' es) : es.filter (·.isWait) = [] :=
  List.filter_eq_nil_iff.mpr fun e he => by rw [(h.calls e he).2]; exact Bool.false_ne_true

end Discreet

/-- The worker was discreet between two states. -/
def Discreetly (w w' : Worker π γ) : Prop := ∃ es, Discreet w w' es

instance : IsPreorder (Worker π γ) Discreetly where
  refl w := ⟨[], .refl w⟩
  trans := fun _ _ _ ⟨_, h⟩ ⟨_, h'⟩ => ⟨_, h.trans h'⟩

/-- The worker was discreet, no object came or went, and no gate was turned. -/
structure Still (w w' : Worker π γ) (es : List JournalEntry) : Prop extends Discreet w w' es where
  turns : w'.gates = w.gates
  objects : w'.objects = w.objects

/-- Objects and gates stood still between two states. -/
def AtRest (w w' : Worker π γ) : Prop := ∃ es, Still w w' es

instance : IsPreorder (Worker π γ) AtRest where
  refl w := ⟨[], .refl w, rfl, rfl⟩
  trans := fun _ _ _ ⟨_, h⟩ ⟨_, h'⟩ =>
    ⟨_, h.toDiscreet.trans h'.toDiscreet, h'.turns.trans h.turns, h'.objects.trans h.objects⟩

namespace Worker

variable {w : Worker π γ}

theorem Leads.discreet {act : WorkerM π γ α} (h : Leads AtRest act w) : Leads Discreetly act w :=
  h.mono fun _ ⟨_, hv⟩ => ⟨_, hv.toDiscreet⟩

theorem discreetly_of_eq {w w' : Worker π γ} (hjournal : w'.journal = w.journal)
    (hexchange : w'.exchange = { w.exchange with stats := w'.exchange.stats })
    (hgates : w'.gates.length = w.gates.length) : Discreetly w w' :=
  ⟨[], .of_eq hjournal hexchange hgates⟩

/-- A change of what no entry tells of. -/
theorem atRest_of_eq {w w' : Worker π γ} (hjournal : w'.journal = w.journal)
    (hexchange : w'.exchange = { w.exchange with stats := w'.exchange.stats })
    (hgates : w'.gates = w.gates) (hobjects : w'.objects = w.objects) : AtRest w w' :=
  ⟨[], .of_eq hjournal hexchange (congrArg _ hgates), hgates, hobjects⟩

theorem atRest_entry {w w' : Worker π γ} {e : JournalEntry}
    (he : e.isDealing = false ∧ e.isWait = false) (hjournal : w'.journal = w.journal ++ [e])
    (hexchange : w'.exchange = w.exchange) (hgates : w'.gates = w.gates)
    (hobjects : w'.objects = w.objects) : AtRest w w' :=
  ⟨[e], .entry he hjournal hexchange (congrArg _ hgates), hgates, hobjects⟩

/-! ### Small steps -/

theorem still_note {e : JournalEntry} (he : e.isDealing = false ∧ e.isWait = false) :
    Leads AtRest (note e : WorkerM π γ Unit) w :=
  atRest_entry he rfl rfl rfl rfl

theorem still_count (event : WorkEvent) : Leads AtRest (count event : WorkerM π γ Unit) w :=
  atRest_of_eq rfl rfl rfl rfl

theorem discreet_changeGate (number : Nat) (f : Gate → Gate) :
    Leads Discreetly (changeGate number f : WorkerM π γ Unit) w :=
  discreetly_of_eq rfl rfl (List.length_modify ..)

theorem still_callPages {call : EStateM PagerError π α}
    {entry : Except PagerError α → JournalEntry}
    (he : ∀ result, (entry result).isDealing = false ∧ (entry result).isWait = false) :
    Leads AtRest (callPages call entry : WorkerM π γ _) w :=
  leads_callPages fun result _ _ => atRest_entry (he result) rfl rfl rfl rfl

theorem still_callBreakable {call : EStateM Failure π α}
    {entry : Except PagerError α → JournalEntry}
    (he : ∀ result, (entry result).isDealing = false ∧ (entry result).isWait = false) :
    Leads AtRest (callBreakable call entry : WorkerM π γ _) w :=
  leads_callBreakable fun result _ => atRest_entry (he result) rfl rfl rfl rfl

theorem still_finish (object : Object γ) :
    Leads AtRest (finish object : WorkerM π γ Unit) w := by
  unfold finish
  cases object.callbacks.destructor with
  | none => exact leads_pure _
  | some destructor =>
    exact leads_bind (still_note ⟨rfl, rfl⟩) fun _ _ => atRest_of_eq rfl rfl rfl rfl

variable [Paging π]

/-! ### Faults -/

/-- Objects and gates stand still when room is made. -/
theorem still_easing : Easing (AtRest (π := π) (γ := γ)) where
  books _ _ _ _ _ := atRest_of_eq rfl rfl rfl rfl
  pop _ := atRest_of_eq rfl rfl rfl rfl
  handed _ _ _ _ _ := atRest_entry ⟨rfl, rfl⟩ rfl rfl rfl rfl
  read _ := atRest_entry ⟨rfl, rfl⟩ rfl rfl rfl rfl
  discard _ := atRest_entry ⟨rfl, rfl⟩ rfl rfl rfl rfl

omit [Paging π] in
theorem still_fillChunk (object : Object γ) (span : Span) :
    Leads AtRest (fillChunk object span : WorkerM π γ Bytes) w := by
  unfold fillChunk
  refine leads_bind (still_note ⟨rfl, rfl⟩) fun _ v => leads_get_bind ?_
  refine leads_bind (atRest_of_eq rfl rfl rfl rfl) fun _ v => ?_
  split
  · exact leads_refuse _
  · exact leads_throw _
  · refine leads_bind (still_count _) fun _ v => ?_
    refine leads_bind (atRest_of_eq rfl rfl rfl rfl) fun _ v => ?_
    exact leads_get_bind (leads_pure _)

omit [Paging π] in
theorem still_recordChunk (record : ChunkRecord) :
    Leads AtRest (recordChunk record : WorkerM π γ Unit) w := by
  unfold recordChunk
  refine leads_get_bind (leads_settle_bind fun ring => ?_)
  refine leads_bind (atRest_of_eq rfl rfl rfl rfl) fun _ v => leads_checked_bind fun used => ?_
  refine leads_bind (atRest_of_eq rfl rfl rfl rfl) fun _ v => ?_
  exact leads_bind (still_count _) fun _ v => leads_checkTotals

theorem still_loadChunk (site : FaultSite γ) :
    Leads AtRest (loadChunk site : WorkerM π γ Unit) w := by
  unfold loadChunk
  refine leads_bind (still_fillChunk ..) fun content v => leads_checked_bind fun start => ?_
  refine leads_bind (still_callPages fun _ => ⟨rfl, rfl⟩) fun result v => ?_
  refine leads_settle_bind fun installed => ?_
  split
  · exact still_recordChunk _
  · exact still_count _

/-- **A fault is no matter of the exchange.** -/
theorem still_handleFault (address : Nat) :
    Leads AtRest (handleFault address : WorkerM π γ Unit) w := by
  unfold handleFault
  refine leads_bind (still_count _) fun _ v => leads_get_bind (leads_checked_bind fun site => ?_)
  dsimp only
  split
  · exact leads_refuse_bind
  · refine leads_checked_bind fun scratch => leads_bind (atRest_of_eq rfl rfl rfl rfl) fun _ u => ?_
    exact leads_bind (still_easing.evictFor _) fun _ u => still_loadChunk _

/-! ### Creating objects -/

theorem still_unwind (start len : Nat) : Leads AtRest (unwind start len : WorkerM π γ Unit) w :=
  leads_bind (still_callPages fun _ => ⟨rfl, rfl⟩) fun _ _ =>
    leads_bind (still_callPages fun _ => ⟨rfl, rfl⟩) fun _ _ => leads_pure _

theorem still_permitObject (object : Object γ) :
    Leads AtRest (permitObject object : WorkerM π γ Unit) w := by
  unfold permitObject
  refine leads_get_bind ?_
  dsimp only
  split
  · exact leads_refuse_bind
  · refine leads_checked_bind fun chunk => ?_
    split
    · exact leads_refuse _
    · exact leads_pure _

theorem still_registerOrRelease (start len : Nat) :
    Leads AtRest (registerOrRelease start len : WorkerM π γ Unit) w := by
  unfold registerOrRelease
  refine leads_bind (still_callPages fun _ => ⟨rfl, rfl⟩) fun result v => ?_
  cases result with
  | ok => exact leads_pure _
  | error cause =>
    exact leads_bind (still_callPages fun _ => ⟨rfl, rfl⟩) fun _ _ => leads_refuse _

theorem still_zeroHeader (start len header : Nat) :
    Leads AtRest (zeroHeader start len header : WorkerM π γ Unit) w := by
  unfold zeroHeader
  split
  · refine leads_bind (still_callBreakable fun _ => ⟨rfl, rfl⟩) fun result v => ?_
    cases result with
    | ok => exact leads_pure _
    | error cause => exact leads_bind (still_unwind ..) fun _ _ => leads_refuse _
  · exact leads_pure _

/-- Nothing went off the books, and nothing but `object` came onto them. -/
structure Furnished (object : Object γ) (w w' : Worker π γ) : Prop where
  discreet : Discreetly w w'
  turns : w'.gates = w.gates
  books : w.objects.Sound → w'.objects.Sound ∧
    (∀ e ∈ w.objects.toList, e ∈ w'.objects.toList) ∧
      ∀ e ∈ w'.objects.toList, e ∈ w.objects.toList ∨ e.value = object

omit [Paging π] in
instance (object : Object γ) : IsPreorder (Worker π γ) (Furnished object) where
  refl w := ⟨refl_of Discreetly w, rfl, fun hw => ⟨hw, fun _ h => h, fun _ h => .inl h⟩⟩
  trans := fun u v w h h' => by
    refine ⟨trans_of Discreetly h.discreet h'.discreet, h'.turns.trans h.turns, fun hu => ?_⟩
    obtain ⟨hv, hkept, hnew⟩ := h.books hu
    obtain ⟨hw, hkept', hnew'⟩ := h'.books hv
    exact ⟨hw, fun e he => hkept' e (hkept e he), fun e he => (hnew' e he).elim (hnew e) .inr⟩

omit [Paging π] in
theorem Leads.furnished {act : WorkerM π γ α} (h : Leads AtRest act w) (object : Object γ) :
    Leads (Furnished object) act w :=
  h.mono fun v ⟨es, hv⟩ => ⟨⟨es, hv.toDiscreet⟩, hv.turns, fun hw => by
    rw [hv.objects]
    exact ⟨hw, fun _ h => h, fun _ h => .inl h⟩⟩

theorem furnished_recordObject (start len : Nat) (object : Object γ) :
    Leads (Furnished object) (recordObject start len object : WorkerM π γ Unit) w := by
  unfold recordObject
  refine leads_get_bind ?_
  cases hinsert : w.objects.insert start len object with
  | ok objects =>
    refine ⟨discreetly_of_eq rfl rfl rfl, rfl,
      fun hw => ⟨IntervalMap.sound_insert hw hinsert, ?_, ?_⟩⟩
    · exact fun e he => (IntervalMap.mem_insert hw hinsert).mpr (.inr he)
    · intro e he
      rcases (IntervalMap.mem_insert hw hinsert).mp he with rfl | hold
      · exact .inr rfl
      · exact .inl hold
  | error cause =>
    exact leads_bind ((still_unwind ..).furnished object) fun _ _ => leads_refuse _

/-- **A creation brings at most its own object onto the books.** -/
theorem furnished_allocate (object : Object γ) :
    Leads (Furnished object) (allocate object : WorkerM π γ Nat) w := by
  unfold allocate
  refine leads_bind ((still_permitObject _).furnished object) fun _ v => ?_
  refine leads_bind ((still_callBreakable fun _ => ⟨rfl, rfl⟩).furnished object) fun result v => ?_
  refine leads_settle_bind fun start => ?_
  refine leads_bind ((still_registerOrRelease ..).furnished object) fun _ v => ?_
  refine leads_bind ((still_zeroHeader ..).furnished object) fun _ v => ?_
  refine leads_bind (furnished_recordObject ..) fun _ v => ?_
  exact leads_bind ((still_count _).furnished object) fun _ v => leads_pure _

theorem discreet_allocate (object : Object γ) :
    Leads Discreetly (allocate object : WorkerM π γ Nat) w :=
  (furnished_allocate object).mono fun _ h => h.discreet

/-! ### Releasing objects -/

theorem still_writeBackAll : ∀ (addresses : List Nat) (w : Worker π γ),
    Leads AtRest (writeBackAll addresses : WorkerM π γ Unit) w
  | [], _ => leads_pure _
  | address :: rest, _ =>
    leads_bind (still_easing.writeBackChunk address) fun _ v => still_writeBackAll rest v

theorem still_handOverAll (entry : Interval (Object γ)) :
    Leads AtRest (handOverAll entry : WorkerM π γ Unit) w := by
  unfold handOverAll
  split
  · exact leads_get_bind (still_writeBackAll ..)
  · exact leads_pure _

theorem discreet_unmap (start len gate : Nat) :
    Leads Discreetly (unmap start len gate : WorkerM π γ Unit) w := by
  unfold unmap
  refine leads_bind (discreet_changeGate ..) fun _ v => ?_
  refine leads_bind (still_callPages fun _ => ⟨rfl, rfl⟩).discreet fun result v => ?_
  cases result with
  | ok => exact discreet_changeGate ..
  | error cause => exact leads_bind (discreet_changeGate ..) fun _ _ => leads_refuse _

omit [Paging π] in
theorem discreet_strike (id start : Nat) :
    Leads Discreetly (strike id start : WorkerM π γ (Object γ)) w := by
  unfold strike
  refine leads_get_bind (leads_settle_bind fun struck => ?_)
  refine leads_bind (discreetly_of_eq rfl rfl rfl) fun _ v => leads_get_bind ?_
  refine leads_bind (discreetly_of_eq rfl rfl rfl) fun _ u => leads_checked_bind fun _ => ?_
  refine leads_checked_bind fun used => ?_
  exact leads_bind (discreetly_of_eq rfl rfl rfl) fun _ _ => leads_pure _

theorem discreet_discharge (entry : Interval (Object γ)) :
    Leads Discreetly (discharge entry : WorkerM π γ Unit) w := by
  unfold discharge
  refine leads_bind (discreet_strike ..) fun object v => ?_
  refine leads_bind (still_callPages fun _ => ⟨rfl, rfl⟩).discreet fun _ v => ?_
  refine leads_bind (still_finish _).discreet fun _ v => ?_
  exact leads_bind (still_count _).discreet fun _ v => leads_checkTotals.discreet

theorem discreet_free (id start : Nat) : Leads Discreetly (free id start : WorkerM π γ Unit) w := by
  unfold free
  refine leads_get_bind ?_
  cases w.objectAt id start with
  | none => exact leads_refuse _
  | some entry =>
    refine leads_bind (still_handOverAll _).discreet fun _ v => ?_
    exact leads_bind (discreet_unmap ..) fun _ v => discreet_discharge _

theorem discreet_freeAll : ∀ (entries : List (Interval (Object γ))) (w : Worker π γ),
    Leads Discreetly (freeAll entries : WorkerM π γ Unit) w
  | [], _ => leads_pure _
  | _ :: rest, _ =>
    leads_bind (leads_attempt (discreet_free ..)) fun _ v => discreet_freeAll rest v

theorem discreet_abandon (entry : Interval (Object γ)) :
    Leads Discreetly (abandon entry : WorkerM π γ Unit) w := by
  unfold abandon
  refine leads_bind (discreet_changeGate ..) fun _ v => ?_
  refine leads_bind (still_callPages fun _ => ⟨rfl, rfl⟩).discreet fun result v => ?_
  cases result with
  | ok =>
    refine leads_bind (discreet_changeGate ..) fun _ v => ?_
    exact leads_bind (still_callPages fun _ => ⟨rfl, rfl⟩).discreet
      fun _ _ => (still_finish _).discreet
  | error cause => exact (still_finish _).discreet

theorem discreet_abandonAll : ∀ (entries : List (Interval (Object γ))) (w : Worker π γ),
    Leads Discreetly (abandonAll entries : WorkerM π γ Unit) w
  | [], _ => leads_pure _
  | entry :: rest, _ =>
    leads_bind (discreet_abandon entry) fun _ v => discreet_abandonAll rest v

/-! ### Reported faults -/

theorem still_handleFaults : ∀ (addresses : List Nat) (w : Worker π γ),
    Leads AtRest (handleFaults addresses : WorkerM π γ Unit) w
  | [], _ => leads_pure _
  | address :: rest, _ =>
    leads_bind (still_handleFault address) fun _ v => still_handleFaults rest v

theorem still_serveFaults : Leads AtRest (serveFaults : WorkerM π γ Unit) w := by
  unfold serveFaults
  refine leads_bind (still_callPages fun _ => ⟨rfl, rfl⟩) fun result v => ?_
  refine leads_settle_bind fun reports => leads_bind (still_handleFaults ..) fun _ v => ?_
  split
  · exact leads_refuse _
  · exact leads_pure _

end Worker
end DemandPager
