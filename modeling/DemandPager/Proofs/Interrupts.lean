/-
# Too many interrupted waits

The event loop counts the interrupted waits in a row, and a wait that ends in another way makes it
count from zero again. What happens to the worker in one turn of the loop does not depend on the
count (`Worker.Outlasts`), so the loop is a walk through the script along which a row is looked for:
it goes on as long as each turn is outlasted and no row is too long (`Worker.Lasts`), and it stops
with an interrupt storm at the turn that makes a row too long (`Worker.eventLoop_eq_storm`). That is
where the script ends in such a row for the first time (`Worker.FirstRow`).

The only other source of that error is a memory that gives it for an answer (`Worker.HandedOn`),
which those of this library never do.

Key definitions: `Worker.Outlasts`, `Worker.Through`, `Worker.EndsInRow`, `Worker.FirstRow`,
`Worker.Lasts`, `Worker.HandedOn`.
Key theorems: `Worker.endsInRow_iff`, `Worker.lasts_iff`, `Worker.eventLoop_eq_storm`,
`Worker.eventLoop_storms_iff`, `Worker.interrupts_limited`.
-/
import Mathlib.Tactic.MkIffOfInductiveProp
import DemandPager.Proofs.Interference
import DemandPager.Proofs.Relays
import DemandPager.Proofs.Slots

namespace DemandPager
namespace Worker

variable {π γ : Type} {w v w' : Worker π γ} {turn : Turn π γ} {turns rest : List (Turn π γ)}
  {k k' n : Nat} {o : Options}

/-! ### Rows -/

/-- The last waits, so many, were interrupted. -/
def EndsInRow (k : Nat) (turns : List (Turn π γ)) : Prop :=
  ∃ row, row <:+ turns ∧ row.length = k ∧ ∀ turn ∈ row, turn.outcome = .interrupted

/-- The last waits, so many, were interrupted, and never before so many in a row. -/
structure FirstRow (k : Nat) (turns : List (Turn π γ)) : Prop where
  endsInRow : EndsInRow k turns
  first : ∀ earlier, earlier <+: turns → earlier ≠ turns → ¬EndsInRow k earlier

/-- How many waits in a row were interrupted after one more, if it was `k` before. -/
def nextRow (turn : Turn π γ) (k : Nat) : Nat := if turn.outcome = .interrupted then k + 1 else 0

/-- How many waits in a row were interrupted after these, if it was `k` before. -/
def rowAfter (k : Nat) (turns : List (Turn π γ)) : Nat :=
  turns.foldl (fun k turn => nextRow turn k) k

theorem rowAfter_concat : rowAfter k (turns ++ [turn]) = nextRow turn (rowAfter k turns) := by
  simp [rowAfter]

/-- **The count is the length of the longest row at the end.** -/
theorem endsInRow_iff : ∀ {k : Nat}, EndsInRow k turns ↔ k ≤ rowAfter 0 turns := by
  induction turns using List.reverseRecOn with
  | nil =>
    intro k
    have hnil : rowAfter 0 ([] : List (Turn π γ)) = 0 := rfl
    rw [hnil]
    constructor
    · rintro ⟨row, hrow, rfl, -⟩
      simp [List.suffix_nil.mp hrow]
    · intro hk
      exact ⟨[], List.suffix_rfl, by simp at hk ⊢; omega, by simp⟩
  | append_singleton turns last ih =>
    intro k
    have hzero : EndsInRow 0 (turns ++ [last]) := ⟨[], List.nil_suffix, rfl, by simp⟩
    rw [rowAfter_concat]
    cases k with
    | zero => simp [hzero]
    | succ k =>
      -- a row that is not empty ends with the last wait
      have hlast : EndsInRow (k + 1) (turns ++ [last]) ↔
          last.outcome = .interrupted ∧ EndsInRow k turns := by
        constructor
        · rintro ⟨row, hrow, hlength, hall⟩
          rcases List.suffix_concat_iff.mp hrow with rfl | ⟨front, rfl, hfront⟩
          · simp at hlength
          · have hinterrupted := hall last (by simp)
            refine ⟨hinterrupted, front, hfront, by simpa using hlength, fun turn hturn => ?_⟩
            exact hall turn (List.mem_append_left _ hturn)
        · rintro ⟨hinterrupted, front, hfront, rfl, hall⟩
          refine ⟨front ++ [last], List.suffix_concat_iff.mpr (.inr ⟨front, rfl, hfront⟩),
            by simp, ?_⟩
          intro turn hturn
          rcases List.mem_append.mp hturn with hfirst | hsecond
          · exact hall turn hfirst
          · rwa [List.mem_singleton.mp hsecond]
      rw [hlast, ih]
      unfold nextRow
      by_cases hinterrupted : last.outcome = .interrupted
      · simp [hinterrupted]
      · simp [hinterrupted]

/-- A row is too long for the first time with the wait that makes it so. -/
theorem firstRow_concat : FirstRow (k + 1) (turns ++ [turn]) ↔
    turn.outcome = .interrupted ∧ rowAfter 0 turns = k ∧
      ∀ earlier, earlier <+: turns → rowAfter 0 earlier ≤ k := by
  have hshort : ∀ earlier : List (Turn π γ), ¬EndsInRow (k + 1) earlier ↔ rowAfter 0 earlier ≤ k :=
    fun earlier => by rw [endsInRow_iff]; omega
  constructor
  · rintro ⟨hrow, hfirst⟩
    have hbefore : ∀ earlier, earlier <+: turns → rowAfter 0 earlier ≤ k := by
      intro earlier hearlier
      refine (hshort earlier).mp (hfirst earlier (hearlier.trans (List.prefix_append ..)) ?_)
      rintro rfl
      have hlength := hearlier.length_le
      simp at hlength
    have hturns := hbefore turns List.prefix_rfl
    rw [endsInRow_iff, rowAfter_concat] at hrow
    unfold nextRow at hrow
    by_cases hinterrupted : turn.outcome = .interrupted
    · rw [if_pos hinterrupted] at hrow
      exact ⟨hinterrupted, by omega, hbefore⟩
    · rw [if_neg hinterrupted] at hrow
      omega
  · rintro ⟨hinterrupted, hturns, hbefore⟩
    refine ⟨?_, fun earlier hearlier hne => (hshort earlier).mpr ?_⟩
    · rw [endsInRow_iff, rowAfter_concat, hturns]
      simp [nextRow, hinterrupted]
    · rcases List.prefix_concat_iff.mp hearlier with heq | hproper
      · exact absurd heq hne
      · exact hbefore earlier hproper

/-! ### Turns of the loop -/

section Turns

variable [Paging π]

/-- The turn does not end the loop, unless it makes a row of interrupted waits too long. -/
@[mk_iff]
inductive Outlasts (o : Options) (turn : Turn π γ) (w : Worker π γ) : Worker π γ → Prop
  /-- Nothing is served. -/
  | interrupted (h : turn.outcome = .interrupted) : Outlasts o turn w (w.arrived o.pollTimeout turn)
  /-- The queue is swept, and the worker is not asked to shut down. -/
  | timedOut {v : Worker π γ} (h : turn.outcome = .timedOut)
      (hswept : drainControl (w.arrived o.pollTimeout turn) = .ok .proceed v) : Outlasts o turn w v
  /-- What the tokens stand for is served. -/
  | ready {v : Worker π γ} {tokens : List Nat} (h : turn.outcome = .ready tokens)
      (hserved : serveTokens turn.bell tokens (w.arrived o.pollTimeout turn) = .ok () v) :
        Outlasts o turn w v

/-- The worker comes through these turns to the next wait: nothing ends the loop but a row of
interrupted waits that is too long. -/
inductive Through (o : Options) : List (Turn π γ) → Worker π γ → Worker π γ → Prop
  | nil {w : Worker π γ} (h : w.phase = .running) : Through o [] w w
  | cons {turn : Turn π γ} {rest : List (Turn π γ)} {w v w' : Worker π γ}
      (hphase : w.phase = .running)
      (hturn : Outlasts o turn w v) (hrest : Through o rest v w') : Through o (turn :: rest) w w'

theorem Through.running (h : Through o turns w w') : w.phase = .running := by
  cases h <;> assumption

theorem Through.ends_running (h : Through o turns w w') : w'.phase = .running := by
  induction h with
  | nil h => exact h
  | cons _ _ _ ih => exact ih

theorem through_concat : Through o (turns ++ [turn]) w w' ↔
    ∃ v, Through o turns w v ∧ Outlasts o turn v w' ∧ w'.phase = .running := by
  induction turns generalizing w with
  | nil =>
    constructor
    · rintro (_ | ⟨hphase, hturn, hrest⟩)
      cases hrest with
      | nil hrunning => exact ⟨w, .nil hphase, hturn, hrunning⟩
    · rintro ⟨v, hnil, hturn, hrunning⟩
      cases hnil with
      | nil hphase => exact .cons hphase hturn (.nil hrunning)
  | cons first rest ih =>
    constructor
    · rintro (_ | ⟨hphase, hfirst, hrest⟩)
      obtain ⟨v, hthrough, hturn, hrunning⟩ := ih.mp hrest
      exact ⟨v, .cons hphase hfirst hthrough, hturn, hrunning⟩
    · rintro ⟨v, hcons, hturn, hrunning⟩
      cases hcons with
      | cons hphase hfirst hrest => exact .cons hphase hfirst (ih.mpr ⟨v, hrest, hturn, hrunning⟩)

/-! ### The loop as a walk -/

/-- The loop comes through these turns with the count going from `k` to `k'`: no row of interrupted
waits is too long. -/
inductive Lasts (o : Options) : Nat → Worker π γ → List (Turn π γ) → Nat → Worker π γ → Prop
  | nil {k : Nat} {w : Worker π γ} (hphase : w.phase = .running) (hk : k ≤ o.maxInterrupts) :
      Lasts o k w [] k w
  | cons {k k' : Nat} {w v w' : Worker π γ} {turn : Turn π γ} {rest : List (Turn π γ)}
      (hphase : w.phase = .running) (hk : k ≤ o.maxInterrupts) (hturn : Outlasts o turn w v)
      (hrest : Lasts o (nextRow turn k) v rest k' w') : Lasts o k w (turn :: rest) k' w'

/-- The turn ends the loop with an interrupt storm: it makes a row too long, or a call of the
memory is refused with this error and that is handed on. -/
@[mk_iff]
inductive Bursts (o : Options) (turn : Turn π γ) (k : Nat) (w : Worker π γ) :
    Nat → Worker π γ → Prop
  | row (h : turn.outcome = .interrupted) (hk : k = o.maxInterrupts) :
      Bursts o turn k w (o.maxInterrupts + 1) (w.arrived o.pollTimeout turn)
  | relayed {n : Nat} {w' : Worker π γ} {tokens : List Nat} (h : turn.outcome = .ready tokens)
      (hserved : serveTokens turn.bell tokens (w.arrived o.pollTimeout turn) =
        .error (.error (.interruptStorm n)) w') : Bursts o turn k w n w'

theorem Lasts.running (h : Lasts o k w turns k' w') : w.phase = .running := by
  cases h <;> assumption

/-- The walk is the way through the turns, together with all rows on it. -/
theorem lasts_iff : Lasts o k w turns k' w' ↔ Through o turns w w' ∧ k' = rowAfter k turns ∧
    ∀ earlier, earlier <+: turns → rowAfter k earlier ≤ o.maxInterrupts := by
  induction turns generalizing k w with
  | nil =>
    constructor
    · rintro (⟨hphase, hk⟩ | _)
      refine ⟨.nil hphase, rfl, fun earlier hearlier => ?_⟩
      rw [List.prefix_nil.mp hearlier]
      exact hk
    · rintro ⟨hthrough, rfl, hrows⟩
      cases hthrough with
      | nil hphase => exact .nil hphase (hrows [] List.prefix_rfl)
  | cons turn rest ih =>
    constructor
    · rintro (_ | ⟨hphase, hk, hturn, hrest⟩)
      obtain ⟨hthrough, rfl, hrows⟩ := ih.mp hrest
      refine ⟨.cons hphase hturn hthrough, rfl, fun earlier hearlier => ?_⟩
      rcases List.prefix_cons_iff.mp hearlier with rfl | ⟨later, rfl, hlater⟩
      · exact hk
      · exact hrows later hlater
    · rintro ⟨hthrough, rfl, hrows⟩
      cases hthrough with
      | cons hphase hturn hrest =>
        refine .cons hphase (hrows [] List.nil_prefix) hturn (ih.mpr ⟨hrest, rfl, ?_⟩)
        exact fun later hlater => hrows (turn :: later) (List.cons_prefix_cons.mpr ⟨rfl, hlater⟩)

/-- A turn of the loop, while the worker is running. -/
theorem eventLoop_cons (hphase : w.phase = .running) :
    eventLoop o (turn :: rest) k w = (match turn.outcome with
      | .failed cause => refuse (.io cause)
      | .interrupted => do eventLoop o rest (← bearInterrupt o k)
      | .timedOut => do
        match ← drainControl with
        | .stop => pure ()
        | .proceed => eventLoop o rest 0
      | .ready tokens => do
        serveTokens turn.bell tokens
        eventLoop o rest 0) (w.arrived o.pollTimeout turn) := by
  have hget : (get : WorkerM π γ (Worker π γ)) w = .ok w w := rfl
  conv_lhs => unfold eventLoop
  show EStateM.bind get _ w = _
  unfold EStateM.bind
  rw [hget]
  show (if w.phase = .running then _ else _ : WorkerM π γ Unit) w = _
  rw [if_pos hphase]
  rfl

/-- A worker that is not running does not wait. -/
theorem eventLoop_over (script : List (Turn π γ)) (hphase : w.phase ≠ .running) :
    eventLoop o script k w = .ok () w := by
  cases script <;>
  · unfold eventLoop
    show (if w.phase = .running then _ else _ : WorkerM π γ Unit) w = _
    rw [if_neg hphase]
    rfl

/-- An interrupted wait is counted, or the row is too long. -/
theorem eventLoop_interrupted (hphase : w.phase = .running) (h : turn.outcome = .interrupted)
    (hlimit : o.maxInterrupts < halfWordBound - 1) (hk : k ≤ o.maxInterrupts) :
    eventLoop o (turn :: rest) k w =
      if k < o.maxInterrupts then eventLoop o rest (k + 1) (w.arrived o.pollTimeout turn)
      else .error (.error (.interruptStorm (o.maxInterrupts + 1)))
        (w.arrived o.pollTimeout turn) := by
  have hword : decide (k + 1 < halfWordBound) = true := by
    rw [decide_eq_true_eq]
    omega
  rw [eventLoop_cons hphase, h]
  show EStateM.bind (bearInterrupt o k) _ _ = _
  unfold EStateM.bind bearInterrupt
  rw [hword]
  by_cases hlt : k < o.maxInterrupts
  · rw [if_pos hlt]
    simp only [ensure, if_true, if_neg (show ¬o.maxInterrupts < k + 1 by omega)]
    rfl
  · rw [if_neg hlt, show k = o.maxInterrupts by omega]
    simp only [ensure, if_true, if_pos (Nat.lt_succ_self _)]
    rfl

/-- **One turn of the loop.** It ends with an interrupt storm if this turn ends it so, or if the
turn is outlasted and the rest of the loop ends so. -/
theorem eventLoop_cons_eq_storm (hphase : w.phase = .running)
    (hlimit : o.maxInterrupts < halfWordBound - 1) (hk : k ≤ o.maxInterrupts) :
    eventLoop o (turn :: rest) k w = .error (.error (.interruptStorm n)) w' ↔
      Bursts o turn k w n w' ∨ ∃ v, Outlasts o turn w v ∧ nextRow turn k ≤ o.maxInterrupts ∧
        eventLoop o rest (nextRow turn k) v = .error (.error (.interruptStorm n)) w' := by
  cases houtcome : turn.outcome with
  | failed cause =>
    rw [eventLoop_cons hphase, houtcome]
    have hrefused : (refuse (.io cause) : WorkerM π γ Unit) (w.arrived o.pollTimeout turn) ≠
        .error (.error (.interruptStorm n)) w' := fun h => (by cases h)
    simp [outlasts_iff, bursts_iff, houtcome, hrefused]
  | interrupted =>
    have hcount : nextRow turn k = k + 1 := if_pos houtcome
    rw [eventLoop_interrupted hphase houtcome hlimit hk, hcount]
    by_cases hlt : k < o.maxInterrupts
    · have hne : k ≠ o.maxInterrupts := Nat.ne_of_lt hlt
      simp only [outlasts_iff, bursts_iff, houtcome, hlt, hne, if_true, true_and,
        false_and, and_false,
        exists_false, reduceCtorEq, or_false, false_or, exists_eq_left]
      exact ⟨fun h => ⟨hlt, h⟩, And.right⟩
    · have hfull : k = o.maxInterrupts := by omega
      simp [outlasts_iff, bursts_iff, houtcome, hfull, eq_comm]
  | timedOut =>
    have hcount : nextRow turn k = 0 := if_neg (by simp [houtcome])
    have haborts := drainControl_aborts (w.arrived o.pollTimeout turn)
    rw [eventLoop_cons hphase, houtcome, hcount]
    show EStateM.bind drainControl _ _ = _ ↔ _
    unfold EStateM.bind
    cases hdrain : drainControl (w.arrived o.pollTimeout turn) with
    | error f v =>
      obtain ⟨breach, rfl⟩ := haborts.of_error hdrain
      simp [outlasts_iff, bursts_iff, houtcome, hdrain]
    | ok flow v =>
      cases flow with
      | stop =>
        have hdone : (pure () : WorkerM π γ Unit) v ≠ .error (.error (.interruptStorm n)) w' :=
          fun h => (by cases h)
        simp [outlasts_iff, bursts_iff, houtcome, hdrain, hdone]
      | proceed => simp [outlasts_iff, bursts_iff, houtcome, hdrain]
  | ready tokens =>
    have hcount : nextRow turn k = 0 := if_neg (by simp [houtcome])
    rw [eventLoop_cons hphase, houtcome, hcount]
    show EStateM.bind (serveTokens turn.bell tokens) _ _ = _ ↔ _
    unfold EStateM.bind
    cases hserve : serveTokens turn.bell tokens (w.arrived o.pollTimeout turn) with
    | error f v => simp [outlasts_iff, bursts_iff, houtcome, hserve]
    | ok a v => simp [outlasts_iff, bursts_iff, houtcome, hserve]

/-- **The loop ends with an interrupt storm where a turn ends it so**, after turns that it came
through. -/
theorem eventLoop_eq_storm (hlimit : o.maxInterrupts < halfWordBound - 1)
    (script : List (Turn π γ)) : ∀ {k : Nat} {w : Worker π γ}, k ≤ o.maxInterrupts →
      (eventLoop o script k w = .error (.error (.interruptStorm n)) w' ↔
        ∃ turns turn rest k' v, script = turns ++ turn :: rest ∧ Lasts o k w turns k' v ∧
          Bursts o turn k' v n w') := by
  induction script with
  | nil =>
    intro k w hk
    have hother :
      eventLoop o ([] : List (Turn π γ)) k w ≠ .error (.error (.interruptStorm n)) w' := by
      intro h
      by_cases hphase : w.phase = .running
      · unfold eventLoop at h
        replace h : (if w.phase = .running then _ else _ : WorkerM π γ Unit) w = _ := h
        rw [if_pos hphase] at h
        cases h
      · rw [eventLoop_over [] hphase] at h
        cases h
    simp [hother]
  | cons turn rest ih =>
    intro k w hk
    by_cases hphase : w.phase = .running
    · rw [eventLoop_cons_eq_storm hphase hlimit hk]
      constructor
      · rintro (hburst | ⟨v, hturn, hle, hloop⟩)
        · exact ⟨[], turn, rest, k, w, rfl, .nil hphase hk, hburst⟩
        · obtain ⟨turns, last, later, k', u, rfl, hlasts, hburst⟩ := (ih hle).mp hloop
          exact ⟨turn :: turns, last, later, k', u, rfl, .cons hphase hk hturn hlasts, hburst⟩
      · rintro ⟨turns, last, later, k', u, hscript, hlasts, hburst⟩
        cases hlasts with
        | nil =>
          cases hscript
          exact .inl hburst
        | @cons _ _ _ v _ _ turns _ _ hturn hrest =>
          cases hscript
          have hle : nextRow turn k ≤ o.maxInterrupts := by
            cases hrest <;> assumption
          exact .inr ⟨v, hturn, hle, (ih hle).mpr ⟨turns, last, later, k', u, rfl, hrest, hburst⟩⟩
    · rw [eventLoop_over _ hphase]
      constructor
      · intro h
        cases h
      · rintro ⟨turns, last, later, k', u, -, hlasts, -⟩
        exact absurd hlasts.running hphase

/-! ### What is waited for and what is served -/

/-- No wait was begun between two states. -/
def Unwaiting (w w' : Worker π γ) : Prop :=
  ∃ es, w'.journal = w.journal ++ es ∧ es.filter (·.isWait) = []

omit [Paging π] in
theorem unwaiting_of_eq (h : w'.journal = w.journal) : Unwaiting w w' :=
  ⟨[], by rw [h, List.append_nil], rfl⟩

omit [Paging π] in
theorem unwaiting_entry {x : JournalEntry} (hx : x.isWait = false)
    (h : w'.journal = w.journal ++ [x]) : Unwaiting w w' :=
  ⟨[x], h, by simp [hx]⟩

instance : IsPreorder (Worker π γ) Unwaiting where
  refl _ := unwaiting_of_eq rfl
  trans := by
    rintro _ _ _ ⟨es, hjournal, hes⟩ ⟨es', hjournal', hes'⟩
    refine ⟨es ++ es', by rw [hjournal', hjournal, List.append_assoc], ?_⟩
    rw [List.filter_append, hes, hes', List.append_nil]

theorem unwaiting_serveMessage (m : Message γ) (w : Worker π γ) :
    Leads Unwaiting (serveMessage m) w := by
  have hrequest : ∀ (ticket : Nat) (act : WorkerM π γ Answer), (∀ v, Leads Discreetly act v) →
      Leads Unwaiting (serveRequest ticket act) w := by
    intro ticket act hact
    unfold serveRequest
    refine leads_bind (leads_modify (unwaiting_entry rfl rfl)) fun _ v => ?_
    refine leads_bind (leads_attempt ((hact v).mono ?_)) fun result v => ?_
    · rintro u ⟨es, hes⟩
      exact ⟨es, hes.journal, hes.filter_isWait⟩
    · have hreply : ∀ answer, Leads Unwaiting (reply ticket answer : WorkerM π γ Unit) v :=
        fun answer => leads_bind (leads_modify (unwaiting_entry rfl rfl)) fun _ u =>
          leads_modify (unwaiting_of_eq rfl)
      cases result with
      | ok answer => exact leads_bind (hreply _) fun _ _ => leads_pure _
      | error cause => exact leads_bind (hreply _) fun _ _ => leads_pure _
  cases m with
  | allocate object ticket =>
    exact hrequest ticket _ fun v => leads_bind (discreet_allocate _) fun _ _ => leads_pure _
  | free id start ticket =>
    exact hrequest ticket _ fun v => leads_bind (discreet_free ..) fun _ _ => leads_pure _
  | shutdown => exact leads_bind (leads_modify (unwaiting_of_eq rfl)) fun _ _ => leads_pure _

theorem unwaiting_serveMessages : ∀ (n : Nat) (w : Worker π γ), Leads Unwaiting (serveMessages n) w
  | 0, _ => leads_pure _
  | n + 1, w => by
    unfold serveMessages
    refine leads_bind ?_ fun taken v => ?_
    · unfold nextMessage
      refine leads_get_bind ?_
      split
      · exact leads_pure _
      · exact leads_bind (leads_set (unwaiting_of_eq rfl)) fun _ _ => leads_pure _
    · cases taken with
      | none => exact leads_pure _
      | some message =>
        refine leads_bind (unwaiting_serveMessage message v) fun flow u => ?_
        cases flow with
        | stop => exact leads_pure _
        | proceed => exact unwaiting_serveMessages n u

omit [Paging π] in
theorem unwaiting_answerBell (bell : Except IoCause Unit) (w : Worker π γ) :
    Leads Unwaiting (answerBell bell) w := by
  cases bell with
  | ok u => exact leads_modify (unwaiting_of_eq rfl)
  | error cause => exact refl_of Unwaiting w

theorem unwaiting_serveTokens (bell : Except IoCause Unit) :
    ∀ (tokens : List Nat) (w : Worker π γ), Leads Unwaiting (serveTokens bell tokens) w
  | [], _ => leads_pure _
  | token :: rest, w => by
    unfold serveTokens
    split
    · refine leads_bind (still_serveFaults.discreet.mono ?_) fun _ v =>
        unwaiting_serveTokens bell rest v
      rintro u ⟨es, hes⟩
      exact ⟨es, hes.journal, hes.filter_isWait⟩
    · split
      · refine leads_bind (unwaiting_answerBell bell w) fun _ v => ?_
        refine leads_bind (unwaiting_serveMessages _ v) fun flow u => ?_
        cases flow with
        | stop => exact leads_pure _
        | proceed => exact unwaiting_serveTokens bell rest u
      · exact unwaiting_serveTokens bell rest w

omit [Paging π] in
/-- **When a wait ends, the books are as they were.** Of the site the queue may have become longer
and the host may have changed the memory; nothing was served and nothing but the wait was entered.
-/
theorem arrived_idle (w : Worker π γ) (timeout : Nat) (turn : Turn π γ) :
    (w.arrived timeout turn).toDesk = w.toDesk ∧
      (w.arrived timeout turn).journal = w.journal ++ [.wait timeout] ∧
      (w.arrived timeout turn).pages = turn.meanwhile w.pages ∧
      (w.arrived timeout turn).client = w.client ∧
      w.exchange.channel.pending <+: (w.arrived timeout turn).exchange.channel.pending := by
  have hsent : ∀ (requests : List (Request γ)) (s : Site π γ),
      (s.submitAll requests).pages = s.pages ∧ (s.submitAll requests).client = s.client := by
    intro requests
    induction requests with
    | nil => exact fun s => ⟨rfl, rfl⟩
    | cons r rest ih =>
      intro s
      have hfirst : (s.submit r).2.pages = s.pages ∧ (s.submit r).2.client = s.client := by
        cases r <;> exact ⟨rfl, rfl⟩
      exact ⟨(ih _).1.trans hfirst.1, (ih _).2.trans hfirst.2⟩
  set s : Site π γ := { w.toSite with
    pages := turn.meanwhile w.pages, journal := w.journal ++ [.wait timeout] }
  have hothers : Interferes s (w.arrived timeout turn).toSite := Site.interferes_submitAll _ s
  obtain ⟨new, hnew, -, -⟩ := hothers.queue
  exact ⟨rfl, hothers.journal, (hsent turn.requests s).1, (hsent turn.requests s).2, new, hnew.symm⟩

/-- A turn that is outlasted is one wait. -/
theorem Outlasts.waited (h : Outlasts o turn w v) :
    ∃ es, v.journal = w.journal ++ es ∧ waits es = 1 := by
  obtain ⟨-, harrived, -⟩ := arrived_idle w o.pollTimeout turn
  have hserved : Unwaiting (w.arrived o.pollTimeout turn) v := by
    cases h with
    | interrupted => exact unwaiting_of_eq rfl
    | timedOut _ hswept =>
      exact (unwaiting_serveMessages _ (w.arrived o.pollTimeout turn)).of_returns (.inl ⟨_, hswept⟩)
    | ready _ hserved => exact (unwaiting_serveTokens _ _ _).of_returns (.inl ⟨_, hserved⟩)
  obtain ⟨es, hjournal, hes⟩ := hserved
  refine ⟨.wait o.pollTimeout :: es, by rw [hjournal, harrived]; simp, ?_⟩
  unfold waits
  rw [List.filter_cons_of_pos rfl, hes, List.length_singleton]

/-- **As many waits are begun as there are turns.** -/
theorem Through.waited (h : Through o turns w w') :
    ∃ es, w'.journal = w.journal ++ es ∧ waits es = turns.length := by
  induction h with
  | nil => exact ⟨[], (List.append_nil _).symm, rfl⟩
  | cons _ hturn _ ih =>
    obtain ⟨es, hjournal, hes⟩ := hturn.waited
    obtain ⟨es', hjournal', hes'⟩ := ih
    refine ⟨es ++ es', by rw [hjournal', hjournal, List.append_assoc], ?_⟩
    have happend : waits (es ++ es') = waits es + waits es' := by
      simp [waits, List.filter_append]
    rw [happend, hes, hes', List.length_cons, Nat.add_comm]

/-! ### The limit -/

/-- Before any row of interrupted waits is too long, the memory refuses the last call that is made
for the tokens of a wait with an interrupt storm, and that is handed on. -/
def HandedOn (o : Options) (script : List (Turn π γ)) (w : Worker π γ) (n : Nat) (w' : Worker π γ) :
    Prop :=
  ∃ turns turn rest tokens v, script = turns ++ turn :: rest ∧ Through o turns w v ∧
    (∀ earlier, earlier <+: turns → ¬EndsInRow (o.maxInterrupts + 1) earlier) ∧
    turn.outcome = .ready tokens ∧
    serveTokens turn.bell tokens (v.arrived o.pollTimeout turn) =
      .error (.error (.interruptStorm n)) w' ∧
    w'.LastRefused (.interruptStorm n)

/-- The walk from the beginning of the loop. -/
theorem lasts_zero_iff : Lasts o 0 w turns k w' ↔ Through o turns w w' ∧ k = rowAfter 0 turns ∧
    ∀ earlier, earlier <+: turns → ¬EndsInRow (o.maxInterrupts + 1) earlier := by
  have hshort : ∀ earlier : List (Turn π γ), ¬EndsInRow (o.maxInterrupts + 1) earlier ↔
      rowAfter 0 earlier ≤ o.maxInterrupts := fun earlier => by rw [endsInRow_iff]; omega
  simp only [lasts_iff, hshort]

/-- The first row that is too long, on a way that the worker comes through. -/
theorem firstRow_through_iff : FirstRow (o.maxInterrupts + 1) turns ∧ Through o turns w w' ↔
    ∃ front turn v, turns = front ++ [turn] ∧ Lasts o 0 w front o.maxInterrupts v ∧
      turn.outcome = .interrupted ∧ w' = v.arrived o.pollTimeout turn := by
  constructor
  · rintro ⟨hrow, hthrough⟩
    rcases List.eq_nil_or_concat turns with rfl | ⟨front, turn, rfl⟩
    · have := endsInRow_iff.mp hrow.endsInRow
      simp [rowAfter] at this
    · rw [List.concat_eq_append] at hrow hthrough ⊢
      obtain ⟨hinterrupted, hcount, hrows⟩ := firstRow_concat.mp hrow
      obtain ⟨v, hfront, hturn, -⟩ := through_concat.mp hthrough
      refine ⟨front, turn, v, rfl, lasts_iff.mpr ⟨hfront, hcount.symm, hrows⟩, hinterrupted, ?_⟩
      simpa [outlasts_iff, hinterrupted] using hturn
  · rintro ⟨front, turn, v, rfl, hlasts, hinterrupted, rfl⟩
    obtain ⟨hfront, hcount, hrows⟩ := lasts_iff.mp hlasts
    refine ⟨firstRow_concat.mpr ⟨hinterrupted, hcount.symm, hrows⟩, ?_⟩
    exact through_concat.mpr ⟨v, hfront, .interrupted hinterrupted, hfront.ends_running⟩

/-- **Where the loop ends with an interrupt storm**: where a row is too long for the first time, or
where the memory gives this error before. -/
theorem eventLoop_storms_iff (hlimit : o.maxInterrupts < halfWordBound - 1)
    (script : List (Turn π γ)) :
    eventLoop o script 0 w = .error (.error (.interruptStorm n)) w' ↔
      (n = o.maxInterrupts + 1 ∧ ∃ turns rest, script = turns ++ rest ∧
        FirstRow (o.maxInterrupts + 1) turns ∧ Through o turns w w') ∨
          HandedOn o script w n w' := by
  rw [eventLoop_eq_storm hlimit script (Nat.zero_le _)]
  constructor
  · rintro ⟨turns, turn, rest, k, v, rfl, hlasts, hburst⟩
    cases hburst with
    | row hinterrupted hk =>
      subst hk
      obtain ⟨hrow, hthrough⟩ :=
        firstRow_through_iff.mpr ⟨turns, turn, v, rfl, hlasts, hinterrupted, rfl⟩
      exact .inl ⟨rfl, turns ++ [turn], rest, by simp, hrow, hthrough⟩
    | @relayed _ _ tokens hready hserved =>
      obtain ⟨hthrough, -, hrows⟩ := lasts_zero_iff.mp hlasts
      obtain ⟨hrefused, -⟩ := (relays_serveTokens turn.bell tokens _).of_error hserved n rfl
      exact .inr ⟨turns, turn, rest, tokens, v, rfl, hthrough, hrows, hready, hserved, hrefused⟩
  · rintro (⟨rfl, turns, rest, rfl, hrow, hthrough⟩ |
      ⟨turns, turn, rest, tokens, v, rfl, hthrough, hrows, hready, hserved, -⟩)
    · obtain ⟨front, turn, v, rfl, hlasts, hinterrupted, rfl⟩ :=
        firstRow_through_iff.mp ⟨hrow, hthrough⟩
      exact ⟨front, turn, rest, _, v, by simp, hlasts, .row hinterrupted rfl⟩
    · exact ⟨turns, turn, rest, _, v, rfl, lasts_zero_iff.mpr ⟨hthrough, rfl, hrows⟩,
        .relayed hready hserved⟩

/-- A memory that never gives this error does not do so before a row is too long. -/
theorem not_handedOn (hmemory : Paging.Unstormed π) (script : List (Turn π γ)) :
    ¬HandedOn o script w n w' := by
  rintro ⟨turns, turn, rest, tokens, v, -, -, -, -, hserved, -⟩
  exact ((relays_serveTokens turn.bell tokens _).of_error hserved n rfl).2 hmemory

/-- **The limit of interrupted waits.** Let the limit be one that can be counted beyond. Whatever
the script, the queue and the worker are, the loop ends with an interrupt storm exactly where it
has come through a part of the script that ends, for the first time, in more interrupted waits in
a row than the limit. The error then tells their number; it has begun as many waits as that part
has turns, and what follows in the script does not matter. The only other way is that the memory
gives this error for an answer to the last call before a row is too long, which a memory that
never gives it excludes.

A wait that runs out of time or brings tokens makes the count that was reached before it void. An
interrupted wait is only counted: the books are as before, nothing is taken from the queue, and
nothing but the wait is entered. -/
theorem interrupts_limited (o : Options) (hlimit : o.maxInterrupts < halfWordBound - 1)
    (script : List (Turn π γ)) (w : Worker π γ) :
    (∀ n w', eventLoop o script 0 w = .error (.error (.interruptStorm n)) w' ↔
      (n = o.maxInterrupts + 1 ∧ ∃ turns rest, script = turns ++ rest ∧
        FirstRow (o.maxInterrupts + 1) turns ∧ Through o turns w w') ∨ HandedOn o script w n w') ∧
    (Paging.Unstormed π → ∀ n w', ¬HandedOn o script w n w') ∧
    (∀ turns w', FirstRow (o.maxInterrupts + 1) turns → Through o turns w w' →
      (∀ rest, eventLoop o (turns ++ rest) 0 w =
        .error (.error (.interruptStorm (o.maxInterrupts + 1))) w') ∧
      ∃ es, w'.journal = w.journal ++ es ∧ waits es = turns.length) ∧
    (∀ turn rest k, turn.outcome = .timedOut ∨ (∃ tokens, turn.outcome = .ready tokens) →
      eventLoop o (turn :: rest) k w = eventLoop o (turn :: rest) 0 w) ∧
    ∀ turn rest k, w.phase = .running → turn.outcome = .interrupted → k ≤ o.maxInterrupts →
      eventLoop o (turn :: rest) k w =
        (if k < o.maxInterrupts then eventLoop o rest (k + 1) (w.arrived o.pollTimeout turn)
        else .error (.error (.interruptStorm (o.maxInterrupts + 1)))
          (w.arrived o.pollTimeout turn)) ∧
      (w.arrived o.pollTimeout turn).toDesk = w.toDesk ∧
      (w.arrived o.pollTimeout turn).journal = w.journal ++ [.wait o.pollTimeout] ∧
      (w.arrived o.pollTimeout turn).pages = turn.meanwhile w.pages ∧
      (w.arrived o.pollTimeout turn).client = w.client ∧
      w.exchange.channel.pending <+: (w.arrived o.pollTimeout turn).exchange.channel.pending := by
  refine ⟨fun n w' => eventLoop_storms_iff hlimit script,
    fun hmemory n w' => not_handedOn hmemory script,
    fun turns w' hrow hthrough => ⟨fun rest => ?_, hthrough.waited⟩,
    fun turn rest k houtcome => ?_, fun turn rest k hphase hinterrupted hk => ?_⟩
  · exact (eventLoop_storms_iff hlimit _).mpr (.inl ⟨rfl, turns, rest, rfl, hrow, hthrough⟩)
  · by_cases hphase : w.phase = .running
    · rw [eventLoop_cons hphase, eventLoop_cons hphase]
      rcases houtcome with h | ⟨tokens, h⟩ <;> rw [h]
    · rw [eventLoop_over _ hphase, eventLoop_over _ hphase]
  · exact ⟨eventLoop_interrupted hphase hinterrupted hlimit hk, arrived_idle ..⟩

/-- So many interrupted waits. -/
def sampleRow (k : Nat) : List (Turn ScriptedMemory Unit) :=
  List.replicate k { outcome := .interrupted }

/-- With a limit of three, three interrupted waits and a wait without events are borne; the fourth
interrupted wait after that is too much, and what comes behind it is not waited for. The scripted
memory has no part in it. -/
theorem interrupts_limited_sample :
    ({} : Options).maxInterrupts = 3 ∧ 3 < halfWordBound - 1 ∧ Paging.Unstormed ScriptedMemory ∧
      (∃ w', eventLoop {} (sampleRow 3 ++ { outcome := .timedOut } :: sampleRow 4 ++ sampleRow 9) 0
          sampleStart = .error (.error (.interruptStorm 4)) w' ∧
        ∃ es, w'.journal = sampleStart.journal ++ es ∧ waits es = 8) ∧
      ∀ n w', ¬HandedOn {} (sampleRow 9) sampleStart n w' := by
  obtain ⟨-, hmemory, hlimited, -, -⟩ :=
    interrupts_limited (π := ScriptedMemory) {} (by decide) (sampleRow 9) sampleStart
  set front : List (Turn ScriptedMemory Unit) :=
    sampleRow 3 ++ { outcome := .timedOut } :: sampleRow 3
  have hrows : ∀ earlier, earlier <+: front → rowAfter 0 earlier ≤ 3 := by
    intro earlier hearlier
    rw [List.prefix_iff_eq_take.mp hearlier]
    have hall : ∀ n < 8, rowAfter 0 (front.take n) ≤ 3 := by decide
    exact hall _ (Nat.lt_succ_of_le hearlier.length_le)
  have hrow : FirstRow 4 (front ++ [{ outcome := .interrupted }]) :=
    firstRow_concat.mpr ⟨rfl, by decide, hrows⟩
  obtain ⟨w', hthrough⟩ :
    ∃ w', Through {} (front ++ [{ outcome := .interrupted }]) sampleStart w' :=
    ⟨_, .cons rfl (.interrupted rfl) (.cons rfl (.interrupted rfl)
      (.cons rfl (.interrupted rfl) (.cons rfl (.timedOut rfl rfl)
      (.cons rfl (.interrupted rfl) (.cons rfl (.interrupted rfl)
      (.cons rfl (.interrupted rfl) (.cons rfl (.interrupted rfl) (.nil rfl))))))))⟩
  obtain ⟨hloop, hwaits⟩ := hlimited _ w' hrow hthrough
  exact ⟨rfl, by decide, ScriptedMemory.unstormed, ⟨w', hloop (sampleRow 9), hwaits⟩,
    hmemory ScriptedMemory.unstormed⟩

end Turns
end Worker
end DemandPager
