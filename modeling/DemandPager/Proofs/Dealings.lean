/-
# Requests are served in order

Messages are taken from the queue when the doorbell rings and when a wait runs out of time.
Wherever that is, the messages that are executed are the oldest ones, in the order in which
they were sent, and each is answered before the next is taken. Only a message that asks to
shut down is not executed, and none is taken after it.

The serving goes in paces: a wait, the handling of faults, a ring that is answered, a
request that is executed and answered (`Worker.Pace`). `Worker.Paces` are the paces from one
state to another, with the turns that they used up and the requests that they served; each
request was executed in the very state that the paces before it had led to. What such a
stretch does is told by `Dealt`: what is queued and what is sent meanwhile, that is what was
served and what is left, in this order.

Key definitions: `Service`, `Worker.Outstanding`, `arrivals`, `Worker.Pace`, `Worker.Paces`,
`Dealt`, `Worker.Served`, `Worker.ServedScript`.
Key theorems: `Worker.Paces.trans`, `Dealt.trans`, `Worker.serveMessage_deals`,
`Worker.serveTokens_deals`, `Worker.eventLoop_deals`.
-/
import DemandPager.Proofs.Discretion
import DemandPager.Proofs.Mail

namespace DemandPager

variable {π γ : Type}

/-! ### Services -/

/-- What the result of a request is answered with. -/
def Answer.ofResult : Except PagerError Answer → Answer
  | .ok a => a
  | .error cause => .refused cause

/-- A request that was served: the message that asked for it, and the answer. -/
structure Service (γ : Type) where
  message : Message γ
  ticket : Nat
  answer : Answer
  asks : message.ticket? = some ticket

/-- What a service enters in the journal. -/
def Service.entries (s : Service γ) : List JournalEntry :=
  [.serve s.ticket, .answer s.ticket s.answer]

theorem ticketsOf_services (services : List (Service γ)) :
    ticketsOf (services.map (·.message)) = services.map (·.ticket) := by
  unfold ticketsOf
  rw [List.filterMap_map]
  exact List.filterMap_eq_map_iff_forall_eq_some.mpr fun s _ => s.asks

/-- How many waits were begun. -/
def waits (es : List JournalEntry) : Nat := (es.filter (·.isWait)).length

/-- The turns that the waits used up. -/
def played (script : List (Turn π γ)) (es : List JournalEntry) : List (Turn π γ) :=
  script.take (waits es)

theorem played_wait (turn : Turn π γ) (rest : List (Turn π γ)) (timeout : Nat)
    (es : List JournalEntry) :
    played (turn :: rest) (.wait timeout :: es) = turn :: played rest es := rfl

theorem played_skip (script : List (Turn π γ)) {es : List JournalEntry}
    (hes : es.filter (·.isWait) = []) (es' : List JournalEntry) :
    played script (es ++ es') = played script es' := by
  unfold played waits
  rw [List.filter_append, hes, List.nil_append]

theorem played_over (script : List (Turn π γ)) (es : List JournalEntry) {es' : List JournalEntry}
    (hes' : es'.filter (·.isWait) = []) : played script (es ++ es') = played script es := by
  unfold played waits
  rw [List.filter_append, hes', List.append_nil]

/-- What callers ask for in turns. -/
def requestsIn (turns : List (Turn π γ)) : List (Request γ) := turns.flatMap (·.requests)

theorem requestsIn_append (turns turns' : List (Turn π γ)) :
    requestsIn (turns ++ turns') = requestsIn turns ++ requestsIn turns' := List.flatMap_append

theorem requestsIn_singleton (turn : Turn π γ) : requestsIn [turn] = turn.requests :=
  List.flatMap_singleton ..

/-- What callers ask for before the waits end. -/
def arrivals (script : List (Turn π γ)) (es : List JournalEntry) : List (Request γ) :=
  requestsIn (played script es)

section Paging

variable [Paging π]

/-- What a message asks the worker to do, if it is answered. -/
def Message.execution? : Message γ → Option (WorkerM π γ Answer)
  | .allocate object _ => some do return .placed (← Worker.allocate object)
  | .free id start _ => some do
    Worker.free id start
    return .released
  | .shutdown => none

namespace Worker

omit [Paging π] in
/-- The worker after the oldest message was taken. -/
def popped (w : Worker π γ) (rest : List (Message γ)) : Worker π γ :=
  w.onExchange fun x => { x with channel := { x.channel with pending := rest } }

omit [Paging π] in
/-- The worker when a wait has begun and something has happened. -/
def arrived (w : Worker π γ) (timeout : Nat) (turn : Turn π γ) : Worker π γ :=
  (w.onSite (·.note (.wait timeout))).onSite fun s =>
    { s with pages := turn.meanwhile s.pages }.submitAll turn.requests

/-- One pace of the serving, with the turn that it uses up and the request that it serves. -/
inductive Pace : List (Turn π γ) → List (Service γ) → Worker π γ → Worker π γ → Prop
  | waits (w : Worker π γ) (timeout : Nat) (turn : Turn π γ) :
      Pace [turn] [] w (w.arrived timeout turn)
  /-- A wait for which there is no turn. -/
  | waitsInVain (w : Worker π γ) (timeout : Nat) :
      Pace [] [] w (w.onSite (·.note (.wait timeout)))
  | faults {w v : Worker π γ} {result : Except PagerError Unit}
      (hrun : attempt serveFaults w = .ok result v) : Pace [] [] w v
  | hears (w : Worker π γ) :
      Pace [] [] w (w.onExchange fun x => { x with channel := x.channel.answerBell.2 })
  /-- The oldest message is taken and executed, and its ticket gets what came of it. -/
  | serves {w v : Worker π γ} {m : Message γ} {rest : List (Message γ)} {t : Nat}
      {act : WorkerM π γ Answer} {result : Except PagerError Answer}
      (hpending : w.exchange.channel.pending = m :: rest) (hexecution : m.execution? = some act)
      (ht : m.ticket? = some t)
      (hrun : attempt act { w.popped rest with journal := w.journal ++ [.serve t] } =
        .ok result v) :
      Pace [] [⟨m, t, .ofResult result, ht⟩] w { v with
        journal := v.journal ++ [.answer t (.ofResult result)]
        exchange := v.exchange.finish t (.ofResult result) }
  /-- The message that asks to shut down is taken. -/
  | stops {w : Worker π γ} {rest : List (Message γ)}
      (hpending : w.exchange.channel.pending = .shutdown :: rest) :
      Pace [] [] w { w.popped rest with phase := .shuttingDown }

/-- Paces, one after the other. -/
inductive Paces (w : Worker π γ) : List (Turn π γ) → List (Service γ) → Worker π γ → Prop
  | none : Paces w [] [] w
  | snoc {v w' : Worker π γ} {turns turns' : List (Turn π γ)}
      {services services' : List (Service γ)}
      (h : Paces w turns services v) (hpace : Pace turns' services' v w') :
      Paces w (turns ++ turns') (services ++ services') w'

namespace Paces

variable {w v w' : Worker π γ} {turns turns' : List (Turn π γ)}
  {services services' : List (Service γ)}

theorem single (h : Pace turns services w w') : Paces w turns services w' := .snoc .none h

theorem trans (h : Paces w turns services v) (h' : Paces v turns' services' w') :
    Paces w (turns ++ turns') (services ++ services') w' := by
  induction h' with
  | none => simpa using h
  | snoc _ hpace ih =>
    rw [← List.append_assoc, ← List.append_assoc]
    exact .snoc ih hpace

end Paces
end Worker
end Paging

/-- The requests that are queued have tickets of their own, and none was answered. -/
structure Worker.Outstanding (w : Worker π γ) : Prop where
  nodup : (ticketsOf w.exchange.channel.pending).Nodup
  unanswered : ∀ t ∈ ticketsOf w.exchange.channel.pending, w.exchange.completions[t]? = some {}

/-- What callers send has tickets of its own. -/
theorem Worker.Outstanding.sent {w w' : Worker π γ} {requests : List (Request γ)}
    (hw : w.Outstanding) (h : Site.Sent w.toSite w'.toSite requests) : w'.Outstanding := by
  have hnew : ∀ t ∈ ticketsOf w.exchange.channel.pending, t < w.exchange.completions.length :=
    fun t ht => (List.getElem?_eq_some_iff.mp (hw.unanswered t ht)).1
  have htickets : ticketsOf w'.exchange.channel.pending =
      ticketsOf w.exchange.channel.pending ++
        List.range' w.exchange.completions.length (ticketsFor requests) := by
    rw [h.pending, ticketsOf_append, ticketsOf_mail]
  refine ⟨?_, fun t ht => ?_⟩
  · rw [htickets]
    refine List.nodup_append.mpr ⟨hw.nodup, List.nodup_range', fun t ht u hu => ?_⟩
    have hlt := hnew t ht
    have hle := (List.mem_range'_1.mp hu).1
    omega
  · rw [h.completions]
    rw [htickets] at ht
    rcases List.mem_append.mp ht with hold | hfresh
    · rw [List.getElem?_append_left (hnew t hold)]
      exact hw.unanswered t hold
    · have hle := (List.mem_range'_1.mp hfresh).1
      have hlt := (List.mem_range'_1.mp hfresh).2
      rw [List.getElem?_append_right hle, List.getElem?_replicate, if_pos (by omega)]

/-- What callers send leaves the answers that were given. -/
theorem Site.Sent.answerTo {s s' : Site π γ} {requests : List (Request γ)}
    (h : Sent s s' requests) {t : Nat} {a : Answer} (ht : s.exchange.answerTo t = some a) :
    s'.exchange.answerTo t = some a := by
  obtain ⟨c, hc, ha⟩ := Option.bind_eq_some_iff.mp ht
  unfold Exchange.answerTo
  rw [h.completions, List.getElem?_append_left (List.getElem?_eq_some_iff.mp hc).1, hc]
  exact ha

/-- An answer goes to a ticket that waits for it. -/
theorem Exchange.answerTo_finish_of_fresh {x : Exchange γ} {ticket : Nat} {a : Answer}
    (h : x.completions[ticket]? = some {}) : (x.finish ticket a).answerTo ticket = some a := by
  rw [answerTo_finish, h]
  simp [Completion.finish]

/-- An answer that was given stays. -/
theorem Exchange.answerTo_finish_of_some {x : Exchange γ} {ticket t : Nat} {a b : Answer}
    (h : x.answerTo t = some b) : (x.finish ticket a).answerTo t = some b := by
  rw [answerTo_finish]
  unfold answerTo at h
  obtain ⟨c, hc, hb⟩ := Option.bind_eq_some_iff.mp h
  rw [hc]
  by_cases heq : ticket = t
  · simp [heq, Completion.finish, hb]
  · simp [heq, hb]

/-- An answer to one ticket leaves the others waiting. -/
theorem Exchange.completions_finish_of_ne {x : Exchange γ} {ticket t : Nat} {a : Answer}
    (hne : t ≠ ticket) : (x.finish ticket a).completions[t]? = x.completions[t]? := by
  simp [finish, hne.symm]

/-! ### A stretch of the serving -/

section Stretch

variable [Paging π]

/-- Between two states `services` were given, `turns` brought requests, and what is left of the
queue is `left`. -/
structure Dealt (w w' : Worker π γ) (turns : List (Turn π γ)) (services : List (Service γ))
    (left : List (Message γ)) (es : List JournalEntry) : Prop where
  journal : w'.journal = w.journal ++ es
  dealings : es.filter (·.isDealing) = services.flatMap Service.entries
  paces : Worker.Paces w turns services w'
  queue : w.exchange.channel.pending ++
    mail w.gates.length w.exchange.completions.length (requestsIn turns) =
      services.map (·.message) ++ left
  closed : w'.exchange.channel.closed = w.exchange.channel.closed
  gates : w'.gates.length = w.gates.length + gatesFor (requestsIn turns)
  tickets : w'.exchange.completions.length =
    w.exchange.completions.length + ticketsFor (requestsIn turns)
  kept : ∀ t a, w.exchange.answerTo t = some a → w'.exchange.answerTo t = some a
  answered : ∀ s ∈ services, w'.exchange.answerTo s.ticket = some s.answer
  outstanding : w'.Outstanding

namespace Dealt

variable {w v w' : Worker π γ} {turns turns' : List (Turn π γ)}
  {services services' : List (Service γ)} {left : List (Message γ)} {es es' : List JournalEntry}

/-- **One stretch after the other.** -/
theorem trans (h : Dealt w v turns services v.exchange.channel.pending es)
    (h' : Dealt v w' turns' services' left es') :
    Dealt w w' (turns ++ turns') (services ++ services') left (es ++ es') where
  journal := by rw [h'.journal, h.journal, List.append_assoc]
  dealings := by rw [List.filter_append, h.dealings, h'.dealings, List.flatMap_append]
  paces := h.paces.trans h'.paces
  queue := by
    rw [requestsIn_append, mail_append, ← List.append_assoc, h.queue, ← h.gates, ← h.tickets,
      List.append_assoc, h'.queue,
      List.map_append, List.append_assoc]
  closed := h'.closed.trans h.closed
  gates := by rw [h'.gates, h.gates, requestsIn_append, gatesFor_append, Nat.add_assoc]
  tickets := by rw [h'.tickets, h.tickets, requestsIn_append, ticketsFor_append, Nat.add_assoc]
  kept := fun t a ht => h'.kept t a (h.kept t a ht)
  answered := List.forall_mem_append.mpr
    ⟨fun s hs => h'.kept _ _ (h.answered s hs), h'.answered⟩
  outstanding := h'.outstanding

/-- A stretch in which nothing is sent or served. -/
theorem of_eq (hpaces : Worker.Paces w [] [] w') (hjournal : w'.journal = w.journal ++ es)
    (hcalls : es.filter (·.isDealing) = [])
    (hpending : w'.exchange.channel.pending = w.exchange.channel.pending)
    (hclosed : w'.exchange.channel.closed = w.exchange.channel.closed)
    (hcompletions : w'.exchange.completions = w.exchange.completions)
    (hgates : w'.gates.length = w.gates.length) (hw : w.Outstanding) :
    Dealt w w' [] [] w'.exchange.channel.pending es where
  journal := hjournal
  dealings := hcalls
  paces := hpaces
  queue := by rw [hpending]; exact List.append_nil _
  closed := hclosed
  gates := hgates
  tickets := by rw [hcompletions]; rfl
  kept := fun t a ht => by unfold Exchange.answerTo; rw [hcompletions]; exact ht
  answered := fun _ hs => by cases hs
  outstanding := ⟨hpending ▸ hw.nodup, hcompletions ▸ hpending ▸ hw.unanswered⟩

theorem of_discreet (hpaces : Worker.Paces w [] [] w') (h : Discreet w w' es)
    (hw : w.Outstanding) : Dealt w w' [] [] w'.exchange.channel.pending es :=
  of_eq hpaces h.journal h.filter_isDealing (congrArg _ h.channel)
    (congrArg _ h.channel) h.completions
    h.gates hw

/-- What is left of the queue when the worker goes on or stops: the message that asks to
shut down was taken, but not served. -/
def leftAfter : Flow → List (Message γ) → List (Message γ)
  | .proceed, pending => pending
  | .stop, pending => .shutdown :: pending

end Dealt

namespace Worker

variable {w v w' : Worker π γ} {act : WorkerM π γ Answer}

/-- Messages were served, and nothing was waited for meanwhile. -/
def Served (w : Worker π γ) (flow : Flow) (w' : Worker π γ) : Prop :=
  ∃ services es, Dealt w w' [] services (Dealt.leftAfter flow w'.exchange.channel.pending) es ∧
    es.filter (·.isWait) = [] ∧ (flow = .stop → w'.phase ≠ .running)

theorem Served.trans {flow : Flow} (h : Served w .proceed v) (h' : Served v flow w') :
    Served w flow w' := by
  obtain ⟨services, es, hdealt, hwaits, -⟩ := h
  obtain ⟨services', es', hdealt', hwaits', hstop⟩ := h'
  refine ⟨_, _, hdealt.trans hdealt', ?_, hstop⟩
  rw [List.filter_append, hwaits, hwaits']
  rfl

theorem Served.of_discreetly (hpaces : Paces w [] [] w') (h : Discreetly w w')
    (hw : w.Outstanding) : Served w .proceed w' := by
  obtain ⟨es, hes⟩ := h
  exact ⟨[], es, .of_discreet hpaces hes hw, hes.filter_isWait, fun h => by cases h⟩

theorem Served.refl (hw : w.Outstanding) : Served w .proceed w :=
  .of_discreetly .none (refl_of Discreetly w) hw

theorem discreet_execution {m : Message γ} (h : m.execution? = some act) :
    Leads Discreetly act w := by
  cases m with
  | allocate object ticket =>
    cases h
    exact leads_bind (discreet_allocate _) fun _ _ => leads_pure _
  | free id start ticket =>
    cases h
    exact leads_bind (discreet_free ..) fun _ _ => leads_pure _
  | shutdown => cases h

/-- A message that is executed has a ticket. -/
theorem serveMessage_eq {m : Message γ} (h : m.execution? = some act) :
    ∃ t, m.ticket? = some t ∧ serveMessage m = serveRequest t act := by
  cases m with
  | allocate object ticket => cases h; exact ⟨ticket, rfl, rfl⟩
  | free id start ticket => cases h; exact ⟨ticket, rfl, rfl⟩
  | shutdown => cases h

/-- A request was taken, executed and answered. -/
theorem dealt_service {m : Message γ} {rest : List (Message γ)} {t : Nat}
    {result : Except PagerError Answer} {es : List JournalEntry} (hw : w.Outstanding)
    (hpending : w.exchange.channel.pending = m :: rest) (hexecution : m.execution? = some act)
    (ht : m.ticket? = some t)
    (hact : attempt act { w.popped rest with journal := w.journal ++ [.serve t] } = .ok result v)
    (hv : Discreet { w.popped rest with journal := w.journal ++ [.serve t] } v es) :
    Dealt w { v with
        journal := v.journal ++ [.answer t (.ofResult result)]
        exchange := v.exchange.finish t (.ofResult result) } []
      [⟨m, t, .ofResult result, ht⟩] rest ([.serve t] ++ es ++ [.answer t (.ofResult result)]) := by
  have htickets : ticketsOf w.exchange.channel.pending = t :: ticketsOf rest := by
    rw [hpending]
    exact List.filterMap_cons_some ht
  have hnodup := hw.nodup
  rw [htickets, List.nodup_cons] at hnodup
  have hfresh : v.exchange.completions[t]? = some {} := by
    rw [hv.completions]
    exact hw.unanswered t (htickets ▸ List.mem_cons_self)
  have hqueue : v.exchange.channel.pending = rest := by
    rw [hv.channel]
    rfl
  constructor
  case journal =>
    show v.journal ++ _ = _
    rw [hv.journal, List.append_assoc, List.append_assoc, List.append_assoc]
  case dealings =>
    rw [List.filter_append, List.filter_append, hv.filter_isDealing]
    rfl
  case paces => exact .single (.serves hpending hexecution ht hact)
  case queue =>
    rw [hpending]
    exact List.append_nil _
  case closed =>
    show v.exchange.channel.closed = _
    rw [hv.channel]
    rfl
  case gates => exact hv.gates
  case tickets =>
    refine (List.length_modify ..).trans ?_
    rw [hv.completions]
    rfl
  case kept =>
    intro u a hu
    refine Exchange.answerTo_finish_of_some ?_
    unfold Exchange.answerTo
    rw [hv.completions]
    exact hu
  case answered =>
    intro s hs
    rw [List.mem_singleton.mp hs]
    exact Exchange.answerTo_finish_of_fresh hfresh
  case outstanding =>
    refine ⟨hqueue ▸ hnodup.2, fun u hu => ?_⟩
    have hu' : u ∈ ticketsOf rest := hqueue ▸ hu
    have hne : u ≠ t := fun heq => hnodup.1 (heq ▸ hu')
    refine (Exchange.completions_finish_of_ne hne).trans ?_
    rw [hv.completions]
    exact hw.unanswered u (htickets ▸ List.mem_cons_of_mem _ hu')

/-- The message that asks to shut down was taken. -/
theorem dealt_stop {rest : List (Message γ)} (hw : w.Outstanding)
    (hpending : w.exchange.channel.pending = .shutdown :: rest) :
    Dealt w { w.popped rest with phase := .shuttingDown } [] [] (.shutdown :: rest) [] where
  journal := (List.append_nil _).symm
  dealings := rfl
  paces := .single (.stops hpending)
  queue := by rw [hpending]; exact List.append_nil _
  closed := rfl
  gates := rfl
  tickets := rfl
  kept := fun _ _ h => h
  answered := fun _ hs => by cases hs
  outstanding := by
    have htickets : ticketsOf w.exchange.channel.pending = ticketsOf rest := by
      rw [hpending]
      exact List.filterMap_cons_none rfl
    exact ⟨htickets ▸ hw.nodup, fun t ht => hw.unanswered t (htickets ▸ ht)⟩

/-- **A message is taken and served.** Only one that asks to shut down stops the worker. -/
theorem serveMessage_deals {m : Message γ} {rest : List (Message γ)} (hw : w.Outstanding)
    (hpending : w.exchange.channel.pending = m :: rest) :
    Ends (serveMessage m) (w.popped rest) (Served w) fun f _ => ∃ breach, f = .abort breach := by
  cases hexecution : m.execution? (π := π) with
  | none =>
    cases m with
    | allocate => cases hexecution
    | free => cases hexecution
    | shutdown => exact ⟨[], [], dealt_stop hw hpending, rfl, fun _ h => by cases h⟩
  | some act =>
    obtain ⟨t, ht, heq⟩ := serveMessage_eq hexecution
    rw [heq]
    unfold serveRequest
    rw [ends_bind, ends_note, ends_bind]
    have hact := (leads_attempt (discreet_execution hexecution)
      (w := { w.popped rest with journal := w.journal ++ [.serve t] })).exactly
    refine hact.mono ?_ ?_
    · rintro result v ⟨hrun, es, hv⟩
      have hdealt := dealt_service hw hpending hexecution ht hrun hv
      have hqueue : v.exchange.channel.pending = rest := by
        rw [hv.channel]
        rfl
      have hserved : Served w .proceed { v with
          journal := v.journal ++ [.answer t (.ofResult result)]
          exchange := v.exchange.finish t (.ofResult result) } := by
        refine ⟨_, _, hqueue.symm ▸ hdealt, ?_, fun h => by cases h⟩
        rw [List.filter_append, List.filter_append, hv.filter_isWait]
        rfl
      cases result with
      | ok a => exact hserved
      | error cause => exact hserved
    · rintro f v ⟨hrun, -⟩
      exact abort_of_attempt hrun

/-- **Messages are taken and served, one after the other.** -/
theorem serveMessages_deals : ∀ (n : Nat) (w : Worker π γ), w.Outstanding →
    Ends (serveMessages n) w (Served w) fun f _ => ∃ breach, f = .abort breach
  | 0, w, hw => .refl hw
  | n + 1, w, hw => by
    unfold serveMessages nextMessage
    rw [ends_bind, ends_bind, ends_get]
    cases hpending : w.exchange.channel.pending with
    | nil =>
      rw [Channel.next_of_nil hpending]
      exact Served.refl hw
    | cons m rest =>
      rw [Channel.next_of_cons hpending]
      show Ends (serveMessage m >>= _) (w.popped rest) _ _
      rw [ends_bind]
      refine (serveMessage_deals hw hpending).mono ?_ fun _ _ h => h
      intro flow v hv
      cases flow with
      | stop => exact hv
      | proceed =>
        obtain ⟨services, es, hdealt, -, -⟩ := id hv
        exact (serveMessages_deals n v hdealt.outstanding).mono
          (fun _ w' hw' => hv.trans hw') fun _ _ h => h

theorem drainControl_deals (hw : w.Outstanding) :
    Ends drainControl w (Served w) fun f _ => ∃ breach, f = .abort breach :=
  serveMessages_deals _ w hw

/-- What tokens stand for is served; a failure leaves the messages that come after it. -/
theorem serveTokens_deals (bell : Except IoCause Unit) :
    ∀ (tokens : List Nat) (w : Worker π γ), w.Outstanding →
    Ends (serveTokens bell tokens) w (fun _ w' => ∃ flow, Served w flow w')
      fun f w' => ∀ cause, f = .error cause → Served w .proceed w'
  | [], w, hw => ⟨.proceed, .refl hw⟩
  | token :: rest, w, hw => by
    unfold serveTokens
    have hrest : ∀ v, Served w .proceed v → Ends (serveTokens bell rest) v
        (fun _ w' => ∃ flow, Served w flow w')
        fun f w' => ∀ cause, f = .error cause → Served w .proceed w' := by
      intro v hv
      obtain ⟨services, es, hdealt, -, -⟩ := id hv
      refine (serveTokens_deals bell rest v hdealt.outstanding).mono ?_ ?_
      · rintro _ w' ⟨flow, hw'⟩
        exact ⟨flow, hv.trans hw'⟩
      · intro f w' hw' cause hf
        exact hv.trans (hw' cause hf)
    by_cases hfault : token = faultToken
    · rw [if_pos hfault, ends_bind]
      refine (Ends.exactly still_serveFaults.discreet).mono ?_ ?_
      · rintro _ v ⟨hrun, hv⟩
        have hattempt : attempt serveFaults w = .ok (.ok ()) v := by simp only [attempt, hrun]
        exact hrest v (.of_discreetly (.single (.faults hattempt)) hv hw)
      · rintro f v ⟨hrun, hv⟩ cause rfl
        have hattempt : attempt serveFaults w = .ok (.error cause) v := by
          simp only [attempt, hrun]
        exact .of_discreetly (.single (.faults hattempt)) hv hw
    by_cases hcontrol : token = controlToken
    · rw [if_neg hfault, if_pos hcontrol, ends_bind]
      cases bell with
      | error cause => exact fun _ _ => .refl hw
      | ok u =>
        show Ends (drainControl >>= _)
          (w.onExchange fun x => { x with channel := x.channel.answerBell.2 }) _ _
        have hheard : Served w .proceed
            (w.onExchange fun x => { x with channel := x.channel.answerBell.2 }) :=
          ⟨[], [], .of_eq (.single (.hears w)) (List.append_nil _).symm rfl rfl rfl rfl rfl hw, rfl,
            fun h => by cases h⟩
        obtain ⟨services, es, hdealt, -, -⟩ := id hheard
        rw [ends_bind]
        refine (drainControl_deals hdealt.outstanding).mono ?_ ?_
        · intro flow v hv
          cases flow with
          | stop => exact ⟨.stop, hheard.trans hv⟩
          | proceed => exact hrest v (hheard.trans hv)
        · rintro f v ⟨breach, rfl⟩ cause hf
          cases hf
    · rw [if_neg hfault, if_neg hcontrol]
      exact hrest w (.refl hw)

/-! ### The event loop -/

/-- Messages were served while callers sent what the script says. -/
def ServedScript (script : List (Turn π γ)) (w w' : Worker π γ) : Prop :=
  ∃ flow services es, Dealt w w' (played script es) services
    (Dealt.leftAfter flow w'.exchange.channel.pending) es

theorem ServedScript.refl (script : List (Turn π γ)) (hw : w.Outstanding) :
    ServedScript script w w :=
  ⟨.proceed, [], [], .of_discreet .none (.refl w) hw⟩

/-- What callers ask for before a wait ends is sent. -/
theorem dealt_arrived (timeout : Nat) (turn : Turn π γ) (hw : w.Outstanding)
    (hopen : w.exchange.channel.closed = false) :
    Dealt w (w.arrived timeout turn) [turn] []
      (w.arrived timeout turn).exchange.channel.pending [.wait timeout] := by
  set v : Worker π γ := { w with
    journal := w.journal ++ [.wait timeout], pages := turn.meanwhile w.pages }
  have hv : v.Outstanding := ⟨hw.nodup, hw.unanswered⟩
  have hsent : Site.Sent v.toSite (w.arrived timeout turn).toSite (requestsIn [turn]) := by
    rw [requestsIn_singleton]
    exact Site.submitAll_sent (s := v.toSite) _ hopen
  exact {
    journal := hsent.journal
    dealings := rfl
    paces := .single (.waits w timeout turn)
    queue := hsent.pending.symm
    closed := hsent.closed
    gates := hsent.gates
    tickets := hsent.length_completions
    kept := fun t a ht => hsent.answerTo ht
    answered := fun _ hs => by cases hs
    outstanding := hv.sent hsent }

/-- The first wait, and what is served after it. -/
theorem ServedScript.turn {timeout : Nat} {turn : Turn π γ} {flow : Flow} (rest : List (Turn π γ))
    (hw : w.Outstanding) (hopen : w.exchange.channel.closed = false)
    (h : Served (w.arrived timeout turn) flow w') : ServedScript (turn :: rest) w w' := by
  obtain ⟨services, es, hdealt, hwaits, -⟩ := h
  have hplayed : played (turn :: rest) ([.wait timeout] ++ es) = [turn] ++ [] := by
    rw [List.singleton_append, played_wait, ← List.append_nil es, played_skip rest hwaits]
    rfl
  have hall := (dealt_arrived timeout turn hw hopen).trans hdealt
  rw [← hplayed] at hall
  exact ⟨flow, _, _, hall⟩

/-- The first wait, what is served after it, and all the others. -/
theorem ServedScript.cons {timeout : Nat} {turn : Turn π γ} {rest : List (Turn π γ)}
    (hw : w.Outstanding) (hopen : w.exchange.channel.closed = false)
    (h : Served (w.arrived timeout turn) .proceed v) (h' : ServedScript rest v w') :
    ServedScript (turn :: rest) w w' := by
  obtain ⟨services, es, hdealt, hwaits, -⟩ := h
  obtain ⟨flow, services', es', hdealt'⟩ := h'
  have hplayed : played (turn :: rest) ([.wait timeout] ++ es ++ es') =
      [turn] ++ [] ++ played rest es' := by
    rw [List.append_assoc, List.singleton_append, played_wait, played_skip rest hwaits]
    rfl
  have hall := ((dealt_arrived timeout turn hw hopen).trans hdealt).trans hdealt'
  rw [← hplayed] at hall
  exact ⟨flow, _, _, hall⟩

omit [Paging π] in
theorem ends_bearInterrupt {o : Options} {interrupts : Nat} {post : Nat → Worker π γ → Prop}
    {fail : Failure → Worker π γ → Prop} (hpost : ∀ n, post n w) (hfail : ∀ f, fail f w) :
    Ends (bearInterrupt o interrupts) w post fail := by
  unfold bearInterrupt
  rw [ends_bind, ends_ensure]
  refine ⟨fun _ => ?_, fun _ => hfail _⟩
  split
  · exact hfail _
  · exact hpost _

/-- **Whatever the waits bring, messages are served in order.** -/
theorem eventLoop_deals (o : Options) : ∀ (script : List (Turn π γ)) (interrupts : Nat)
    (w : Worker π γ), w.Outstanding → w.exchange.channel.closed = false →
    Ends (eventLoop o script interrupts) w (fun _ => ServedScript script w)
      fun f w' => ∀ cause, f = .error cause → ServedScript script w w' := by
  intro script
  induction script with
  | nil =>
    intro interrupts w hw hopen
    unfold eventLoop
    rw [ends_bind, ends_get]
    split
    · rw [ends_bind, ends_note]
      exact fun _ _ => ⟨.proceed, [], [.wait o.pollTimeout],
        .of_eq (.single (.waitsInVain w _)) rfl rfl rfl rfl rfl rfl hw⟩
    · exact .refl [] hw
  | cons turn rest ih =>
    intro interrupts w hw hopen
    unfold eventLoop
    rw [ends_bind, ends_get]
    split
    · rw [ends_bind, ends_note, ends_bind]
      show Ends _ (w.arrived o.pollTimeout turn) _ _
      have harrived := dealt_arrived o.pollTimeout turn hw hopen
      have hnone := Served.refl harrived.outstanding
      have hnext : ∀ (interrupts : Nat) (v : Worker π γ),
          Served (w.arrived o.pollTimeout turn) .proceed v →
          Ends (eventLoop o rest interrupts) v (fun _ => ServedScript (turn :: rest) w)
            fun f w' => ∀ cause, f = .error cause → ServedScript (turn :: rest) w w' := by
        intro interrupts v hv
        obtain ⟨services, es, hdealt, -, -⟩ := id hv
        have hvopen := hdealt.closed.trans (harrived.closed.trans hopen)
        refine (ih interrupts v hdealt.outstanding hvopen).mono ?_ ?_
        · exact fun _ w' hw' => .cons hw hopen hv hw'
        · exact fun f w' hw' cause hf => .cons hw hopen hv (hw' cause hf)
      cases turn.outcome with
      | failed cause => exact fun _ _ => .turn rest hw hopen hnone
      | interrupted =>
        rw [ends_bind]
        exact ends_bearInterrupt (fun n => hnext n _ hnone) fun _ _ _ => .turn rest hw hopen hnone
      | timedOut =>
        rw [ends_bind]
        refine (drainControl_deals harrived.outstanding).mono ?_ ?_
        · intro flow v hv
          cases flow with
          | stop => exact .turn rest hw hopen hv
          | proceed => exact hnext 0 v hv
        · rintro f v ⟨breach, rfl⟩ cause hf
          cases hf
      | ready tokens =>
        rw [ends_bind]
        refine (serveTokens_deals turn.bell tokens _ harrived.outstanding).mono ?_ ?_
        · rintro _ v ⟨flow, hv⟩
          cases flow with
          | proceed => exact hnext 0 v hv
          | stop =>
            -- The worker is asked to stop, so the next wait is not begun.
            obtain ⟨services, es, -, -, hstop⟩ := id hv
            unfold eventLoop
            rw [ends_bind, ends_get, if_neg (hstop rfl)]
            exact .turn rest hw hopen hv
        · exact fun f v hv cause hf => .turn rest hw hopen (hv cause hf)
    · exact .refl _ hw

end Worker
end Stretch
end DemandPager
