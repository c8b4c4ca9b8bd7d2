/-
# Every request is answered once

The teardown answers what is still queued and refuses everything from then on. So when the
serving is over, however it came to its end, the messages that were executed are the first
ones that were sent, up to the first that asks to shut down at most. Every other request was
answered by the teardown, and no request was answered twice (`Worker.serve_concludes`). The
paces of the serving lead from the state in which it began to the one in which it winds up,
so what was executed is what the journal and the completions tell of.

Key definitions: `Worker.Dismisses`, `answersIn`, `Concluded`, `Worker.Concludes`.
Key theorems: `Worker.dismissAll_gives`, `Worker.shutdown_dismisses`, `Worker.serve_concludes`.
-/
import DemandPager.Proofs.Closing
import DemandPager.Proofs.Dealings
import DemandPager.Proofs.Sizes

namespace DemandPager

variable {π γ : Type} [Paging π]

namespace Worker

variable {w v w' : Worker π γ}

/-! ### The teardown -/

omit [Paging π] in
/-- Answers were given, and nothing else was done. -/
structure Gave (w w' : Worker π γ) (answers : List (Nat × Answer)) : Prop where
  journal : w'.journal = w.journal ++ answers.map fun x => .answer x.1 x.2
  channel : w'.exchange.channel = w.exchange.channel
  kept : ∀ t a, w.exchange.answerTo t = some a → w'.exchange.answerTo t = some a
  given : ∀ x ∈ answers, w'.exchange.answerTo x.1 = some x.2

omit [Paging π] in
theorem Gave.cons {answers : List (Nat × Answer)} {t : Nat} {a : Answer}
    (hfresh : w.exchange.completions[t]? = some {})
    (h : Gave { w with
      journal := w.journal ++ [.answer t a], exchange := w.exchange.finish t a } w' answers) :
    Gave w w' ((t, a) :: answers) where
  journal := h.journal.trans (List.append_assoc ..)
  channel := h.channel
  kept := fun u b hu => h.kept u b (Exchange.answerTo_finish_of_some hu)
  given := fun x hx => by
    rcases List.mem_cons.mp hx with rfl | hrest
    · exact h.kept _ _ (Exchange.answerTo_finish_of_fresh hfresh)
    · exact h.given x hrest

omit [Paging π] in
/-- Every message that comes too late is answered once, in order. -/
theorem dismissAll_gives : ∀ (messages : List (Message γ)) (w : Worker π γ),
    (ticketsOf messages).Nodup → (∀ t ∈ ticketsOf messages, w.exchange.completions[t]? = some {}) →
    Ends (dismissAll messages) w (fun _ w' => Gave w w' (messages.filterMap Message.dismissal?))
      fun _ _ => False
  | [], w, _, _ => ⟨(List.append_nil _).symm, rfl, fun _ _ h => h, fun _ h => by cases h⟩
  | m :: rest, w, hnodup, hfresh => by
    unfold dismissAll
    rw [ends_bind]
    have hreply : ∀ t a, ticketsOf (m :: rest) = t :: ticketsOf rest →
        Ends (reply t a) w (fun _ v => Ends (dismissAll rest) v
          (fun _ w' => Gave w w' ((t, a) :: rest.filterMap Message.dismissal?)) fun _ _ => False)
          fun _ _ => False := by
      intro t a htickets
      rw [htickets] at hnodup hfresh
      rw [List.nodup_cons] at hnodup
      rw [ends_reply]
      refine (dismissAll_gives rest _ hnodup.2 fun u hu => ?_).mono
        (fun _ w' hw' => .cons (hfresh t List.mem_cons_self) hw') fun _ _ h => h
      have hne : u ≠ t := fun heq => hnodup.1 (heq ▸ hu)
      exact (Exchange.completions_finish_of_ne hne).trans (hfresh u (List.mem_cons_of_mem _ hu))
    cases m with
    | allocate object t => exact hreply t (.refused .shuttingDown) (List.filterMap_cons_some rfl)
    | free id start t => exact hreply t .released (List.filterMap_cons_some rfl)
    | shutdown => exact dismissAll_gives rest w hnodup hfresh

theorem freeAll_aborts : ∀ (entries : List (Interval (Object γ))) (w : Worker π γ),
    Ends (freeAll entries) w (fun _ _ => True) fun f _ => ∃ breach, f = .abort breach
  | [], _ => trivial
  | entry :: rest, w => by
    unfold freeAll
    rw [ends_bind, ends_attempt]
    refine Ends.of_forall (fun _ v => freeAll_aborts rest v) fun f v => ?_
    exact ⟨fun _ _ => freeAll_aborts rest v, fun breach hf => ⟨breach, hf⟩⟩

/-- What is queued was answered by the teardown, and nothing is queued any more. -/
structure Dismisses (w w' : Worker π γ) (es : List JournalEntry) : Prop where
  journal : w'.journal = w.journal ++ es
  dealings : es.filter (·.isDealing) =
    (w.exchange.channel.pending.filterMap Message.dismissal?).map fun x => .answer x.1 x.2
  waits : es.filter (·.isWait) = []
  kept : ∀ t a, w.exchange.answerTo t = some a → w'.exchange.answerTo t = some a
  given : ∀ x ∈ w.exchange.channel.pending.filterMap Message.dismissal?,
    w'.exchange.answerTo x.1 = some x.2
  queue : w'.exchange.channel.pending = []
  closed : w'.exchange.channel.closed = true

/-- **The teardown answers every message that is queued, and refuses all others.** -/
theorem shutdown_dismisses (hw : w.Outstanding) :
    Ends shutdown w (fun _ w' => ∃ es, Dismisses w w' es)
      fun f _ => ∃ breach, f = .abort breach := by
  unfold shutdown
  simp only [ends_bind, ends_modify, ends_get]
  refine (Ends.and (discreet_freeAll ..) (freeAll_aborts ..)).mono ?_ fun _ _ h => h.2
  rintro _ v ⟨⟨es, hv⟩, -⟩
  refine (Ends.and (discreet_abandonAll ..) (abandonAll_ends v.objects.toList _)).mono ?_
    fun _ _ h => h.2.elim
  rintro _ x ⟨⟨es', hx⟩, -⟩
  have hchannel : x.exchange.channel = w.exchange.channel := hx.channel.trans hv.channel
  have hcompletions : x.exchange.completions = w.exchange.completions :=
    hx.completions.trans hv.completions
  have hjournal : x.journal = w.journal ++ es ++ es' :=
    hx.journal.trans (congrArg (· ++ es') hv.journal)
  have hanswer : ∀ t, x.exchange.answerTo t = w.exchange.answerTo t := by
    intro t
    unfold Exchange.answerTo
    rw [hcompletions]
  refine (dismissAll_gives x.exchange.channel.pending _ (hchannel ▸ hw.nodup)
    fun t ht => ?_).mono ?_
    fun _ _ h => h.elim
  · exact hcompletions ▸ hw.unanswered t (hchannel ▸ ht)
  · rintro _ z hz
    rw [hchannel] at hz
    refine ⟨es ++ es' ++ (w.exchange.channel.pending.filterMap Message.dismissal?).map
      fun x => .answer x.1 x.2, ?_, ?_, ?_, fun t a ht => hz.kept t a ?_, hz.given, ?_, ?_⟩
    · refine hz.journal.trans ?_
      show x.journal ++ _ = _
      rw [hjournal, List.append_assoc, List.append_assoc, List.append_assoc]
    · rw [List.filter_append, List.filter_append, hv.filter_isDealing, hx.filter_isDealing]
      exact List.filter_eq_self.mpr fun e he => by
        obtain ⟨y, -, rfl⟩ := List.mem_map.mp he
        rfl
    · rw [List.filter_append, List.filter_append, hv.filter_isWait, hx.filter_isWait]
      exact List.filter_eq_nil_iff.mpr fun e he => by
        obtain ⟨y, -, rfl⟩ := List.mem_map.mp he
        exact Bool.false_ne_true
    · exact (hanswer t).trans ht
    · exact congrArg _ hz.channel
    · exact congrArg _ hz.channel

theorem windUp_dismisses {forgotten : Except PagerError Unit} (hw : w.Outstanding) :
    Ends (windUp forgotten) w (fun _ w' => ∃ es, Dismisses w w' es)
      fun f _ => ∃ breach, f = .abort breach := by
  unfold windUp
  rw [ends_bind, ends_note]
  have hforgotten : ({ w with journal := w.journal ++ [.forget faultToken forgotten] } :
      Worker π γ).Outstanding := ⟨hw.nodup, hw.unanswered⟩
  refine (shutdown_dismisses hforgotten).mono ?_ fun _ _ h => h
  rintro _ z ⟨es, hz⟩
  exact ⟨.forget faultToken forgotten :: es, hz.journal.trans (List.append_assoc ..), hz.dealings,
    hz.waits, hz.kept, hz.given, hz.queue, hz.closed⟩

end Worker

/-! ### What became of the requests -/

/-- The answer that an entry tells of, and its ticket. -/
def JournalEntry.answered? : JournalEntry → Option (Nat × Answer)
  | .answer t a => some (t, a)
  | _ => none

/-- The answers that entries tell of. -/
def answersIn (es : List JournalEntry) : List (Nat × Answer) := es.filterMap JournalEntry.answered?

omit [Paging π] in
/-- Only dealings are answers. -/
theorem answersIn_filter (es : List JournalEntry) :
    answersIn (es.filter (·.isDealing)) = answersIn es := by
  unfold answersIn
  rw [List.filterMap_filter]
  congr 1
  funext e
  cases e <;> rfl

omit [Paging π] in
theorem answersIn_map (answers : List (Nat × Answer)) :
    answersIn (answers.map fun x => .answer x.1 x.2) = answers := by
  unfold answersIn
  rw [List.filterMap_map]
  exact List.filterMap_some

omit [Paging π] in
theorem answersIn_services (services : List (Service γ)) :
    answersIn (services.flatMap Service.entries) = services.map fun s => (s.ticket, s.answer) := by
  induction services with
  | nil => rfl
  | cons s rest ih =>
    rw [List.flatMap_cons, answersIn, List.filterMap_append]
    exact congrArg ((s.ticket, s.answer) :: ·) ih

omit [Paging π] in
/-- A key of its own is found once. -/
theorem filter_of_nodup {answers : List (Nat × Answer)} {t : Nat} {a : Answer}
    (hnodup : (answers.map (·.1)).Nodup) (hmem : (t, a) ∈ answers) :
    answers.filter (·.1 = t) = [(t, a)] := by
  induction answers with
  | nil => cases hmem
  | cons x rest ih =>
    rw [List.map_cons, List.nodup_cons] at hnodup
    rcases List.mem_cons.mp hmem with rfl | hrest
    · have hnone : rest.filter (·.1 = t) = [] := by
        refine List.filter_eq_nil_iff.mpr fun y hy heq => hnodup.1 ?_
        exact List.mem_map.mpr ⟨y, hy, of_decide_eq_true heq⟩
      rw [List.filter_cons_of_pos (by simp), hnone]
    · have hne : x.1 ≠ t := fun heq => hnodup.1 (List.mem_map.mpr ⟨(t, a), hrest, heq.symm⟩)
      rw [List.filter_cons_of_neg (by simpa using hne), ih hnodup.2 hrest]

omit [Paging π] in
theorem map_fst_dismissals (messages : List (Message γ)) :
    (messages.filterMap Message.dismissal?).map (·.1) = ticketsOf messages := by
  unfold ticketsOf
  rw [List.map_filterMap]
  congr 1
  funext m
  cases m <;> rfl

/-- What became of the messages that were sent, once the serving is over. -/
structure Concluded (forgotten : Except PagerError Unit) (w w' : Worker π γ)
    (turns : List (Turn π γ)) (sent : List (Message γ)) (services : List (Service γ))
    (late : List (Message γ)) (es : List JournalEntry) : Prop where
  journal : w'.journal = w.journal ++ es
  /-- The messages that were executed are the first ones, in order. A message that asks to
  shut down is not among them. -/
  order : sent = services.map (·.message) ++ late
  /-- The paces of the serving use up the turns and execute these messages and no others, each
  in the state that the paces before it led to; then the worker winds up. -/
  paces : ∃ v, Worker.Paces w turns services v ∧ Worker.windUp forgotten v = .ok () w'
  /-- One request after the other was served; then the late ones were answered: there is no
  new object any more, and an object that is to be released is gone. -/
  dealings : es.filter (·.isDealing) = services.flatMap Service.entries ++
    (late.filterMap Message.dismissal?).map fun x => .answer x.1 x.2
  /-- Every request was answered once, and its completion holds the answer. -/
  once : ∀ m ∈ sent, ∀ t, m.ticket? = some t → ∃ a,
    (answersIn es).filter (·.1 = t) = [(t, a)] ∧ w'.exchange.answerTo t = some a
  queue : w'.exchange.channel.pending = []
  /-- Whatever is asked for later is refused, and the queue stays as it is. -/
  refuses : ∀ (requests : List (Request γ)) (r : Request γ),
    ((w'.toSite.submitAll requests).submit r).1 = .error .shuttingDown ∧
      ((w'.toSite.submitAll requests).submit r).2.exchange.channel = w'.exchange.channel

namespace Worker

variable {w v w' : Worker π γ}

/-- A teardown after a stretch of the serving concludes it. -/
theorem concluded_of_dismisses {forgotten : Except PagerError Unit} {turns : List (Turn π γ)}
    {services : List (Service γ)} {flow : Flow} {es es' : List JournalEntry}
    {sent : List (Message γ)}
    (h : Dealt w v turns services (Dealt.leftAfter flow v.exchange.channel.pending) es)
    (hsent : w.exchange.channel.pending ++
      mail w.gates.length w.exchange.completions.length (requestsIn turns) = sent)
    (hnodup : (ticketsOf sent).Nodup) (hrun : windUp forgotten v = .ok () w')
    (h' : Dismisses v w' es') :
    Concluded forgotten w w' turns sent services
      (Dealt.leftAfter flow v.exchange.channel.pending) (es ++ es') := by
  set late := Dealt.leftAfter flow v.exchange.channel.pending with hlate
  have horder : sent = services.map (·.message) ++ late := hsent.symm.trans h.queue
  have hdismissals : late.filterMap Message.dismissal? =
      v.exchange.channel.pending.filterMap Message.dismissal? := by
    rw [hlate]
    cases flow <;> rfl
  have hdealings : (es ++ es').filter (·.isDealing) = services.flatMap Service.entries ++
      (late.filterMap Message.dismissal?).map fun x => .answer x.1 x.2 := by
    rw [List.filter_append, h.dealings, h'.dealings, hdismissals]
  have hanswers : answersIn (es ++ es') = (services.map fun s => (s.ticket, s.answer)) ++
      late.filterMap Message.dismissal? := by
    rw [← answersIn_filter, hdealings, answersIn, List.filterMap_append]
    exact congrArg₂ (· ++ ·) (answersIn_services services) (answersIn_map _)
  have hkeys : ((answersIn (es ++ es')).map (·.1)).Nodup := by
    have htickets : ticketsOf sent = services.map (·.ticket) ++ ticketsOf late := by
      rw [horder, ticketsOf_append, ticketsOf_services]
    rw [hanswers, List.map_append, List.map_map, map_fst_dismissals]
    exact htickets ▸ hnodup
  refine ⟨?_, horder, ⟨v, h.paces, hrun⟩, hdealings, ?_, h'.queue, ?_⟩
  · rw [h'.journal, h.journal, List.append_assoc]
  · intro m hm t ht
    rw [horder] at hm
    rcases List.mem_append.mp hm with hserved | hleft
    · obtain ⟨s, hs, rfl⟩ := List.mem_map.mp hserved
      have hticket : s.ticket = t := Option.some.inj (s.asks.symm.trans ht)
      refine ⟨s.answer, filter_of_nodup hkeys ?_, hticket ▸ h'.kept _ _ (h.answered s hs)⟩
      rw [hanswers, ← hticket]
      exact List.mem_append_left _ (List.mem_map.mpr ⟨s, hs, rfl⟩)
    · obtain ⟨a, ha⟩ : ∃ a, m.dismissal? = some (t, a) := by
        cases m with
        | allocate => cases ht; exact ⟨_, rfl⟩
        | free => cases ht; exact ⟨_, rfl⟩
        | shutdown => cases ht
      have hmem : (t, a) ∈ late.filterMap Message.dismissal? :=
        List.mem_filterMap.mpr ⟨m, hleft, ha⟩
      refine ⟨a, filter_of_nodup hkeys ?_, h'.given _ (hdismissals ▸ hmem)⟩
      rw [hanswers]
      exact List.mem_append_right _ hmem
  · intro requests r
    have hclosed := Site.submitAll_closed requests (s := w'.toSite) h'.closed
    have hrefused := Site.submit_closed (s := w'.toSite.submitAll requests)
      (hclosed ▸ h'.closed) r
    exact ⟨hrefused.1, hrefused.2.trans hclosed⟩

/-- The serving is concluded, from the requests that were queued before it. -/
def Concludes (forgotten : Except PagerError Unit) (script : List (Turn π γ))
    (before : List (Request γ)) (w w' : Worker π γ) : Prop :=
  ∃ services late es, Concluded forgotten (w.onSite (·.submitAll before)) w' (played script es)
    (mail w.gates.length w.exchange.completions.length (before ++ arrivals script es))
    services late es

/-- **After a stretch of the serving the teardown concludes it**, whatever is answered to
those who wait for the worker. -/
theorem windUp_concludes {forgotten : Except PagerError Unit} {script : List (Turn π γ)}
    {before : List (Request γ)} (hopen : w.exchange.channel.closed = false)
    (hempty : w.exchange.channel.pending = [])
    (h : ServedScript script (w.onSite (·.submitAll before)) v) (outcome : Except PagerError Unit) :
    Ends (windUp forgotten >>= fun _ => settle outcome) v
      (fun _ => Concludes forgotten script before w)
      fun f w' => ∀ cause, f = .error cause → Concludes forgotten script before w w' := by
  obtain ⟨flow, services, es, hdealt⟩ := h
  rw [ends_bind]
  refine (windUp_dismisses hdealt.outstanding).exactly.mono ?_ ?_
  · rintro _ z ⟨hrun, es', hz⟩
    have hover := played_over script es hz.waits
    have hnodup : (ticketsOf (mail w.gates.length w.exchange.completions.length
        (before ++ arrivals script (es ++ es')))).Nodup := by
      rw [ticketsOf_mail]
      exact List.nodup_range'
    have hconcluded : Concludes forgotten script before w z := by
      refine ⟨services, Dealt.leftAfter flow v.exchange.channel.pending, es ++ es', ?_⟩
      rw [hover]
      refine concluded_of_dismisses hdealt ?_ hnodup hrun hz
      rw [arrivals, hover]
      exact (Site.submitAll_sent before hopen).pending_append hempty _
    rw [ends_settle]
    exact ⟨fun _ _ => hconcluded, fun _ _ _ _ => hconcluded⟩
  · rintro f z ⟨-, breach, rfl⟩ cause hf
    cases hf

/-- **Requests are served in order and answered once.** Whatever the waits bring, whatever is
sent before and between them, and however the serving ends, unless it breaks off: an initial
segment of what was sent is executed, in order, and the teardown answers the rest. -/
theorem serve_concludes {o : Options} {script : List (Turn π γ)}
    {forgotten : Except PagerError Unit}
    {before : List (Request γ)} (hopen : w.exchange.channel.closed = false)
    (hempty : w.exchange.channel.pending = [])
    (h : Returns (serve o script forgotten) (w.onSite (·.submitAll before)) w') :
    ∃ services late es, Concluded forgotten (w.onSite (·.submitAll before)) w' (played script es)
      (mail w.gates.length w.exchange.completions.length (before ++ arrivals script es))
      services late es := by
  have hsent : Site.Sent w.toSite (w.onSite (·.submitAll before)).toSite before :=
    Site.submitAll_sent before hopen
  have hw : w.Outstanding :=
    ⟨by rw [hempty]; exact List.nodup_nil, by rw [hempty]; exact fun t ht => by cases ht⟩
  suffices hends : Ends (serve o script forgotten) (w.onSite (·.submitAll before))
      (fun _ => Concludes forgotten script before w)
      fun f z => ∀ cause, f = .error cause → Concludes forgotten script before w z from
    hends.of_returns (P := Concludes forgotten script before w) h
  unfold serve
  rw [ends_bind, ends_attempt]
  refine (eventLoop_deals o script 0 _ (hw.sent hsent) (hsent.closed.trans hopen)).mono ?_ ?_
  · exact fun _ v hv => windUp_concludes hopen hempty hv _
  · intro f v hv
    refine ⟨fun cause hf => windUp_concludes hopen hempty (hv cause hf) _, ?_⟩
    rintro breach hf cause hf'
    rw [hf] at hf'
    cases hf'

/-- An object is created, and one that does not exist is released. -/
def sampleBefore : List (Request Unit) :=
  [.allocate { id := 1, geometry := sampleObject.geometry, callbacks := sampleObject.callbacks },
    .free 9 0]

/-- The first wait ends with a ring of the doorbell; the worker is asked to stop, and then to
release the object. -/
def sampleScript : List (Turn ScriptedMemory Unit) :=
  [{ requests := [.shutdown, .free 1 0x10000000], outcome := .ready [controlToken] }]

/-- Two requests are executed; the third comes too late, and the teardown answers it. -/
theorem serve_concludes_sample :
    (∃ services late es, Concluded (.ok ()) (sampleStart.onSite (·.submitAll sampleBefore))
      (after (serve {} sampleScript (.ok ())) (sampleStart.onSite (·.submitAll sampleBefore)))
      (played sampleScript es)
      (mail 0 0 (sampleBefore ++ arrivals sampleScript es)) services late es) ∧
    answersIn (after (serve {} sampleScript (.ok ()))
      (sampleStart.onSite (·.submitAll sampleBefore))).journal =
        [(0, .placed 0x10000000), (1, .refused (.unknownAddress 0)), (2, .released)] := by
  have hserve : Returns (serve {} sampleScript (.ok ()))
      (sampleStart.onSite (·.submitAll sampleBefore)) (after (serve {} sampleScript (.ok ()))
        (sampleStart.onSite (·.submitAll sampleBefore))) :=
    .inl (eq_ok_of_ending (by decide +kernel))
  exact ⟨serve_concludes rfl rfl hserve, by decide +kernel⟩

end Worker
end DemandPager
