/-
# No wakeup is lost

Callers send messages while the worker waits, takes messages and serves them. A submission
has two steps, and anything can happen between them: the message is queued, then the doorbell
is rung for it. The worker takes the rings first and the messages after that, until it finds
the queue empty; a sweep takes the messages and leaves the rings.

In this order no message is forgotten. When the worker is back at its wait and a message is
queued, then the doorbell is readable, or whoever sent the message has yet to ring for it
(`Lobby.Reached.no_lost_wakeup`). A worker that took the messages first and the rings after
that would lose a message that comes between the two.

The steps of a lobby are those of the queue. Made in a row, with nothing between them, the
steps of a submission are `Channel.submit` (`Lobby.play_submit`), and those of the worker do
to the queue what `Worker.answerBell` and `Worker.drainControl` do (`Worker.play_control`,
`Worker.play_sweep`).

Key definitions: `Submission`, `Attention`, `Lobby`, `Lobby.move`, `Lobby.Reached`,
`Lobby.Heard`.
Key theorems: `Lobby.Heard.move`, `Lobby.Reached.no_lost_wakeup`, `Lobby.play_submit`,
`Worker.play_control`, `Worker.play_sweep`.
-/
import DemandPager.Proofs.Discretion

namespace DemandPager

variable {π γ : Type}

/-- What the worker does after a message was served. -/
def Message.flow : Message γ → Flow
  | .shutdown => .stop
  | _ => .proceed

/-- How far a submission is. -/
inductive Submission (γ : Type)
  /-- Nothing was done yet. -/
  | arriving (message : Message γ)
  /-- The message was queued, and the doorbell is to be rung for it. -/
  | queued
  | rung
  | refused (cause : PagerError)

/-- What the worker is at. -/
inductive Attention (γ : Type)
  | waiting
  /-- The wait is over, and no messages are being taken. -/
  | awake
  /-- Messages are taken until none is left. -/
  | emptying
  | serving (message : Message γ)
  /-- No message is served any more. -/
  | over

/-- The queue between callers and the worker. Each message carries the number of its
submission. -/
structure Lobby (γ : Type) where
  channel : Channel (Nat × Message γ) := {}
  submissions : List (Submission γ) := []
  attention : Attention γ := .waiting

namespace Lobby

/-- A step of a caller or of the worker. -/
inductive Choice (γ : Type)
  /-- Somebody begins to send a message. -/
  | arrive (message : Message γ)
  | enqueue (submission : Nat)
  | ring (submission : Nat)
  /-- Somebody closes the queue. -/
  | close
  /-- The wait ends. -/
  | wake
  /-- The worker takes the rings, and then it will take messages. -/
  | answerBell
  /-- The worker will take messages, and leaves the rings. -/
  | sweep
  /-- The worker takes the oldest message, or finds that there is none. -/
  | take
  /-- The message is served. -/
  | finish
  /-- The worker waits again. -/
  | rest
  /-- The worker cannot go on. -/
  | fail
  /-- The teardown takes all messages. -/
  | dismiss

/-- The lobby after a step; the result is missing if the step cannot be made. -/
def move (l : Lobby γ) : Choice γ → Option (Lobby γ)
  | .arrive message => some { l with submissions := l.submissions ++ [.arriving message] }
  | .enqueue i =>
    match l.submissions[i]? with
    | some (.arriving message) =>
      match l.channel.enqueue (i, message) with
      | .ok channel => some { l with channel, submissions := l.submissions.set i .queued }
      | .error cause => some { l with submissions := l.submissions.set i (.refused cause) }
    | _ => none
  | .ring i =>
    match l.submissions[i]? with
    | some .queued =>
      some { l with channel := l.channel.ring.2, submissions := l.submissions.set i .rung }
    | _ => none
  | .close => some { l with channel := l.channel.close }
  | .wake =>
    match l.attention with
    | .waiting => some { l with attention := .awake }
    | _ => none
  | .answerBell =>
    match l.attention with
    | .awake => some { l with channel := l.channel.answerBell.2, attention := .emptying }
    | _ => none
  | .sweep =>
    match l.attention with
    | .awake => some { l with attention := .emptying }
    | _ => none
  | .take =>
    match l.attention, l.channel.next with
    | .emptying, none => some { l with attention := .awake }
    | .emptying, some ((_, message), channel) =>
      some { l with channel, attention := .serving message }
    | _, _ => none
  | .finish =>
    match l.attention with
    | .serving .shutdown => some { l with attention := .over }
    | .serving _ => some { l with attention := .emptying }
    | _ => none
  | .rest =>
    match l.attention with
    | .awake => some { l with attention := .waiting }
    | _ => none
  | .fail => some { l with attention := .over }
  | .dismiss =>
    match l.attention with
    | .over => some { l with channel := l.channel.closeAndDrain.2 }
    | _ => none

/-- The lobby after several steps. -/
def play : List (Choice γ) → Lobby γ → Option (Lobby γ)
  | [], l => some l
  | choice :: rest, l => (l.move choice).bind (play rest)

theorem play_append (choices choices' : List (Choice γ)) (l : Lobby γ) :
    play (choices ++ choices') l = (play choices l).bind (play choices') := by
  induction choices generalizing l with
  | nil => rfl
  | cons choice rest ih =>
    rw [List.cons_append, play, play, Option.bind_assoc]
    congr 1
    funext v
    exact ih v

/-- The lobbies that come about when the worker waits, and nobody has sent anything yet. -/
inductive Reached : Lobby γ → Prop
  | start : Reached {}
  | step {l l' : Lobby γ} {choice : Choice γ} (h : Reached l) (hmove : l.move choice = some l') :
      Reached l'

theorem Reached.play {l l' : Lobby γ} {choices : List (Choice γ)} (h : Reached l)
    (hplay : play choices l = some l') : Reached l' := by
  induction choices generalizing l with
  | nil => cases hplay; exact h
  | cons choice rest ih =>
    obtain ⟨l₁, hmove, hrest⟩ := Option.bind_eq_some_iff.mp hplay
    exact ih (.step h hmove) hrest

/-! ### What is heard -/

end Lobby

/-- Whether the worker is about to take no messages, and will take some again. -/
def Attention.listens : Attention γ → Bool
  | .waiting | .awake => true
  | _ => false

namespace Lobby

variable {l l' : Lobby γ} {i : Nat}

/-- What is queued was sent. While the worker takes no messages, the doorbell is readable or
nobody has rung for what is queued. -/
structure Heard (l : Lobby γ) : Prop where
  sent : ∀ letter ∈ l.channel.pending, l.submissions[letter.1]? = some .queued ∨
    l.submissions[letter.1]? = some .rung
  heard : l.attention.listens → l.channel.bell.readable ∨
    ∀ letter ∈ l.channel.pending, l.submissions[letter.1]? = some .queued

/-- The worker takes messages, or is over. -/
theorem Heard.busy (h : l.Heard) (hpending : l'.channel.pending ⊆ l.channel.pending)
    (hsubmissions : l'.submissions = l.submissions) (hattention : l'.attention.listens = false) :
    l'.Heard where
  sent := fun letter hletter => hsubmissions ▸ h.sent letter (hpending hletter)
  heard := fun hlistens => by rw [hattention] at hlistens; cases hlistens

/-- The worker listens as before. -/
theorem Heard.listening (h : l.Heard) (hchannel : l'.channel = l.channel)
    (hsubmissions : l'.submissions = l.submissions) (hattention : l.attention.listens) :
    l'.Heard where
  sent := fun letter hletter => hsubmissions ▸ h.sent letter (hchannel ▸ hletter)
  heard := fun _ => by rw [hchannel, hsubmissions]; exact h.heard hattention

theorem Heard.arrive (h : l.Heard) (message : Message γ) :
    ({ l with submissions := l.submissions ++ [.arriving message] } : Lobby γ).Heard := by
  have hold : ∀ (letter : Nat × Message γ) (s : Submission γ), l.submissions[letter.1]? = some s →
      (l.submissions ++ [.arriving message])[letter.1]? = some s := by
    intro letter s hs
    rw [List.getElem?_append_left (List.getElem?_eq_some_iff.mp hs).1, hs]
  refine ⟨fun letter hletter => ?_, fun hlistens => ?_⟩
  · exact (h.sent letter hletter).imp (hold letter _) (hold letter _)
  · exact (h.heard hlistens).imp_right
      fun hall letter hletter => hold letter _ (hall letter hletter)

/-- A submission that has not sent anything has nothing in the queue. -/
theorem Heard.ne_of_arriving {message : Message γ} (h : l.Heard)
    (hi : l.submissions[i]? = some (.arriving message)) :
    ∀ letter ∈ l.channel.pending, i ≠ letter.1 := by
  rintro letter hletter rfl
  rcases h.sent letter hletter with hsent | hsent
  all_goals
    rw [hi] at hsent
    cases hsent

/-- What becomes of a submission that has sent nothing is no matter of the queue. -/
theorem Heard.set {message : Message γ} (h : l.Heard)
    (hi : l.submissions[i]? = some (.arriving message)) (s : Submission γ) :
    ({ l with submissions := l.submissions.set i s } : Lobby γ).Heard := by
  have hothers : ∀ letter ∈ l.channel.pending,
      (l.submissions.set i s)[letter.1]? = l.submissions[letter.1]? :=
    fun letter hletter => List.getElem?_set_ne (h.ne_of_arriving hi letter hletter)
  refine ⟨fun letter hletter => ?_, fun hlistens => ?_⟩
  · exact (hothers letter hletter).symm ▸ h.sent letter hletter
  · refine (h.heard hlistens).imp_right fun hall letter hletter => ?_
    exact (hothers letter hletter).trans (hall letter hletter)

/-- A message whose doorbell is to be rung joins the queue. -/
theorem Heard.join {message : Message γ} (h : l.Heard) (hi : l.submissions[i]? = some .queued) :
    ({ l with channel := { l.channel with
      pending := l.channel.pending ++ [(i, message)] } } : Lobby γ).Heard where
  sent := List.forall_mem_append.mpr
    ⟨h.sent, fun letter hletter => .inl (by rw [List.mem_singleton.mp hletter]; exact hi)⟩
  heard := fun hlistens => (h.heard hlistens).imp_right fun hall => List.forall_mem_append.mpr
    ⟨hall, fun letter hletter => by rw [List.mem_singleton.mp hletter]; exact hi⟩

/-- The doorbell is rung. -/
theorem Heard.ring (h : l.Heard) (hi : l.submissions[i]? = some .queued) :
    ({ l with channel := l.channel.ring.2,
              submissions := l.submissions.set i .rung } : Lobby γ).Heard := by
  refine ⟨fun letter hletter => ?_, fun _ => .inl (EventCounter.readable_notify _)⟩
  by_cases heq : i = letter.1
  · subst heq
    exact .inr (List.getElem?_set_self (List.getElem?_eq_some_iff.mp hi).1)
  · show (l.submissions.set i .rung)[letter.1]? = _ ∨ (l.submissions.set i .rung)[letter.1]? = _
    rw [List.getElem?_set_ne heq]
    exact h.sent letter hletter

theorem Heard.enqueue {message : Message γ} {channel : Channel (Nat × Message γ)} (h : l.Heard)
    (hi : l.submissions[i]? = some (.arriving message))
    (hchannel : l.channel.enqueue (i, message) = .ok channel) :
    ({ l with channel, submissions := l.submissions.set i .queued } : Lobby γ).Heard := by
  unfold Channel.enqueue at hchannel
  split at hchannel
  · cases hchannel
  · cases hchannel
    have hset := List.getElem?_set_self (a := Submission.queued) (List.getElem?_eq_some_iff.mp hi).1
    exact (h.set hi .queued).join hset

/-- The worker finds that there is no message. -/
theorem Heard.foundEmpty (h : l.Heard) (hnext : l.channel.next = none) :
    ({ l with attention := .awake } : Lobby γ).Heard := by
  refine ⟨h.sent, fun _ => .inr fun letter hletter => ?_⟩
  cases hpending : l.channel.pending with
  | nil =>
    rw [hpending] at hletter
    cases hletter
  | cons first rest =>
    rw [Channel.next_of_cons hpending] at hnext
    cases hnext

/-- The worker takes a message. -/
theorem Heard.taken {message : Message γ} {channel : Channel (Nat × Message γ)} (h : l.Heard)
    (hnext : l.channel.next = some ((i, message), channel)) :
    ({ l with channel, attention := .serving message } : Lobby γ).Heard := by
  refine h.busy ?_ rfl rfl
  cases hpending : l.channel.pending with
  | nil =>
    rw [Channel.next_of_nil hpending] at hnext
    cases hnext
  | cons first rest =>
    rw [Channel.next_of_cons hpending] at hnext
    cases hnext
    exact List.subset_cons_self ..

/-- **Every step keeps what is heard.** The worker takes the rings before it takes messages,
so that a ring that it takes stands for nothing that it leaves behind; and it waits again only
when it has found the queue empty. -/
theorem Heard.move {choice : Choice γ} (h : l.Heard) (hmove : l.move choice = some l') :
    l'.Heard := by
  unfold Lobby.move at hmove
  cases choice with
  | arrive message =>
    cases hmove
    exact h.arrive message
  | enqueue i =>
    dsimp only at hmove
    split at hmove
    · rename_i message hi
      split at hmove
      · rename_i channel hchannel
        cases hmove
        exact h.enqueue hi hchannel
      · cases hmove
        exact h.set hi _
    · cases hmove
  | ring i =>
    dsimp only at hmove
    split at hmove
    · rename_i hi
      cases hmove
      exact h.ring hi
    · cases hmove
  | close =>
    cases hmove
    exact ⟨h.sent, h.heard⟩
  | wake =>
    dsimp only at hmove
    split at hmove
    · rename_i hattention
      cases hmove
      exact h.listening rfl rfl (hattention ▸ rfl)
    · cases hmove
  | answerBell =>
    dsimp only at hmove
    split at hmove
    · cases hmove
      exact h.busy (List.Subset.refl _) rfl rfl
    · cases hmove
  | sweep =>
    dsimp only at hmove
    split at hmove
    · cases hmove
      exact h.busy (List.Subset.refl _) rfl rfl
    · cases hmove
  | take =>
    dsimp only at hmove
    split at hmove
    · rename_i hnext
      cases hmove
      exact h.foundEmpty hnext
    · rename_i hnext
      cases hmove
      exact h.taken hnext
    · cases hmove
  | finish =>
    dsimp only at hmove
    split at hmove
    · cases hmove
      exact h.busy (List.Subset.refl _) rfl rfl
    · cases hmove
      exact h.busy (List.Subset.refl _) rfl rfl
    · cases hmove
  | rest =>
    dsimp only at hmove
    split at hmove
    · rename_i hattention
      cases hmove
      exact h.listening rfl rfl (hattention ▸ rfl)
    · cases hmove
  | fail =>
    cases hmove
    exact h.busy (List.Subset.refl _) rfl rfl
  | dismiss =>
    dsimp only at hmove
    split at hmove
    · rename_i hattention
      cases hmove
      exact h.busy (List.nil_subset _) rfl (hattention ▸ rfl)
    · cases hmove

/-- **No wakeup is lost.** Whatever came between, when the worker is back at its wait the
queue is empty, or the doorbell is readable, or nobody who sent what is queued has rung for it
yet. -/
theorem Reached.no_lost_wakeup (h : Reached l) (hwaiting : l.attention = .waiting) :
    l.channel.pending = [] ∨ l.channel.bell.readable ∨
      ∀ letter ∈ l.channel.pending, l.submissions[letter.1]? = some .queued := by
  have hheard : l.Heard := by
    clear hwaiting
    induction h with
    | start => exact ⟨fun _ h => (by cases h), fun _ => .inr fun _ h => (by cases h)⟩
    | step _ hmove ih => exact ih.move hmove
  exact .inr (hheard.heard (hwaiting ▸ rfl))

/-- The first message is served. Then the second is queued, and the worker is back at its wait
before the doorbell is rung for it. -/
def sampleChoices : List (Choice Unit) :=
  [.arrive (.free 1 0 0), .arrive .shutdown, .enqueue 0, .ring 0, .wake, .answerBell,
    .take, .finish,
    .take, .enqueue 1, .rest]

/-- A message is queued, the doorbell is not readable, and whoever sent the message will ring
for it. -/
theorem no_lost_wakeup_sample : ∃ l : Lobby Unit, play sampleChoices {} = some l ∧
    l.channel.pending.length = 1 ∧ l.channel.bell.readable = false ∧
    ∀ letter ∈ l.channel.pending, l.submissions[letter.1]? = some .queued := by
  refine ⟨_, rfl, rfl, rfl, ?_⟩
  have hreached := Reached.start.play (show play sampleChoices ({} : Lobby Unit) = some _ from rfl)
  rcases hreached.no_lost_wakeup rfl with hempty | hreadable | hqueued
  · cases hempty
  · cases hreadable
  · exact hqueued

/-! ### The steps of a lobby are those of the queue -/

/-- **The two steps of a submission, made in a row, are the submission.** -/
theorem play_submit {message : Message γ} {channel : Channel (Nat × Message γ)}
    (hi : l.submissions[i]? = some (.arriving message)) :
    (l.channel.submit (i, message) = (.ok (), channel) → play [.enqueue i, .ring i] l =
      some { l with channel, submissions := l.submissions.set i .rung }) ∧
    ∀ cause, l.channel.submit (i, message) = (.error cause, channel) → play [.enqueue i] l =
      some { l with channel, submissions := l.submissions.set i (.refused cause) } := by
  have hset := List.getElem?_set_self (a := Submission.queued) (List.getElem?_eq_some_iff.mp hi).1
  unfold Channel.submit
  cases hchannel : l.channel.enqueue (i, message) with
  | ok queue =>
    constructor
    · rintro ⟨⟩
      simp only [play, move, hi, hchannel, hset, Option.bind_some, List.set_set]
      rfl
    · rintro cause ⟨⟩
  | error why =>
    constructor
    · rintro ⟨⟩
    · rintro cause ⟨⟩
      simp only [play, move, hi, hchannel, Option.bind_some]

/-- What the worker is at when the queue was found empty or it was asked to stop. -/
def after : Flow → Attention γ
  | .proceed => .awake
  | .stop => .over

/-- The queue of the lobby is that of the worker. -/
structure Agrees (l : Lobby γ) (w : Worker π γ) : Prop where
  pending : l.channel.pending.map (·.2) = w.exchange.channel.pending
  closed : l.channel.closed = w.exchange.channel.closed
  bell : l.channel.bell = w.exchange.channel.bell

/-- The worker alone took and served messages, and nobody else did anything. -/
def Drained (l : Lobby γ) (flow : Flow) (w : Worker π γ) : Prop :=
  ∃ choices l', (∀ c ∈ choices, c matches .take | .finish) ∧ play choices l = some l' ∧
    l'.Agrees w ∧
    l'.submissions = l.submissions ∧ l'.attention = after flow

end Lobby

namespace Worker

variable [Paging π] {w : Worker π γ}

open Lobby (Agrees Drained)

/-- To serve a message leaves the queue alone. -/
theorem serveMessage_channel (m : Message γ) (w : Worker π γ) :
    Ends (serveMessage m) w
      (fun flow w' => flow = m.flow ∧ w'.exchange.channel = w.exchange.channel)
        fun _ _ => True := by
  have hrequest : ∀ (t : Nat) (act : WorkerM π γ Answer), (∀ v, Leads Discreetly act v) →
      Ends (serveRequest t act) w
        (fun flow w' => flow = .proceed ∧ w'.exchange.channel = w.exchange.channel)
        fun _ _ => True := by
    intro t act hact
    unfold serveRequest
    rw [ends_bind, ends_note, ends_bind]
    refine Ends.mono (leads_attempt (hact _)) ?_ fun _ _ _ => trivial
    rintro result v ⟨es, hv⟩
    cases result with
    | ok a => exact ⟨rfl, hv.channel⟩
    | error cause => exact ⟨rfl, hv.channel⟩
  cases m with
  | allocate object t =>
    exact hrequest t _ fun v => leads_bind (discreet_allocate _) fun _ _ => leads_pure _
  | free id start t =>
    exact hrequest t _ fun v => leads_bind (discreet_free ..) fun _ _ => leads_pure _
  | shutdown => exact ⟨rfl, rfl⟩

/-- Taking and serving messages does to the queue what the steps of the lobby do to it. -/
theorem serveMessages_drained : ∀ (l : Lobby γ) (w : Worker π γ), l.Agrees w →
    l.attention = .emptying →
    Ends (serveMessages l.channel.pending.length) w (l.Drained) fun _ _ => True := by
  intro l
  obtain ⟨⟨pending, closed, bell⟩, submissions, attention⟩ := l
  induction pending with
  | nil =>
    rintro w hagrees ⟨⟩
    exact ⟨[.take], _, by simp, rfl, ⟨hagrees.pending, hagrees.closed, hagrees.bell⟩, rfl, rfl⟩
  | cons letter rest ih =>
    obtain ⟨number, message⟩ := letter
    rintro w hagrees ⟨⟩
    have hpending : w.exchange.channel.pending = message :: rest.map (·.2) := hagrees.pending.symm
    have htaken : ∀ flow, flow = message.flow → Lobby.play [.take, .finish]
        (⟨⟨(number, message) :: rest, closed, bell⟩, submissions, .emptying⟩ : Lobby γ) =
          some ⟨⟨rest, closed, bell⟩, submissions, match flow with
            | .proceed => .emptying
            | .stop => .over⟩ := by
      rintro flow rfl
      cases message <;> rfl
    unfold serveMessages nextMessage
    rw [List.length_cons, ends_bind, ends_bind, ends_get,
      Channel.next_of_cons hpending]
    show Ends (serveMessage message >>= _) (w.onExchange fun x =>
      { x with channel := { w.exchange.channel with pending := rest.map (·.2) } }) _ _
    rw [ends_bind]
    refine (serveMessage_channel message _).mono ?_ fun _ _ _ => trivial
    rintro flow v ⟨hflow, hv⟩
    have hagrees' : ∀ a, (⟨⟨rest, closed, bell⟩, submissions, a⟩ : Lobby γ).Agrees v := fun _ =>
      ⟨congrArg (·.pending) hv.symm, hagrees.closed.trans (congrArg (·.closed) hv.symm),
        hagrees.bell.trans (congrArg (·.bell) hv.symm)⟩
    cases flow with
    | stop => exact ⟨[.take, .finish], _, by simp, htaken _ hflow, hagrees' _, rfl, rfl⟩
    | proceed =>
      refine (ih v (hagrees' _) rfl).mono ?_ fun _ _ h => h
      rintro flow w' ⟨choices, l', hchoices, hplay, hrest⟩
      refine ⟨[.take, .finish] ++ choices, l', ?_, ?_, hrest⟩
      · exact List.forall_mem_append.mpr ⟨by simp, hchoices⟩
      · rw [Lobby.play_append, htaken _ hflow]
        exact hplay

theorem drainControl_drained {l : Lobby γ} (hagrees : l.Agrees w)
    (hattention : l.attention = .emptying) :
    Ends drainControl w (l.Drained) fun _ _ => True := by
  have hlength : l.channel.pending.length = w.exchange.channel.pending.length :=
    (List.length_map ..).symm.trans (congrArg List.length hagrees.pending)
  unfold drainControl
  rw [ends_bind, ends_get, ← hlength]
  exact serveMessages_drained l w hagrees hattention

/-- **The control handling of the worker is its steps, with nothing between them.** -/
theorem play_control {l : Lobby γ} (hagrees : l.Agrees w) (hattention : l.attention = .awake) :
    Ends (answerBell (.ok ()) >>= fun _ => drainControl) w
      (fun flow w' => ∃ l₁, l.move .answerBell = some l₁ ∧ l₁.Drained flow w') fun _ _ => True := by
  obtain ⟨channel, submissions, attention⟩ := l
  cases hattention
  rw [ends_bind]
  show Ends drainControl (w.onExchange fun x => { x with channel := x.channel.answerBell.2 }) _ _
  have hanswered : (⟨channel.answerBell.2, submissions, .emptying⟩ : Lobby γ).Agrees
      (w.onExchange fun x => { x with channel := x.channel.answerBell.2 }) :=
    ⟨hagrees.pending, hagrees.closed, congrArg (fun b => b.drain.2) hagrees.bell⟩
  exact (drainControl_drained hanswered rfl).mono (fun _ _ h => ⟨_, rfl, h⟩) fun _ _ h => h

/-- So is a sweep, which leaves the rings where they are. -/
theorem play_sweep {l : Lobby γ} (hagrees : l.Agrees w) (hattention : l.attention = .awake) :
    Ends drainControl w
      (fun flow w' => ∃ l₁, l.move .sweep = some l₁ ∧ l₁.Drained flow w') fun _ _ => True := by
  obtain ⟨channel, submissions, attention⟩ := l
  cases hattention
  have hswept : (⟨channel, submissions, .emptying⟩ : Lobby γ).Agrees w :=
    ⟨hagrees.pending, hagrees.closed, hagrees.bell⟩
  exact (drainControl_drained hswept rfl).mono (fun _ _ h => ⟨_, rfl, h⟩) fun _ _ h => h

end Worker
end DemandPager
