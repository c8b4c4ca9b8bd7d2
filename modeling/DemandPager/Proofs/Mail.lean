/-
# What callers send

While the queue is open every request is queued, whether its ring is heard or not
(`Site.submit_queued`). It becomes a message, which is known from the requests before it: a new
object gets the next gate, and a request that is to be answered gets the next ticket (`mail`). So
the tickets of what callers send count upwards, and none is used twice (`ticketsOf_mail`). Once the
queue is closed nothing is queued any more (`Site.submit_closed`).

Key definitions: `Request.message`, `mail`, `ticketsOf`, `Site.Sent`.
Key theorems: `Site.submit_queued`, `Site.submitAll_sent`, `ticketsOf_mail`,
`Site.submit_closed`, `Site.submitAll_closed`.
-/
import Mathlib.Data.List.Range
import DemandPager.Proofs.Teardown

namespace DemandPager

variable {π γ : Type}

namespace Request

/-- The message that a request becomes, with the next gate and the next ticket. -/
def message (gate ticket : Nat) : Request γ → Message γ
  | .allocate d =>
    .allocate { id := d.id, geometry := d.geometry, callbacks := d.callbacks, gate } ticket
  | .free id start => .free id start ticket
  | .shutdown => .shutdown

/-- The gates that a request opens. -/
def gates : Request γ → Nat
  | .allocate _ => 1
  | _ => 0

/-- The tickets that a request takes. -/
def tickets : Request γ → Nat
  | .shutdown => 0
  | _ => 1

theorem ticket?_message (r : Request γ) (gate ticket : Nat) :
    (r.message gate ticket).ticket?.toList = List.range' ticket r.tickets := by
  cases r <;> rfl

end Request

/-- The messages that requests become, one after the other. -/
def mail : (gate ticket : Nat) → List (Request γ) → List (Message γ)
  | _, _, [] => []
  | gate, ticket, r :: rest =>
    r.message gate ticket :: mail (gate + r.gates) (ticket + r.tickets) rest

/-- The tickets of messages. -/
def ticketsOf (messages : List (Message γ)) : List Nat := messages.filterMap Message.ticket?

theorem ticketsOf_append (messages messages' : List (Message γ)) :
    ticketsOf (messages ++ messages') = ticketsOf messages ++ ticketsOf messages' :=
  List.filterMap_append

/-- The gates that requests open. -/
def gatesFor (requests : List (Request γ)) : Nat := (requests.map (·.gates)).sum

/-- The tickets that requests take. -/
def ticketsFor (requests : List (Request γ)) : Nat := (requests.map (·.tickets)).sum

theorem gatesFor_append (requests requests' : List (Request γ)) :
    gatesFor (requests ++ requests') = gatesFor requests + gatesFor requests' := by
  simp only [gatesFor, List.map_append, List.sum_append]

theorem ticketsFor_append (requests requests' : List (Request γ)) :
    ticketsFor (requests ++ requests') = ticketsFor requests + ticketsFor requests' := by
  simp only [ticketsFor, List.map_append, List.sum_append]

theorem mail_append (requests requests' : List (Request γ)) (gate ticket : Nat) :
    mail gate ticket (requests ++ requests') = mail gate ticket requests ++
      mail (gate + gatesFor requests) (ticket + ticketsFor requests) requests' := by
  induction requests generalizing gate ticket with
  | nil => rfl
  | cons r rest ih =>
    simp only [List.cons_append, mail, ih, gatesFor, ticketsFor, List.map_cons, List.sum_cons,
      Nat.add_assoc]

/-- **The tickets of what is sent count upwards from the next one.** -/
theorem ticketsOf_mail (requests : List (Request γ)) (gate ticket : Nat) :
    ticketsOf (mail gate ticket requests) = List.range' ticket (ticketsFor requests) := by
  induction requests generalizing gate ticket with
  | nil => rfl
  | cons r rest ih =>
    have hcons : ticketsOf (mail gate ticket (r :: rest)) =
        (r.message gate ticket).ticket?.toList ++
          ticketsOf (mail (gate + r.gates) (ticket + r.tickets) rest) := by
      unfold ticketsOf
      show (r.message gate ticket :: mail _ _ rest).filterMap Message.ticket? = _
      rw [List.filterMap_cons]
      cases (r.message gate ticket).ticket? <;> rfl
    have hsum : ticketsFor (r :: rest) = r.tickets + ticketsFor rest := List.sum_cons
    rw [hcons, ih, r.ticket?_message, hsum, ← List.range'_append_1]

namespace Exchange

/-- A message is queued, and the doorbell is rung for it. -/
theorem send_open {x : Exchange γ} (hopen : x.channel.closed = false) (m : Message γ) :
    x.send m = (.ok (), { x with channel := { x.channel with
      pending := x.channel.pending ++ [m], bell := x.channel.bell.notify } }) := by
  unfold send Channel.submit Channel.enqueue
  rw [if_neg (Bool.eq_false_iff.mp hopen)]
  rfl

/-- The message is queued whether the doorbell is heard or not. -/
theorem send_queued {x : Exchange γ} (hopen : x.channel.closed = false) (m : Message γ)
    (bell : Except IoCause Unit) : ∃ counter, x.send m bell = (bell.mapError .io,
      { x with channel := { x.channel with
        pending := x.channel.pending ++ [m], bell := counter } }) := by
  cases bell with
  | ok u => exact ⟨_, send_open hopen m⟩
  | error cause =>
    refine ⟨x.channel.bell, ?_⟩
    unfold send
    rw [Channel.submit_unheard hopen]
    rfl

theorem send_closed {x : Exchange γ} (hclosed : x.channel.closed) (m : Message γ) :
    x.send m = (.error .shuttingDown, x) := by
  unfold send Channel.submit Channel.enqueue
  rw [if_pos hclosed]

end Exchange

namespace Site

/-- The requests were accepted, in order, and nothing else was done. -/
structure Sent (s s' : Site π γ) (requests : List (Request γ)) : Prop where
  pending : s'.exchange.channel.pending = s.exchange.channel.pending ++
    mail s.gates.length s.exchange.completions.length requests
  closed : s'.exchange.channel.closed = s.exchange.channel.closed
  gates : s'.gates.length = s.gates.length + gatesFor requests
  completions : s'.exchange.completions =
    s.exchange.completions ++ List.replicate (ticketsFor requests) ({} : Completion Answer)
  journal : s'.journal = s.journal

theorem Sent.refl (s : Site π γ) : Sent s s [] where
  pending := (List.append_nil _).symm
  closed := rfl
  gates := rfl
  completions := (List.append_nil _).symm
  journal := rfl

theorem Sent.length_completions {s s' : Site π γ} {requests : List (Request γ)}
    (h : Sent s s' requests) :
    s'.exchange.completions.length = s.exchange.completions.length + ticketsFor requests := by
  rw [h.completions, List.length_append, List.length_replicate]

theorem Sent.trans {s t s' : Site π γ} {requests requests' : List (Request γ)}
    (h : Sent s t requests) (h' : Sent t s' requests') : Sent s s' (requests ++ requests') := by
  refine ⟨?_, h'.closed.trans h.closed, ?_, ?_, h'.journal.trans h.journal⟩
  · rw [h'.pending, h.pending, h.gates, h.length_completions, mail_append, List.append_assoc]
  · rw [h'.gates, h.gates, gatesFor_append, Nat.add_assoc]
  · rw [h'.completions, h.completions, ticketsFor_append, List.replicate_add, List.append_assoc]

/-- What is queued and what is sent later is sent from the start, if nothing was queued. -/
theorem Sent.pending_append {s s' : Site π γ} {requests : List (Request γ)}
    (h : Sent s s' requests) (hempty : s.exchange.channel.pending = [])
    (later : List (Request γ)) :
    s'.exchange.channel.pending ++ mail s'.gates.length s'.exchange.completions.length later =
      mail s.gates.length s.exchange.completions.length (requests ++ later) := by
  rw [h.pending, hempty, List.nil_append, h.gates, h.length_completions, mail_append]

/-- **While the queue is open a request is queued.** It fails only where the host refuses
the ring, and then it is queued all the same. -/
theorem submit_queued {s : Site π γ} (hopen : s.exchange.channel.closed = false) (r : Request γ)
    (bell : Except IoCause Unit) :
    (s.submit r bell).1 = bell.mapError .io ∧ Sent s (s.submit r bell).2 [r] := by
  cases r with
  | allocate d =>
    obtain ⟨counter, hsend⟩ := Exchange.send_queued (x := s.exchange.openTicket.2) hopen
      (.allocate (s.build d).1 s.exchange.completions.length) bell
    unfold Exchange.openTicket build at hsend
    simp only [submit, Exchange.openTicket, build, hsend]
    exact ⟨trivial, rfl, rfl, List.length_append, rfl, rfl⟩
  | free id start =>
    obtain ⟨counter, hsend⟩ := Exchange.send_queued (x := s.exchange.openTicket.2) hopen
      (.free id start s.exchange.completions.length) bell
    unfold Exchange.openTicket at hsend
    simp only [submit, Exchange.requestFree, Exchange.openTicket, hsend]
    refine ⟨?_, rfl, rfl, rfl, rfl, rfl⟩
    cases bell <;> rfl
  | shutdown =>
    obtain ⟨counter, hsend⟩ := Exchange.send_queued hopen (.shutdown : Message γ) bell
    simp only [submit, hsend]
    exact ⟨trivial, rfl, rfl, rfl, (List.append_nil _).symm, rfl⟩

theorem submit_sent {s : Site π γ} (hopen : s.exchange.channel.closed = false) (r : Request γ) :
    (s.submit r).1 = .ok () ∧ Sent s (s.submit r).2 [r] :=
  submit_queued hopen r (.ok ())

theorem submitAll_sent (requests : List (Request γ)) :
    ∀ {s : Site π γ}, s.exchange.channel.closed = false →
      Sent s (s.submitAll requests) requests := by
  induction requests with
  | nil => exact fun _ => Sent.refl _
  | cons r rest ih =>
    intro s hopen
    have hfirst := (submit_sent hopen r).2
    exact hfirst.trans (ih (hfirst.closed.trans hopen))

/-- **Once the queue is closed a request is refused and the queue stays as it is.** -/
theorem submit_closed {s : Site π γ} (hclosed : s.exchange.channel.closed) (r : Request γ) :
    (s.submit r).1 = .error .shuttingDown ∧
      (s.submit r).2.exchange.channel = s.exchange.channel := by
  have hsend := Exchange.send_closed (x := s.exchange.openTicket.2) hclosed
  unfold Exchange.openTicket at hsend
  cases r with
  | allocate d =>
    simp only [submit, Exchange.openTicket, build, hsend]
    trivial
  | free id start =>
    simp only [submit, Exchange.requestFree, Exchange.openTicket, hsend]
    trivial
  | shutdown =>
    simp only [submit, Exchange.send_closed hclosed]
    trivial

theorem submitAll_closed (requests : List (Request γ)) :
    ∀ {s : Site π γ}, s.exchange.channel.closed →
      (s.submitAll requests).exchange.channel = s.exchange.channel := by
  induction requests with
  | nil => exact fun _ => rfl
  | cons r rest ih =>
    intro s hclosed
    have hfirst := (submit_closed hclosed r).2
    exact (ih (hfirst ▸ hclosed)).trans hfirst

/-- **Once the queue is closed there is nothing to wait for** when an object is released. -/
theorem beginDestroy_closed {s : Site π γ} (hclosed : s.exchange.channel.closed) (h : Handle)
    (attached : Bool) : (s.beginDestroy h attached).1 = .settled := by
  have hchannel : (s.exchange.unindex h.start).2.channel = s.exchange.channel := by
    unfold Exchange.unindex
    split <;> rfl
  have hrefused : ∀ x : Exchange γ, x.channel = s.exchange.channel →
      (x.requestFree h.id h.start).1 = .error .shuttingDown := by
    intro x hx
    have hsend := Exchange.send_closed (x := x.openTicket.2) (hx ▸ hclosed)
    unfold Exchange.openTicket at hsend
    simp only [Exchange.requestFree, Exchange.openTicket, hsend]
    rfl
  unfold beginDestroy
  split
  · rfl
  · dsimp only
    split
    · rfl
    · have hrequest := hrefused _ hchannel
      split
      · rename_i heq
        rw [show (s.modifyGate h.gate Gate.retire).exchange = s.exchange from rfl] at heq
        rw [heq] at hrequest
        cases hrequest
      · rfl
      · rename_i cause exchange hcause heq
        exact absurd (Exchange.requestFree_error heq) hcause

end Site
end DemandPager
