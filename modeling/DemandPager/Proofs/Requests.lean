/-
# Requests and the calls that wait for them

A release is in flight from the moment at which it retires the gate until it revives it or
ends. There is at most one for each gate, and the gate is not alive meanwhile
(`Floor.Reaches.alone`). A request that was not answered has a release in flight that waits
for the answer (`Floor.Asks`). Its ticket is its own, so the call that sends the next
request disturbs nobody (`Floor.Asks.advanced`).

Key definitions: `Call.inFlight`, `Floor.Alone`, `Call.Submits`, `Floor.asked`, `Floor.Asks`.
Key theorems: `Floor.Reaches.alone`, `Call.Step.submits`, `Floor.Asks.advanced`.
-/
import DemandPager.Proofs.Gates

namespace DemandPager

variable {π γ : Type}

/-! ### Releases in flight -/

/-- The gate was retired by the call, and the call is not done. -/
def Call.inFlight (c : Call) : Bool :=
  match c.progress with
  | .retired | .unindexed _ | .waiting .. | .refused .. => true
  | _ => false

theorem Call.inFlight_begin (h : Handle) (intent : Intent) : (begin h intent).inFlight = false := by
  rcases begin_eq h intent with ⟨_, heq⟩ | ⟨_, heq⟩ | heq
  all_goals
    rw [heq]
    rfl

section Steps

variable [Bytewise π] {number n : Nat} {gone held : Bool} {h : Handle} {s s' : Site π γ}
  {before after : Progress} {events : List Event}

/-- A release that is in flight after a step was so before, or it has found the gate alive
and has retired it. -/
theorem Call.Step.inFlight (hstep : Step number gone held h s before after s' events)
    (hafter : (⟨h, after⟩ : Call).inFlight) : (⟨h, before⟩ : Call).inFlight ∨
      (s.gate h.gate).alive = true ∧ Dead h.gate s'.gates := by
  cases hstep with
  | retires hfree halive => exact .inr ⟨halive, Dead.of_retire⟩
  | unindexes => exact .inl rfl
  | requests => exact .inl rfl
  | isRefused => exact .inl rfl
  | _ => cases hafter

/-- A release that revives a gate was in flight, and is not any more. -/
theorem Call.Step.revived_mem (hstep : Step number gone held h s before after s' events)
    {call : Nat}
    (hmem : .revived call n ∈ events) :
    h.gate = n ∧ (⟨h, before⟩ : Call).inFlight ∧ (⟨h, after⟩ : Call).inFlight = false := by
  cases hstep with
  | revives =>
    cases List.mem_singleton.mp hmem
    exact ⟨rfl, rfl, rfl⟩
  | copied => cases List.mem_singleton.mp hmem
  | stores => cases List.mem_singleton.mp hmem
  | _ => cases hmem

end Steps

namespace Floor

variable [Paging π] [Bytewise π] {f f' f₀ : Floor π γ}

omit [Paging π] [Bytewise π] in
/-- There is at most one release in flight for each gate, and the gate is not alive. -/
structure Alone (f : Floor π γ) : Prop where
  single : ∀ (c c' : Nat) (call call' : Call), f.calls[c]? = some call → f.calls[c']? = some call' →
    call.inFlight → call'.inFlight → call.handle.gate = call'.handle.gate → c = c'
  dead : ∀ (c : Nat) (call : Call), f.calls[c]? = some call → call.inFlight →
    Dead call.handle.gate f.worker.gates

omit [Paging π] [Bytewise π] in
/-- The calls in flight were in flight, and no gate comes to life. -/
theorem Alone.of_old (hf : f.Alone)
    (hcalls : ∀ (c : Nat) (call : Call), f'.calls[c]? = some call → call.inFlight →
      f.calls[c]? = some call)
    (hdead : ∀ n, Dead n f.worker.gates → Dead n f'.worker.gates) : f'.Alone where
  single := fun c c' call call' hcall hcall' hflight hflight' =>
    hf.single c c' call call' (hcalls c call hcall hflight) (hcalls c' call' hcall' hflight')
      hflight hflight'
  dead := fun c call hcall hflight => hdead _ (hf.dead c call (hcalls c call hcall hflight) hflight)

omit [Paging π] in
theorem Shift.alone (h : Shift f f') (hf : f.Alone) : f'.Alone := by
  have hsame : f'.calls = f.calls → ∀ (c : Nat) (call : Call), f'.calls[c]? = some call →
      call.inFlight → f.calls[c]? = some call := fun heq c call hcall _ => heq ▸ hcall
  cases h with
  | @called h intent hh hcalls hgates hlog =>
    refine hf.of_old (fun c call hcall hflight => ?_) fun n hn => hgates ▸ hn
    rw [hcalls] at hcall
    rcases getElem?_concat_some hcall with ⟨-, hcall⟩ | ⟨-, rfl⟩
    · exact hcall
    · rw [Call.inFlight_begin] at hflight
      cases hflight
  | @advanced c call progress site events hcall hstep hcalls hgates hlog =>
    -- No other release in flight has this gate if the step begins or ends one.
    have hothers : ∀ (k : Nat) (other : Call), k ≠ c → f.calls[k]? = some other → other.inFlight →
        (⟨call.handle, progress⟩ : Call).inFlight → other.handle.gate ≠ call.handle.gate := by
      intro k other hk hother hflight hnew heq
      rcases hstep.inFlight hnew with hold | ⟨halive, -⟩
      · exact hk (hf.single k c other call hother hcall hflight hold heq)
      · rw [← heq, (hf.dead k other hother hflight).gate] at halive
        cases halive
    refine ⟨fun k k' a b ha hb hflight hflight' heq => ?_, fun k a ha hflight => ?_⟩
    · rw [hcalls] at ha hb
      rcases getElem?_set_some ha with ⟨rfl, rfl⟩ | ⟨hk, hold⟩
      · rcases getElem?_set_some hb with ⟨rfl, -⟩ | ⟨hk', hold'⟩
        · rfl
        · exact absurd heq.symm (hothers k' b hk' hold' hflight' hflight)
      · rcases getElem?_set_some hb with ⟨rfl, rfl⟩ | ⟨hk', hold'⟩
        · exact absurd heq (hothers k a hk hold hflight hflight')
        · exact hf.single k k' a b hold hold' hflight hflight' heq
    · rw [hgates]
      rw [hcalls] at ha
      rcases getElem?_set_some ha with ⟨rfl, rfl⟩ | ⟨hk, ha⟩
      · rcases hstep.inFlight hflight with hold | ⟨-, hdead⟩
        · refine hstep.dead (fun n hmem => ?_) (hf.dead k call hcall hold)
          rw [(hstep.revived_mem hmem).2.2] at hflight
          cases hflight
        · exact hdead
      · refine hstep.dead (fun n hmem => ?_) (hf.dead k a ha hflight)
        obtain ⟨hgate, hold, -⟩ := hstep.revived_mem hmem
        exact hk (hf.single k c a call ha hcall hflight hold hgate.symm)
  | retired hcalls hgates hlog => exact hf.of_old (hsame hcalls) fun n hn => hgates ▸ hn.retire _
  | noted hcalls hgates hlog => exact hf.of_old (hsame hcalls) fun n hn => hgates ▸ hn
  | turned hfree hcalls hgates hlog =>
    exact hf.of_old (hsame hcalls) fun n hn => hgates ▸ hn.turn _ _

/-- **There is at most one release in flight for each gate, and the gate is not alive.** -/
theorem Reaches.alone (h : Reaches f₀ f) (h₀ : f₀.Opens) : f.Alone := by
  induction h with
  | refl =>
    have hnone : ∀ (c : Nat) (call : Call), f₀.calls[c]? = some call → False := by
      intro c call hcall
      rw [h₀.calls] at hcall
      cases hcall
    exact ⟨fun c _ call _ hcall => (hnone c call hcall).elim,
      fun c call hcall => (hnone c call hcall).elim⟩
  | step hreach hmove ih => exact ((next_of_move hmove).shift (hreach.attends h₀)).alone ih

end Floor

/-! ### Requests -/

/-- The object and the ticket of a request to release an object. -/
def Message.request? : Message γ → Option (Nat × Nat)
  | .free _ start ticket => some (start, ticket)
  | _ => none

/-- The request that is served, until it is answered. -/
def Duty.serving : Duty π γ → Option (Nat × Nat)
  | .busy (.serve message) (.part ..) | .busy (.serve message) (.turn ..) => message.request?
  | _ => none

/-- A call waits for the answer to a request. -/
def Call.Awaits (c : Call) (r : Nat × Nat) : Prop :=
  c.handle.start = r.1 ∧ ∃ indexed, c.progress = .waiting r.2 indexed

/-- A request that is sent has the next ticket, and it is the last in the queue. -/
theorem requestFree_eq {x x' : Exchange γ} {id start : Nat} {result : Except PagerError Nat}
    (h : x.requestFree id start = (result, x')) :
    x'.completions = x.completions ++ [⟨none⟩] ∧
      ((result = .ok x.completions.length ∧
          x'.channel.pending = x.channel.pending ++ [.free id start x.completions.length]) ∨
        (∃ cause, result = .error cause) ∧ x'.channel.pending = x.channel.pending) := by
  unfold Exchange.requestFree Exchange.openTicket Exchange.send Channel.submit Channel.enqueue at h
  dsimp only at h
  split at h
  · rename_i channel hsubmit
    split at hsubmit
    · cases hsubmit
    · cases hsubmit
      cases h
      exact ⟨rfl, .inl ⟨rfl, rfl⟩⟩
  · cases h
    exact ⟨rfl, .inr ⟨⟨_, rfl⟩, rfl⟩⟩

theorem unindex_eq {x x' : Exchange γ} {start : Nat} {indexed : Bool}
    (h : x.unindex start = (indexed, x')) : ∃ index, x' = { x with index } := by
  unfold Exchange.unindex at h
  split at h
  · cases h
    exact ⟨_, rfl⟩
  · cases h
    exact ⟨_, rfl⟩

/-- What a step of a call does to the completions and to the queue. -/
inductive Call.Submits (h : Handle) (after : Progress) (x x' : Exchange γ) : Prop
  | nothing (hcompletions : x'.completions = x.completions)
      (hpending : x'.channel.pending = x.channel.pending)
  | ticket (hcompletions : x'.completions = x.completions ++ [⟨none⟩])
      (hpending : x'.channel.pending = x.channel.pending)
  | request (hafter : ∃ indexed, after = .waiting x.completions.length indexed)
      (hcompletions : x'.completions = x.completions ++ [⟨none⟩])
      (hpending : x'.channel.pending = x.channel.pending ++
        [.free h.id h.start x.completions.length])

theorem Call.Step.submits [Bytewise π] {number : Nat} {gone held : Bool} {h : Handle}
    {s s' : Site π γ} {before after : Progress} {events : List Event}
    (hstep : Step number gone held h s before after s' events) :
    Submits h after s.exchange s'.exchange := by
  cases hstep with
  | unindexes h' =>
    obtain ⟨index, rfl⟩ := unindex_eq h'
    exact .nothing rfl rfl
  | requests h' =>
    obtain ⟨hcompletions, ⟨hticket, hpending⟩ | ⟨⟨cause, herror⟩, -⟩⟩ := requestFree_eq h'
    · cases hticket
      exact .request ⟨_, rfl⟩ hcompletions hpending
    · cases herror
  | isUnheard h' =>
    obtain ⟨hcompletions, ⟨hticket, -⟩ | ⟨-, hpending⟩⟩ := requestFree_eq h'
    · cases hticket
    · exact .ticket hcompletions hpending
  | _ => exact .nothing rfl rfl

/-- A call that waits goes on when it is answered. -/
theorem Call.Step.awaits [Bytewise π] {number : Nat} {gone held : Bool} {h : Handle}
    {s s' : Site π γ} {before after : Progress} {events : List Event} {r : Nat × Nat}
    (hstep : Step number gone held h s before after s' events)
    (hawaits : (⟨h, before⟩ : Call).Awaits r) : ∃ a, s.exchange.answerTo r.2 = some a := by
  obtain ⟨-, indexed, heq⟩ := hawaits
  cases hstep with
  | settles ha =>
    cases heq
    exact ⟨_, ha⟩
  | isRefused ha =>
    cases heq
    exact ⟨_, ha⟩
  | _ => cases heq

/-- A call changes no answer that was given or is to be given. -/
theorem Call.Submits.answerTo {h : Handle} {after : Progress} {x x' : Exchange γ}
    (hsubmits : Submits h after x x') {t : Nat} (ht : t < x.completions.length) :
    x'.answerTo t = x.answerTo t := by
  have hgrown : x'.completions = x.completions ++ [⟨none⟩] → x'.answerTo t = x.answerTo t := by
    intro heq
    unfold Exchange.answerTo
    rw [heq, List.getElem?_append_left ht]
  cases hsubmits with
  | nothing hcompletions hpending =>
    unfold Exchange.answerTo
    rw [hcompletions]
  | ticket hcompletions hpending => exact hgrown hcompletions
  | request hafter hcompletions hpending => exact hgrown hcompletions

namespace Floor

/-- The requests in the queue. -/
def queued (f : Floor π γ) : List (Nat × Nat) :=
  f.worker.exchange.channel.pending.filterMap Message.request?

/-- The requests that were not answered. -/
def asked (f : Floor π γ) : List (Nat × Nat) := f.duty.serving.toList ++ f.queued

/-- Somebody waits for the answer to each request, which is still to be given. -/
structure Asks (f : Floor π γ) : Prop where
  unanswered : ∀ r ∈ f.asked, r.2 < f.worker.exchange.completions.length ∧
    f.worker.exchange.answerTo r.2 = none
  awaited : ∀ r ∈ f.asked, ∃ call ∈ f.calls, call.Awaits r
  distinct : (f.asked.map Prod.snd).Nodup

variable [Bytewise π] {f f' : Floor π γ}

/-- Who waits for an answer that is still to be given does not go on. -/
theorem Asks.stay {c : Nat} {call : Call} {progress : Progress} {site : Site π γ}
    {events : List Event} (hf : f.Asks) (hcall : f.calls[c]? = some call)
    (hstep : Call.Step c f.gone (f.held call.handle.gate) call.handle f.worker.toSite call.progress
      progress site events) {r : Nat × Nat} (hr : r ∈ f.asked) :
    ∃ other ∈ f.calls.set c { call with progress }, other.Awaits r := by
  obtain ⟨other, hother, hawaits⟩ := hf.awaited r hr
  obtain ⟨k, hk⟩ := List.getElem?_of_mem hother
  by_cases heq : c = k
  · subst heq
    rw [hcall] at hk
    cases hk
    obtain ⟨a, ha⟩ := hstep.awaits hawaits
    rw [(hf.unanswered r hr).2] at ha
    cases ha
  · have hother' : (f.calls.set c { call with progress })[k]? = some other := by
      rw [List.getElem?_set_ne heq, hk]
    exact ⟨other, List.mem_of_getElem? hother', hawaits⟩

/-- A request that a call sends has a ticket that nobody else has. -/
theorem Asks.advanced {c : Nat} {call : Call} {progress : Progress} {site : Site π γ}
    {events : List Event} (hf : f.Asks) (hcall : f.calls[c]? = some call)
    (hstep : Call.Step c f.gone (f.held call.handle.gate) call.handle f.worker.toSite call.progress
      progress site events)
    (hf' : f' = { f with
      worker := { f.worker with toSite := site }
      calls := f.calls.set c { call with progress }
      log := f.log ++ events }) : f'.Asks := by
  have hexchange : f'.worker.exchange = site.exchange := hf' ▸ rfl
  have hcalls : f'.calls = f.calls.set c { call with progress } := hf' ▸ rfl
  have hasked : f'.asked = f.duty.serving.toList ++
      site.exchange.channel.pending.filterMap Message.request? := hf' ▸ rfl
  have hstay : ∀ r ∈ f.asked, ∃ other ∈ f'.calls, other.Awaits r := fun r hr => by
    rw [hcalls]
    exact hf.stay hcall hstep hr
  have hgrown : site.exchange.completions = f.worker.exchange.completions ++ [⟨none⟩] →
      ∀ r ∈ f.asked, r.2 < f'.worker.exchange.completions.length ∧
        f'.worker.exchange.answerTo r.2 = none := by
    intro hcompletions r hr
    obtain ⟨hlt, hnone⟩ := hf.unanswered r hr
    rw [hexchange, hstep.submits.answerTo hlt, hcompletions, List.length_append]
    exact ⟨Nat.lt_add_right _ hlt, hnone⟩
  rcases hstep.submits with ⟨hcompletions, hpending⟩ | ⟨hcompletions, hpending⟩ |
    ⟨⟨indexed, hafter⟩, hcompletions, hpending⟩
  · have hsame : f'.asked = f.asked := by rw [hasked, hpending]; rfl
    refine ⟨fun r hr => ?_, fun r hr => hstay r (hsame ▸ hr), hsame ▸ hf.distinct⟩
    unfold Exchange.answerTo
    rw [hexchange, hcompletions]
    exact hf.unanswered r (hsame ▸ hr)
  · have hsame : f'.asked = f.asked := by rw [hasked, hpending]; rfl
    exact ⟨fun r hr => hgrown hcompletions r (hsame ▸ hr), fun r hr => hstay r (hsame ▸ hr),
      hsame ▸ hf.distinct⟩
  · set ticket := f.worker.exchange.completions.length with hticket
    have hmore : f'.asked = f.asked ++ [(call.handle.start, ticket)] := by
      rw [hasked, hpending, List.filterMap_append, ← List.append_assoc]
      rfl
    have hc : c < f.calls.length := (List.getElem?_eq_some_iff.mp hcall).1
    refine ⟨fun r hr => ?_, fun r hr => ?_, ?_⟩
    · rcases List.mem_append.mp (hmore ▸ hr) with hr | hr
      · exact hgrown hcompletions r hr
      · rw [List.mem_singleton.mp hr]
        unfold Exchange.answerTo
        rw [hexchange, hcompletions, List.length_append, List.getElem?_concat_length]
        exact ⟨Nat.lt_succ_self _, rfl⟩
    · rcases List.mem_append.mp (hmore ▸ hr) with hr | hr
      · exact hstay r hr
      · rw [List.mem_singleton.mp hr]
        have hnew : f'.calls[c]? = some { call with progress } := by
          rw [hcalls, List.getElem?_set_self hc]
        exact ⟨_, List.mem_of_getElem? hnew, rfl, indexed, hafter⟩
    · rw [hmore, List.map_append, List.map_singleton, List.nodup_append]
      refine ⟨hf.distinct, List.nodup_singleton _, fun t ht t' ht' heq => ?_⟩
      obtain ⟨r, hr, rfl⟩ := List.mem_map.mp ht
      have hlt := (hf.unanswered r hr).1
      rw [heq, List.mem_singleton.mp ht'] at hlt
      exact absurd hlt (Nat.lt_irrefl _)

end Floor
end DemandPager
