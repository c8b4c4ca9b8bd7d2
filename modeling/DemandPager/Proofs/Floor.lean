/-
# Callers and the worker at the same time

Any number of calls and the errands of the worker, one step of one thread at a time. Which
thread is next is arbitrary: a `Choice` names one step, and `Floor.move` makes it, if it
can be made. The worker serves messages, evicts chunks, and tears everything down when it
is asked to stop or something fails. A gate that some call holds is retired and revived by
nobody.

No new objects come to be; each has a gate of its own from the first. What happens is
logged in its order.

Key definitions: `Floor`, `Choice`, `Floor.move`, `Floor.Next`, `Floor.Reaches`,
`Floor.Opens`.
Key theorems: `Floor.next_of_move`, `Floor.Reaches.play`.
-/
import DemandPager.Proofs.Calls
import DemandPager.Proofs.Errands
import DemandPager.Proofs.Parts

namespace DemandPager

variable {π γ : Type}

/-- What the worker is busy with. -/
inductive Task (γ : Type)
  | serve (message : Message γ)
  | evict
  | close

/-- What the worker does. -/
inductive Duty (π γ : Type) : Type 1
  | idle
  /-- This is left of the errand of a task. -/
  | busy (task : Task γ) (rest : Errand π γ Flow)
  /-- The worker is over. -/
  | ended

/-- The threads and what they share. -/
structure Floor (π γ : Type) : Type 1 where
  worker : Worker π γ
  duty : Duty π γ := .idle
  handles : List Handle
  calls : List Call := []
  /-- Whether the pager was given up, so that only handles are left. -/
  gone : Bool := false
  log : List Event := []

/-- A step of one of the threads. -/
inductive Choice
  /-- A call is made with one of the handles. -/
  | call (handle : Nat) (intent : Intent)
  /-- A call makes its next step. -/
  | advance (call : Nat)
  /-- Somebody says that nothing is accepted any more, and clears the index. -/
  | announce
  /-- Somebody retires the gate of an object that was on the index. -/
  | retire (handle : Nat)
  /-- Somebody asks the worker to stop. -/
  | stop
  /-- Somebody closes the queue. -/
  | close
  | giveUp
  /-- The worker takes a message. -/
  | take
  /-- The worker begins to evict a chunk. -/
  | evict
  /-- Something fails in the worker that it cannot bear. -/
  | fail
  /-- The worker does the next part of what it is busy with. -/
  | work
deriving DecidableEq, Repr

/-- The deeds among what happened. -/
def deedsOf (log : List Event) : List Deed :=
  log.filterMap fun
    | .deed d => some d
    | _ => none

@[simp] theorem deedsOf_append (log new : List Event) :
    deedsOf (log ++ new) = deedsOf log ++ deedsOf new := List.filterMap_append

@[simp] theorem deedsOf_deeds (deeds : List Deed) : deedsOf (deeds.map .deed) = deeds := by
  unfold deedsOf
  rw [List.filterMap_map]
  exact List.filterMap_some

theorem mem_deedsOf {d : Deed} {log : List Event} : d ∈ deedsOf log ↔ .deed d ∈ log := by
  unfold deedsOf
  rw [List.mem_filterMap]
  refine ⟨fun ⟨e, he, heq⟩ => ?_, fun h => ⟨_, h, rfl⟩⟩
  cases e with
  | deed => cases heq; exact he
  | _ => cases heq

section Tasks

variable [Paging π]

/-- The errand of a task; the answer tells whether the worker goes on. -/
def Task.errand : Task γ → Errand π γ Flow
  | .serve message => Worker.serveErrand message
  | .evict => do
    Worker.evictErrand
    return .proceed
  | .close => do
    Worker.shutdownErrand
    return .stop

/-- The worker begins with a task. -/
def Duty.of (task : Task γ) : Duty π γ := .busy task task.errand

/-- What the worker does after a task. -/
def Task.after : Task γ → Flow → Duty π γ
  | .close, _ => .ended
  | _, .proceed => .idle
  | _, .stop => .of .close

/-- What the worker does after a task that failed. -/
def Task.afterFailure : Task γ → Failure → Duty π γ
  | .close, _ | _, .abort _ => .ended
  | _, .error _ => .of .close

end Tasks

namespace Floor

/-- Whether some call holds the gate of a number. -/
def held (f : Floor π γ) (number : Nat) : Bool := f.calls.any (·.holds number)

/-- The books and the deeds so far. -/
def moment (f : Floor π γ) : Moment γ := ⟨f.worker.toDesk, deedsOf f.log⟩

/-- The entries that the worker made on its way to a state. -/
def news (f : Floor π γ) (w : Worker π γ) : List Event :=
  ((w.journal.drop f.worker.journal.length).map Deed.entry).map .deed

/-- The floor after the site was changed. -/
def onSite (f : Floor π γ) (g : Site π γ → Site π γ) : Floor π γ :=
  { f with worker := f.worker.onSite g }

variable [Paging π]

/-- The worker begins with a task if it has nothing else to do. -/
def assign (f : Floor π γ) (task : Task γ) : Option (Floor π γ) :=
  match f.duty with
  | .idle => if f.worker.phase = .running then some { f with duty := .of task } else none
  | _ => none

/-- The worker does the next part of what it is busy with. -/
def work (f : Floor π γ) : Option (Floor π γ) :=
  match f.duty with
  | .idle | .ended => none
  | .busy task (.ret flow) => some { f with duty := task.after flow }
  | .busy task (.part step next) =>
    match step f.worker with
    | .ok b w =>
      some { f with worker := w, duty := .busy task (next b), log := f.log ++ f.news w }
    | .error failure w =>
      some { f with worker := w, duty := task.afterFailure failure, log := f.log ++ f.news w }
  | .busy task (.turn start number t next) =>
    if t = .retire ∧ f.held number then
      none
    else
      some { f with
        worker := f.worker.onSite (·.modifyGate number t.apply)
        duty := .busy task next
        log := f.log ++ [.deed (.turn start number t)] }

variable [Bytewise π]

/-- The floor after a step; the result is missing if the step cannot be made. -/
def move (f : Floor π γ) : Choice → Option (Floor π γ)
  | .call handle intent => f.handles[handle]?.map fun h =>
    { f with calls := f.calls ++ [Call.begin h intent] }
  | .advance c => f.calls[c]?.bind fun call =>
    (call.advance c f.gone (f.held call.handle.gate) f.worker.toSite).map
      fun (progress, site, events) =>
        { f with
          worker := { f.worker with toSite := site }
          calls := f.calls.set c { call with progress }
          log := f.log ++ events }
  | .announce => some <| f.onSite fun s =>
    { s with exchange := { s.exchange with stopping := true, index := .empty } }
  | .retire handle => f.handles[handle]?.bind fun h =>
    if f.held h.gate then none else some (f.onSite (·.modifyGate h.gate Gate.retire))
  | .stop => some (f.onSite fun s => (s.submit .shutdown).2)
  | .close => some <| f.onSite fun s =>
    { s with exchange := { s.exchange with channel := s.exchange.channel.close } }
  | .giveUp => some { f with gone := true }
  | .take =>
    match f.worker.exchange.channel.next with
    | none => none
    | some (message, channel) =>
      if message.asksObject then
        none
      else
        (f.onSite fun s => { s with exchange := { s.exchange with channel } }).assign
          (.serve message)
  | .evict => f.assign .evict
  | .fail => f.assign .close
  | .work => f.work

/-- The floor after several steps. -/
def play : List Choice → Floor π γ → Option (Floor π γ)
  | [], f => some f
  | choice :: rest, f => (f.move choice).bind (play rest)

/-- A floor that is reached from another. -/
inductive Reaches (f₀ : Floor π γ) : Floor π γ → Prop
  | refl : Reaches f₀ f₀
  | step {f f' : Floor π γ} {choice : Choice} (h : Reaches f₀ f) (hmove : f.move choice = some f') :
      Reaches f₀ f'

theorem Reaches.play {f₀ f f' : Floor π γ} {choices : List Choice} (h : Reaches f₀ f)
    (hplay : play choices f = some f') : Reaches f₀ f' := by
  induction choices generalizing f with
  | nil =>
    cases hplay
    exact h
  | cons choice rest ih =>
    obtain ⟨f₁, hmove, hrest⟩ := Option.bind_eq_some_iff.mp hplay
    exact ih (.step h hmove) hrest

/-! ### What a step can be -/

omit [Paging π] [Bytewise π] in
/-- What those do to the site who ask for a stop. -/
inductive Requested (f : Floor π γ) : Site π γ → Prop
  | exchange {x : Exchange γ} (hcompletions : x.completions = f.worker.exchange.completions)
      (hpending : x.channel.pending = f.worker.exchange.channel.pending ∨
        x.channel.pending = f.worker.exchange.channel.pending ++ [.shutdown]) :
      Requested f { f.worker.toSite with exchange := x }
  | retire {h : Handle} (hh : h ∈ f.handles) (hfree : f.held h.gate = false) :
      Requested f (f.worker.toSite.modifyGate h.gate Gate.retire)

/-- The floor after some step. -/
inductive Next (f : Floor π γ) : Floor π γ → Prop
  | called {h : Handle} {intent : Intent} (hh : h ∈ f.handles) :
      Next f { f with calls := f.calls ++ [Call.begin h intent] }
  | advanced {c : Nat} {call : Call} {progress : Progress} {site : Site π γ} {events : List Event}
      (hcall : f.calls[c]? = some call)
      (hstep : call.advance c f.gone (f.held call.handle.gate) f.worker.toSite =
        some (progress, site, events)) :
      Next f { f with
        worker := { f.worker with toSite := site }
        calls := f.calls.set c { call with progress }
        log := f.log ++ events }
  | requested {site : Site π γ} (h : f.Requested site) :
      Next f { f with worker := { f.worker with toSite := site } }
  | gaveUp : Next f { f with gone := true }
  | took {message : Message γ} {channel : Channel (Message γ)} (hidle : f.duty = .idle)
      (hnext : f.worker.exchange.channel.next = some (message, channel))
      (hold : message.asksObject = false) :
      Next f { f with
        worker := f.worker.onExchange fun x => { x with channel }
        duty := .of (.serve message) }
  | evicts (hidle : f.duty = .idle) : Next f { f with duty := .of .evict }
  | fails (hidle : f.duty = .idle) : Next f { f with duty := .of .close }
  | finished {task : Task γ} {flow : Flow} (hduty : f.duty = .busy task (.ret flow)) :
      Next f { f with duty := task.after flow }
  | parted {β : Type} {task : Task γ} {step : WorkerM π γ β} {next : β → Errand π γ Flow} {b : β}
      {w : Worker π γ} (hduty : f.duty = .busy task (.part step next))
      (hact : step f.worker = .ok b w) :
      Next f { f with worker := w, duty := .busy task (next b), log := f.log ++ f.news w }
  | failed {β : Type} {task : Task γ} {step : WorkerM π γ β} {next : β → Errand π γ Flow}
      {failure : Failure} {w : Worker π γ} (hduty : f.duty = .busy task (.part step next))
      (hact : step f.worker = .error failure w) :
      Next f { f with worker := w, duty := task.afterFailure failure, log := f.log ++ f.news w }
  | turned {task : Task γ} {start number : Nat} {t : GateTurn} {next : Errand π γ Flow}
      (hduty : f.duty = .busy task (.turn start number t next))
      (hfree : t = .retire → f.held number = false) :
      Next f { f with
        worker := f.worker.onSite (·.modifyGate number t.apply)
        duty := .busy task next
        log := f.log ++ [.deed (.turn start number t)] }

variable {f f' : Floor π γ}

omit [Paging π] [Bytewise π] in
/-- To ask for a stop is to send a message, or nothing if the queue is closed. -/
theorem requested_stop (f : Floor π γ) : f.Requested (f.worker.toSite.submit .shutdown).2 := by
  unfold Site.submit Exchange.send Channel.submit Channel.enqueue
  dsimp only
  split
  · rename_i channel hsubmit
    split at hsubmit
    · cases hsubmit
    · cases hsubmit
      exact .exchange rfl (.inr rfl)
  · exact .exchange rfl (.inl rfl)

omit [Bytewise π] in
theorem assign_eq_some {task : Task γ} (h : f.assign task = some f') :
    f.duty = .idle ∧ f' = { f with duty := .of task } := by
  unfold assign at h
  split at h
  · rename_i hduty
    split at h
    · cases h
      exact ⟨hduty, rfl⟩
    · cases h
  · cases h

theorem next_of_work (h : f.work = some f') : Next f f' := by
  unfold work at h
  split at h
  · cases h
  · cases h
  · rename_i task flow hduty
    cases h
    exact .finished hduty
  · rename_i task β step next hduty
    split at h
    · rename_i b w hact
      cases h
      exact .parted hduty hact
    · rename_i failure w hact
      cases h
      exact .failed hduty hact
  · rename_i task start number t next hduty
    split at h
    · cases h
    · rename_i hfree
      cases h
      refine .turned hduty fun ht => ?_
      rw [← Bool.not_eq_true]
      exact fun hheld => hfree ⟨ht, hheld⟩

/-- **Every move is one of the steps above.** -/
theorem next_of_move {choice : Choice} (h : f.move choice = some f') : Next f f' := by
  cases choice with
  | call handle intent =>
    obtain ⟨h', hhandle, rfl⟩ := Option.map_eq_some_iff.mp h
    exact .called (List.mem_of_getElem? hhandle)
  | advance c =>
    obtain ⟨call, hcall, h⟩ := Option.bind_eq_some_iff.mp h
    obtain ⟨⟨progress, site, events⟩, hstep, rfl⟩ := Option.map_eq_some_iff.mp h
    exact .advanced hcall hstep
  | announce =>
    cases h
    exact .requested (.exchange rfl (.inl rfl))
  | retire handle =>
    obtain ⟨h', hhandle, h⟩ := Option.bind_eq_some_iff.mp h
    split at h
    · cases h
    · rename_i hfree
      cases h
      exact .requested (.retire (List.mem_of_getElem? hhandle) (Bool.not_eq_true _ ▸ hfree))
  | stop =>
    cases h
    exact .requested (requested_stop f)
  | close =>
    cases h
    exact .requested (.exchange rfl (.inl rfl))
  | giveUp =>
    cases h
    exact .gaveUp
  | take =>
    simp only [move] at h
    split at h
    · cases h
    · rename_i message channel hnext
      split at h
      · cases h
      · rename_i hold
        obtain ⟨hidle, rfl⟩ := assign_eq_some h
        exact .took hidle hnext (Bool.not_eq_true _ ▸ hold)
  | evict =>
    obtain ⟨hidle, rfl⟩ := assign_eq_some h
    exact .evicts hidle
  | fail =>
    obtain ⟨hidle, rfl⟩ := assign_eq_some h
    exact .fails hidle
  | work => exact next_of_work h

end Floor
end DemandPager
